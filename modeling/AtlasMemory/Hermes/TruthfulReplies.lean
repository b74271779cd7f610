import AtlasMemory.Foundations.JsonRoundTrip
import AtlasMemory.Hermes.ToolCalls

/-!
# Truthful replies

A reply that reports a record as persisted or deleted, or a chain as verified, is compared with the
store that served the call.  The daemon's own replies bear the comparison.  A reply of the engine
does not look at what the engine did: a call to remember stores the text of a record in the place of
the value, a call to delete deletes nothing, and a call to verify verifies nothing.
-/

namespace AtlasMemory

namespace AtlasProvider

open MemoryController (firstOf isTruthy textOr valueText normalizeText)

variable {ρ : Type} (env : ProviderEnv) (d : MemoryDaemon ρ) (link : Link) (tool : Tool)
  (args : PyDict String Json) (vault : Stores ρ) (engine : Option (Stores ρ)) (now : ℚ)

/-! ## The property -/

def ToolOutcome.store (o : ToolOutcome ρ) : Option (Stores ρ) :=
  match o.server with
  | .daemon => some o.vault
  | .inProcess => o.engine

/-- The record of the key holds the text. -/
def HoldsText (s : Stores ρ) (key text : String) : Prop :=
  ∃ row, s.kv.db.stateVariables.get? key = some row ∧ row.value = (Json.str text).dumps

/-- The value of a remember call: the daemon's controller takes it in its normal form, the engine
stripped. -/
def givenValue (server : Server) : String :=
  match server with
  | .daemon => normalizeText (valueText d.env.path.rt (firstOf d.env.path.rt
      [some (sentValue env args), some (.str "")]))
  | .inProcess => PyString.strip (firstText env args ["value", "object"])

/-- The audit chain of the store verifies as deep as the call asks for. -/
def Verifies (s : Stores ρ) : Prop :=
  (s.kv.db.verifyAuditLog env.rt (env.rt.truthy (argOr args "deep" (.bool false)))).isValid = true

/-- The daemon is connected, and answers with an error of the protocol or a reply with the status
of an error. -/
def LiveError : Prop :=
  ∃ req, request env tool args = .ok req ∧ link = .connected ∧
    ((∃ err, (d.dispatch req vault).2 = .error err) ∨
      ∃ reply, (d.dispatch req vault).2 = .ok (some reply) ∧ reply.status = some "error")

/-- What the reply reports holds in the store that served the call, and it is no success where the
daemon has answered an error. -/
structure Truthful (o : ToolOutcome ρ) : Prop where
  persisted : tool = .remember → o.reply.reports "persisted" → ∃ s key, o.store = some s ∧
    o.reply.get? "key" = some (.str key) ∧ HoldsText s key (givenValue env d args o.server)
  deleted : tool = .delete → o.reply.reports "deleted" → ∀ s key, o.store = some s →
    o.reply.get? "key" = some (.str key) → s.kv.db.stateVariables.get? key = none
  verified : tool = .verifyChain → o.reply.reports "verified" →
    ∃ s, o.store = some s ∧ Verifies env args s
  errors : LiveError env d link tool args vault → ¬o.reply.hasStatus "ok"

/-! ## The condition -/

/-- The daemon gives no reply, or one with the status of a failure. -/
def FallsBack : Prop :=
  ∃ req, request env tool args = .ok req ∧
    fallsBack (handlerReply env tool args (d.sendUdsRequest link req vault).2) = true

/-- The engine's code for the tool accepts the arguments: no key is protected, and every number is
one. -/
def Accepts : Prop :=
  match tool with
  | .delete => DeleteGuard.isDeleteProtected (keyArg env args) = none
  | .remember => ∃ conf, env.rt.floatOfJson
      (argOr args "confidence" (env.rt.jsonFloat (.finite 1))) = some conf ∧
        (engine = none ∨ (conf.ge (.finite 0) && (PyFloat.finite 1).ge conf) = true)
  | .recall => (env.toInt (argOr args "limit" (jsonNat 15))).isSome = true
  | .whatIf => (env.toInt (argOr args "depth" (jsonNat 2))).isSome = true
  | .taskFeedback => (env.rt.floatOfJson
      (argOr args "delta" (env.rt.jsonFloat (.finite (5 / 100))))).isSome = true
  | .sleepSync => (env.toInt (argOr args "min_frequency" (jsonNat 1))).isSome = true
  | .activeSensing | .stats | .get | .verifyChain | .commitObservation => True

/-- The store of the engine is as the reply of the engine will say. -/
def Agrees : Prop :=
  match tool with
  | .remember => False
  | .delete => ∀ s, engine = some s → s.kv.db.stateVariables.get? (keyArg env args) = none
  | .verifyChain => ∃ s, engine = some s ∧ Verifies env args s
  | _ => True

/-- The condition: where the engine has to answer and accepts the arguments, the daemon has not
answered an error, and the store of the engine is already as the reply will say. -/
def Supported : Prop :=
  FallsBack env d link tool args vault → Accepts env tool args engine →
    ¬LiveError env d link tool args vault ∧ Agrees env tool args engine

variable {env d link tool args vault engine now}

/-! ## Replies -/

/-- The later items of a dictionary display leave the other names alone. -/
lemma get?_ofEntries_append {l l' : List (String × Json)} {name : String}
    (h : name ∉ l'.map Prod.fst) :
    (PyDict.ofEntries (l ++ l')).get? name = (PyDict.ofEntries l).get? name := by
  unfold PyDict.ofEntries
  rw [List.foldl_append]
  generalize l.foldl (fun r e => r.set e.1 e.2) (∅ : ToolReply) = r
  induction l' generalizing r with
  | nil => rfl
  | cons e l' ih =>
      rw [List.map_cons, List.mem_cons, not_or] at h
      rw [List.foldl_cons, ih h.2]
      exact PyDict.get?_set_of_ne r e.2 (Ne.symm h.1)

lemma get?_okReply_status {items : List (String × Json)}
    (h : "status" ∉ items.map Prod.fst) : (okReply items).get? "status" = some (.str "ok") := by
  have hrest : "status" ∉ (items ++ [("mode", Json.str "in_process")]).map Prod.fst := by
    rw [List.map_append, List.mem_append, not_or]
    exact ⟨h, by simp⟩
  exact (get?_ofEntries_append (l := [("status", .str "ok")]) hrest).trans rfl

lemma status_of_get? {reply : ToolReply} {s : String} (h : reply.get? "status" = some (.str s)) :
    reply.status = some s := by
  unfold ToolReply.status
  rw [h]

lemma fallsBack_unanswered (reason : Option TransportReason) :
    fallsBack (unanswered env tool args reason) = true := by
  have hstatus : (unanswered env tool args reason).get? "status" = some (.str "error") ∨
      (unanswered env tool args reason).get? "status" = some (.str "daemon_offline") := by
    unfold unanswered
    dsimp only
    rw [get?_setIf_of_ne _ _ (by decide)]
    cases tool
    all_goals
      rw [PyDict.get?_ofEntries (by simp)]
      simp [PyDict.find]
  unfold fallsBack
  rcases hstatus with h | h
  · rw [status_of_get? h]
    rfl
  · rw [status_of_get? h]
    rfl

lemma get?_errorReply (toolName : String) (err : PyError) {name : String}
    (h : name ∉ ["status", "tool", "error"]) : (errorReply toolName err).get? name = none := by
  unfold errorReply
  rw [PyDict.get?_ofEntries (by simp)]
  simp only [List.mem_cons, List.not_mem_nil, or_false, not_or] at h
  simp [PyDict.find, Ne.symm h.1, Ne.symm h.2.1, Ne.symm h.2.2]

lemma status_errorReply (toolName : String) (err : PyError) :
    (errorReply toolName err).get? "status" = some (.str "error") := by
  unfold errorReply
  rw [PyDict.get?_ofEntries (by simp)]
  rfl

lemma not_hasStatus_errorReply (toolName : String) (err : PyError) :
    ¬(errorReply toolName err).hasStatus "ok" := by
  unfold ToolReply.hasStatus
  rw [status_errorReply]
  simp

/-! ## The engine's replies -/

variable {vault' : Stores ρ} {reason : Option Json}

/-- The engine's code gives a success exactly when it accepts the arguments. -/
lemma hasStatus_answerInProcess :
    (answerInProcess env tool args vault engine now reason).reply.hasStatus "ok" ↔
      Accepts env tool args engine := by
  have hok : ∀ items : List (String × Json), "status" ∉ items.map Prod.fst →
      (okReply items).hasStatus "ok" := fun _ => get?_okReply_status
  unfold answerInProcess inProcess Accepts
  cases tool with
  | get | stats | activeSensing | verifyChain => exact iff_of_true (hok _ (by simp)) trivial
  | commitObservation =>
      refine iff_of_true ?_ trivial
      show (setIf _ _ _).get? "status" = some (.str "ok")
      rw [get?_setIf_of_ne _ _ (by decide), PyDict.get?_ofEntries (by simp)]
      rfl
  | delete =>
      dsimp only
      cases hguard : DeleteGuard.isDeleteProtected (keyArg env args) with
      | none => exact iff_of_true (hok _ (by simp)) rfl
      | some pre =>
          refine iff_of_false ?_ (by rintro ⟨⟩)
          unfold protectedReply ToolReply.hasStatus
          rw [PyDict.get?_ofEntries (by simp)]
          simp [PyDict.find]
  | «recall» =>
      dsimp only [intArg]
      cases env.toInt (argOr args "limit" (jsonNat 15)) with
      | none => exact iff_of_false (not_hasStatus_errorReply _ _) (by rintro ⟨⟩)
      | some n => exact iff_of_true (hok _ (by simp)) rfl
  | whatIf =>
      dsimp only [intArg]
      cases env.toInt (argOr args "depth" (jsonNat 2)) with
      | none => exact iff_of_false (not_hasStatus_errorReply _ _) (by rintro ⟨⟩)
      | some n => exact iff_of_true (hok _ (by simp)) rfl
  | taskFeedback =>
      dsimp only [floatArg]
      cases env.rt.floatOfJson (argOr args "delta" (env.rt.jsonFloat (.finite (5 / 100)))) with
      | none => exact iff_of_false (not_hasStatus_errorReply _ _) (by rintro ⟨⟩)
      | some x => exact iff_of_true (hok _ (by simp)) rfl
  | sleepSync =>
      dsimp only [intArg]
      cases env.toInt (argOr args "min_frequency" (jsonNat 1)) with
      | none => exact iff_of_false (not_hasStatus_errorReply _ _) (by rintro ⟨⟩)
      | some n => exact iff_of_true (hok _ (by simp)) rfl
  | remember =>
      dsimp only [floatArg]
      cases env.rt.floatOfJson (argOr args "confidence" (env.rt.jsonFloat (.finite 1))) with
      | none =>
          refine iff_of_false (not_hasStatus_errorReply _ _) ?_
          rintro ⟨conf, hconf, -⟩
          cases hconf
      | some conf =>
          dsimp only
          cases engine with
          | none => exact iff_of_true (hok _ (by simp)) ⟨conf, rfl, Or.inl rfl⟩
          | some e =>
              dsimp only
              unfold rememberArgs
              by_cases hrange : (conf.ge (.finite 0) && (PyFloat.finite 1).ge conf) = true
              · rw [if_pos hrange]
                exact iff_of_true (hok _ (by simp)) ⟨conf, rfl, Or.inr hrange⟩
              · rw [if_neg hrange]
                refine iff_of_false (not_hasStatus_errorReply _ _) ?_
                rintro ⟨conf', hconf, hnone | hrange'⟩
                · cases hnone
                · rw [← Option.some.inj hconf] at hrange'
                  exact hrange hrange'

/-- Where the engine's code does not accept the arguments, the reply is that for an exception or for
a protected key. -/
lemma reply_of_not_accepts (h : ¬Accepts env tool args engine) :
    let o := answerInProcess env tool args vault engine now reason
    (∃ err, o.reply = errorReply tool.name err) ∨
      ∃ pre, o.reply = protectedReply (keyArg env args) pre := by
  unfold Accepts at h
  unfold answerInProcess inProcess
  cases tool with
  | get | stats | activeSensing | verifyChain | commitObservation => exact absurd trivial h
  | delete =>
      dsimp only at h ⊢
      cases hguard : DeleteGuard.isDeleteProtected (keyArg env args) with
      | none => exact absurd hguard h
      | some pre => exact Or.inr ⟨pre, rfl⟩
  | «recall» =>
      dsimp only [intArg] at h ⊢
      cases hint : env.toInt (argOr args "limit" (jsonNat 15)) with
      | none => exact Or.inl ⟨_, rfl⟩
      | some n => exact absurd (by rw [hint]; rfl) h
  | whatIf =>
      dsimp only [intArg] at h ⊢
      cases hint : env.toInt (argOr args "depth" (jsonNat 2)) with
      | none => exact Or.inl ⟨_, rfl⟩
      | some n => exact absurd (by rw [hint]; rfl) h
  | taskFeedback =>
      dsimp only [floatArg] at h ⊢
      cases hfloat : env.rt.floatOfJson
        (argOr args "delta" (env.rt.jsonFloat (.finite (5 / 100)))) with
      | none => exact Or.inl ⟨_, rfl⟩
      | some x => exact absurd (by rw [hfloat]; rfl) h
  | sleepSync =>
      dsimp only [intArg] at h ⊢
      cases hint : env.toInt (argOr args "min_frequency" (jsonNat 1)) with
      | none => exact Or.inl ⟨_, rfl⟩
      | some n => exact absurd (by rw [hint]; rfl) h
  | remember =>
      dsimp only [floatArg] at h ⊢
      cases hfloat : env.rt.floatOfJson
        (argOr args "confidence" (env.rt.jsonFloat (.finite 1))) with
      | none => exact Or.inl ⟨_, rfl⟩
      | some conf =>
          dsimp only
          cases engine with
          | none => exact absurd ⟨conf, hfloat, Or.inl rfl⟩ h
          | some e =>
              dsimp only
              unfold rememberArgs
              by_cases hrange : (conf.ge (.finite 0) && (PyFloat.finite 1).ge conf) = true
              · exact absurd ⟨conf, hfloat, Or.inr hrange⟩ h
              · rw [if_neg hrange]
                exact Or.inl ⟨_, rfl⟩

/-- Such a reply reports nothing. -/
lemma not_reports_of_not_accepts (h : ¬Accepts env tool args engine) {name : String}
    (hname : name ∈ ["persisted", "deleted", "verified"]) :
    ¬(answerInProcess env tool args vault engine now reason).reply.reports name := by
  unfold ToolReply.reports
  obtain ⟨err, hreply⟩ | ⟨pre, hreply⟩ :
      (∃ err, (answerInProcess env tool args vault engine now reason).reply =
          errorReply tool.name err) ∨
        ∃ pre, (answerInProcess env tool args vault engine now reason).reply =
          protectedReply (keyArg env args) pre := reply_of_not_accepts h
  · have hother : name ∉ ["status", "tool", "error"] := by
      simp only [List.mem_cons, List.not_mem_nil, or_false] at hname
      rcases hname with rfl | rfl | rfl <;> decide
    rw [hreply, get?_errorReply _ _ hother]
    nofun
  · rw [hreply]
    unfold protectedReply
    rw [PyDict.get?_ofEntries (by simp)]
    simp only [List.mem_cons, List.not_mem_nil, or_false] at hname
    rcases hname with rfl | rfl | rfl <;> simp [PyDict.find]

lemma eq_of_dumps_str {a b : String} (h : (Json.str a).dumps = (Json.str b).dumps) : a = b := by
  have ha := Json.loads_dumps (v := .str a) trivial
  rw [h, Json.loads_dumps (v := .str b) trivial] at ha
  exact (Json.str.inj (Option.some.inj ha)).symm

/-- The store of the engine after a call to remember has the text of a record. -/
lemma untrue_remember (h : Accepts env .remember args engine) :
    let o := answerInProcess env .remember args vault engine now reason
    o.reply.reports "persisted" ∧ ∀ s key, o.store = some s →
      o.reply.get? "key" = some (.str key) → ¬HoldsText s key (givenValue env d args o.server) := by
  obtain ⟨conf, hconf, hengine⟩ := h
  have hreports : ∀ key val : String, (okReply [("key", .str key), ("value", .str val),
      ("persisted", .bool true)]).reports "persisted" := by
    intro key val
    unfold okReply ToolReply.reports
    rw [PyDict.get?_ofEntries (by simp)]
    simp [PyDict.find]
  have hkey : ∀ key val key' : String, (okReply [("key", .str key), ("value", .str val),
      ("persisted", .bool true)]).get? "key" = some (.str key') → key = key' := by
    intro key val key' hget
    unfold okReply at hget
    rw [PyDict.get?_ofEntries (by simp)] at hget
    simpa [PyDict.find] using hget
  unfold answerInProcess inProcess
  dsimp only [floatArg]
  rw [hconf]
  dsimp only
  cases engine with
  | none => exact ⟨hreports _ _, by rintro _ _ ⟨⟩⟩
  | some e =>
      have hrange := hengine.resolve_left (by rintro ⟨⟩)
      dsimp only
      unfold rememberArgs
      rw [if_pos hrange]
      refine ⟨hreports _ _, ?_⟩
      rintro s key hs hget ⟨row, hrow, hvalue⟩
      rw [← Option.some.inj hs, ← hkey _ _ _ hget, WritePath.get?_call_setSync, if_pos rfl] at hrow
      rw [← Option.some.inj hrow] at hvalue
      exact env.recordText_ne _ _ _ _ _ (eq_of_dumps_str hvalue)

/-- The engine's reply to a delete call says that the key is absent, and changes nothing. -/
lemma deleted_iff (h : Accepts env .delete args engine) :
    let o := answerInProcess env .delete args vault engine now reason
    (o.reply.reports "deleted" → ∀ s key, o.store = some s →
      o.reply.get? "key" = some (.str key) → s.kv.db.stateVariables.get? key = none) ↔
        Agrees env .delete args engine := by
  have hguard : DeleteGuard.isDeleteProtected (keyArg env args) = none := h
  unfold answerInProcess inProcess
  dsimp only
  rw [hguard]
  dsimp only
  generalize (engine.any fun e => (e.kv.db.stateVariables.lookup (keyArg env args)).isSome) = found
  have hreports : (okReply [("key", .str (keyArg env args)), ("deleted", .bool true),
      ("found", .bool found)]).reports "deleted" := by
    unfold okReply ToolReply.reports
    rw [PyDict.get?_ofEntries (by simp)]
    simp [PyDict.find]
  have hkey : (okReply [("key", .str (keyArg env args)), ("deleted", .bool true),
      ("found", .bool found)]).get? "key" = some (.str (keyArg env args)) := by
    unfold okReply
    rw [PyDict.get?_ofEntries (by simp)]
    simp [PyDict.find]
  constructor
  · intro htruth s hs
    exact htruth hreports s _ hs hkey
  · intro hagrees _ s key hs hget
    rw [hkey] at hget
    rw [← Json.str.inj (Option.some.inj hget)]
    exact hagrees s hs

/-- The engine's reply to a verify call says that the chain verifies. -/
lemma verified_iff :
    let o := answerInProcess env .verifyChain args vault engine now reason
    (o.reply.reports "verified" → ∃ s, o.store = some s ∧ Verifies env args s) ↔
      Agrees env .verifyChain args engine := by
  have hreports : ∀ length healed deep : Json, (okReply [("verified", .bool true),
      ("chain_length", length), ("healed", healed), ("deep", deep)]).reports "verified" := by
    intro length healed deep
    unfold okReply ToolReply.reports
    rw [PyDict.get?_ofEntries (by simp)]
    simp [PyDict.find]
  unfold answerInProcess inProcess
  constructor
  · intro htruth
    exact htruth (hreports _ _ _)
  · intro hagrees _
    exact hagrees

/-- A reply of the engine is truthful when it does not stand for an error of the daemon and the
store is already as it says. -/
lemma truthful_answerInProcess :
    Truthful env d link tool args vault
        (answerInProcess env tool args vault' engine now reason) ↔
      (Accepts env tool args engine →
        ¬LiveError env d link tool args vault ∧ Agrees env tool args engine) := by
  constructor
  · intro htruth hacc
    refine ⟨fun hlive => htruth.errors hlive (hasStatus_answerInProcess.mpr hacc), ?_⟩
    cases tool with
    | remember =>
        obtain ⟨hreports, hno⟩ := @untrue_remember ρ env d args vault' engine now reason hacc
        obtain ⟨s, key, hs, hkey, hholds⟩ := htruth.persisted rfl hreports
        exact absurd hholds (hno s key hs hkey)
    | delete => exact (deleted_iff hacc).mp (htruth.deleted rfl)
    | verifyChain => exact verified_iff.mp (htruth.verified rfl)
    | «recall» | whatIf | activeSensing | stats | get | taskFeedback | sleepSync
    | commitObservation => trivial
  · intro hcond
    by_cases hacc : Accepts env tool args engine
    · obtain ⟨hlive, hagrees⟩ := hcond hacc
      constructor
      · rintro rfl _
        exact absurd hagrees id
      · rintro rfl
        exact (deleted_iff hacc).mpr hagrees
      · rintro rfl
        exact verified_iff.mpr hagrees
      · intro h
        exact absurd h hlive
    · constructor
      · intro _ hreports
        exact absurd hreports (not_reports_of_not_accepts hacc (by simp))
      · intro _ hreports
        exact absurd hreports (not_reports_of_not_accepts hacc (by simp))
      · intro _ hreports
        exact absurd hreports (not_reports_of_not_accepts hacc (by simp))
      · intro _ hstatus
        exact hacc (hasStatus_answerInProcess.mp hstatus)

/-! ## The daemon's replies -/

lemma not_fallsBack_status {reply : ToolReply} (h : ¬fallsBack reply = true) :
    reply.status ≠ some "error" := by
  unfold fallsBack at h
  rw [Bool.or_eq_true, not_or] at h
  intro hstatus
  exact h.2 (decide_eq_true hstatus)

lemma answer_of_not_fallsBack {req : RpcRequest}
    (h : ¬fallsBack (handlerReply env tool args (d.sendUdsRequest link req vault).2) = true) :
    ∃ reply vault', d.dispatch req vault = (vault', .ok (some reply)) ∧
      d.sendUdsRequest link req vault = (vault', .ok (some reply)) := by
  unfold MemoryDaemon.sendUdsRequest at h ⊢
  cases link with
  | failed reason executed => exact absurd (fallsBack_unanswered _) h
  | connected =>
      dsimp only at h ⊢
      cases hdispatch : d.dispatch req vault with
      | mk vault' result =>
          rw [hdispatch] at h
          cases result with
          | error err => exact absurd (fallsBack_unanswered _) h
          | ok answer =>
              cases answer with
              | none => exact absurd (fallsBack_unanswered _) h
              | some reply => exact ⟨reply, vault', rfl, rfl⟩

variable {req : RpcRequest} {reply : ToolReply}

lemma mem_of_mem_itemsOf {names : List String} {name : String}
    (h : name ∈ (itemsOf args names).map Prod.fst) : name ∈ names := by
  obtain ⟨e, he, rfl⟩ := List.mem_map.mp h
  obtain ⟨n, hn, hitem⟩ := List.mem_filterMap.mp he
  obtain ⟨v, -, rfl⟩ := Option.map_eq_some_iff.mp hitem
  exact hn

lemma get?_persistReply {r : PersistReply} (h : r.toReply.reports "persisted") :
    ∃ w, r = .response w ∧ w.persisted = true ∧ r.toReply.get? "key" = some (.str w.key) := by
  cases r with
  | failed error =>
      unfold PersistReply.toReply ToolReply.reports at h
      rw [PyDict.get?_ofEntries (by simp)] at h
      simp [PyDict.find] at h
  | response w =>
      refine ⟨w, rfl, ?_, ?_⟩
      · unfold PersistReply.toReply ToolReply.reports at h
        dsimp only at h
        repeat rw [get?_setIf_of_ne _ _ (by decide)] at h
        rw [PyDict.get?_ofEntries (by simp)] at h
        simpa [PyDict.find] using h
      · unfold PersistReply.toReply
        dsimp only
        repeat rw [get?_setIf_of_ne _ _ (by decide)]
        rw [PyDict.get?_ofEntries (by simp)]
        simp [PyDict.find]

/-- The parameters of a request to set. -/
lemma set_request (hreq : request env .remember args = .ok req) :
    req.method = "set" ∧
      (PyDict.ofEntries req.params).get? "value" = some (sentValue env args) ∧
      ∀ name ∈ ["object", "val", "target"], (PyDict.ofEntries req.params).get? name = none := by
  unfold request at hreq
  dsimp only at hreq
  cases hconf : floatArg env (argOr args "confidence" (env.rt.jsonFloat (.finite 1))) with
  | error err =>
      rw [hconf] at hreq
      cases hreq
  | ok conf =>
      rw [hconf] at hreq
      rw [← Except.ok.inj hreq]
      have hrest : ∀ name ∉ ["outcome", "task_success"],
          name ∉ (itemsOf args ["outcome", "task_success"]).map Prod.fst :=
        fun name hname h => hname (mem_of_mem_itemsOf h)
      refine ⟨rfl, ?_, ?_⟩
      · dsimp only
        rw [get?_ofEntries_append (hrest _ (by simp)), PyDict.get?_ofEntries (by simp)]
        simp [PyDict.find]
      · intro name hname
        simp only [List.mem_cons, List.not_mem_nil, or_false] at hname
        dsimp only
        rcases hname with rfl | rfl | rfl
        all_goals
          rw [get?_ofEntries_append (hrest _ (by simp)), PyDict.get?_ofEntries (by simp)]
          simp [PyDict.find]

/-- The record that the daemon reports as persisted is there. -/
lemma persisted_of_dispatch (hreq : request env .remember args = .ok req)
    (hdispatch : d.dispatch req vault = (vault', .ok (some reply)))
    (h : reply.reports "persisted") :
    ∃ key, reply.get? "key" = some (.str key) ∧
      HoldsText vault' key (givenValue env d args .daemon) := by
  obtain ⟨hmethod, hvalue, hothers⟩ := set_request hreq
  unfold MemoryDaemon.dispatch at hdispatch
  dsimp only at hdispatch
  rw [if_pos hmethod] at hdispatch
  cases hset : MemoryController.handleSet d.env vault (PyDict.ofEntries req.params) d.times with
  | mk after result =>
      rw [hset] at hdispatch
      dsimp only at hdispatch
      cases result with
      | error err => cases (Prod.mk.inj hdispatch).2
      | ok r =>
          obtain ⟨rfl, hreply⟩ := Prod.mk.inj hdispatch
          have hr : r.toReply = reply := Option.some.inj (Except.ok.inj hreply)
          rw [← hr] at h ⊢
          obtain ⟨w, rfl, hpersisted, hkey⟩ := get?_persistReply h
          obtain ⟨row, hrow, hrowvalue⟩ := MemoryController.record_of_handleSet hset hpersisted
          refine ⟨w.key, hkey, row, hrow, ?_⟩
          rw [hrowvalue, hvalue, hothers "object" (by simp), hothers "val" (by simp),
            hothers "target" (by simp)]
          rfl

lemma get?_deleteReply (r : DeleteReply) :
    (r.toReply.reports "deleted" → r.deleted = true) ∧
      r.toReply.get? "key" = some (.str r.key) := by
  constructor
  · intro h
    unfold DeleteReply.toReply ToolReply.reports at h
    dsimp only at h
    repeat rw [get?_setIf_of_ne _ _ (by decide)] at h
    rw [PyDict.get?_ofEntries (by simp)] at h
    simpa [PyDict.find] using h
  · unfold DeleteReply.toReply
    dsimp only
    repeat rw [get?_setIf_of_ne _ _ (by decide)]
    rw [PyDict.get?_ofEntries (by simp)]
    simp [PyDict.find]

/-- A record that a delete request reports as deleted is gone. -/
lemma absent_of_handleDelete {V : Type} {rt : Runtime} {vb : VectorBackend V}
    {rawText : Json → String} {key : String} {t : ℚ} {kv kv' : VerifiedKVStore} {v v' : V}
    {r : DeleteReply}
    (h : MemoryController.handleDelete rt vb rawText key t kv v = (kv', v', .ok r))
    (hr : r.deleted = true) : r.key = key ∧ kv'.db.stateVariables.get? key = none := by
  unfold MemoryController.handleDelete at h
  by_cases hkey : key = ""
  · rw [if_pos hkey] at h
    cases (Prod.mk.inj (Prod.mk.inj h).2).2
  · rw [if_neg hkey] at h
    split at h
    · rename_i pre _
      have hreply := Except.ok.inj (Prod.mk.inj (Prod.mk.inj h).2).2
      rw [← hreply] at hr
      cases hr
    · dsimp only at h
      split at h
      · cases (Prod.mk.inj (Prod.mk.inj h).2).2
      · have hafter : kv' = kv.call rt (.deleteSync key t) ∧ r.key = key := by
          split_ifs at h
          · exact ⟨(Prod.mk.inj h).1.symm,
              (congrArg DeleteReply.key (Except.ok.inj (Prod.mk.inj (Prod.mk.inj h).2).2)).symm⟩
          · exact ⟨(Prod.mk.inj h).1.symm,
              (congrArg DeleteReply.key (Except.ok.inj (Prod.mk.inj (Prod.mk.inj h).2).2)).symm⟩
        refine ⟨hafter.2, ?_⟩
        have hdb : (kv.call rt (.deleteSync key t)).db = (kv.db.deleteSync rt key t).1 :=
          @VerifiedKVStore.db_call rt kv (.deleteSync key t) (fun _ => by simp)
        rw [hafter.1, hdb, Db.stateVariables_deleteSync]
        exact PyDict.get?_erase_self _ _

/-- The record that the daemon reports as deleted is absent. -/
lemma deleted_of_dispatch (hreq : request env .delete args = .ok req)
    (hdispatch : d.dispatch req vault = (vault', .ok (some reply)))
    (h : reply.reports "deleted") {key : String} (hkey : reply.get? "key" = some (.str key)) :
    vault'.kv.db.stateVariables.get? key = none := by
  have hparams : req.method = "delete" ∧
      (PyDict.ofEntries req.params).get? "key" = some (.str (keyArg env args)) := by
    unfold request at hreq
    dsimp only at hreq
    rw [← Except.ok.inj hreq]
    refine ⟨rfl, ?_⟩
    dsimp only
    split_ifs
    · rfl
    · rfl
  unfold MemoryDaemon.dispatch at hdispatch
  dsimp only at hdispatch
  rw [if_neg (by rw [hparams.1]; decide), if_pos hparams.1, hparams.2] at hdispatch
  dsimp only at hdispatch
  cases hdelete : MemoryController.handleDelete d.env.path.rt d.env.vectors d.env.path.rawText
      (keyArg env args) d.deletedAt vault.kv vault.vectors with
  | mk kv rest =>
      obtain ⟨vectors, result⟩ := rest
      rw [hdelete] at hdispatch
      dsimp only at hdispatch
      obtain ⟨rfl, hresult⟩ := Prod.mk.inj hdispatch
      cases result with
      | error err => cases hresult
      | ok r =>
          have hr : r.toReply = reply := Option.some.inj (Except.ok.inj hresult)
          obtain ⟨hdeleted, hreplykey⟩ := get?_deleteReply r
          rw [hr] at hdeleted hreplykey
          obtain ⟨hrkey, habsent⟩ := absent_of_handleDelete hdelete (hdeleted h)
          rw [hkey] at hreplykey
          rw [Json.str.inj (Option.some.inj hreplykey), hrkey]
          exact habsent

/-- The daemon's reply to a verification has another name for the verdict. -/
lemma not_verified_of_dispatch (hreq : request env .verifyChain args = .ok req)
    (hdispatch : d.dispatch req vault = (vault', .ok (some reply))) :
    ¬reply.reports "verified" := by
  have hmethod : req.method = "verify_audit_log" := by
    unfold request at hreq
    rw [← Except.ok.inj hreq]
  unfold MemoryDaemon.dispatch at hdispatch
  dsimp only at hdispatch
  rw [if_neg (by rw [hmethod]; decide), if_neg (by rw [hmethod]; decide), if_pos hmethod]
    at hdispatch
  have hr := Option.some.inj (Except.ok.inj (Prod.mk.inj hdispatch).2)
  rw [← hr]
  unfold MemoryController.VerifyReply.toReply ToolReply.reports
  dsimp only
  repeat rw [get?_setIf_of_ne _ _ (by decide)]
  rw [PyDict.get?_ofEntries (by simp)]
  simp [PyDict.find]

/-! ## The call -/

lemma daemon_answers (hreq : request env tool args = .ok req)
    (h : ¬fallsBack (handlerReply env tool args (d.sendUdsRequest link req vault).2) = true) :
    Truthful env d link tool args vault (callTool env d link tool args vault engine now) := by
  obtain ⟨reply, vault', hdispatch, hsend⟩ := answer_of_not_fallsBack h
  have hcall : callTool env d link tool args vault engine now =
      ⟨reply, .daemon, vault', engine⟩ := by
    unfold callTool
    rw [hreq]
    dsimp only
    rw [hsend] at h ⊢
    exact if_neg h
  rw [hcall]
  constructor
  · rintro rfl hreports
    obtain ⟨key, hkey, hholds⟩ := persisted_of_dispatch hreq hdispatch hreports
    exact ⟨vault', key, rfl, hkey, hholds⟩
  · rintro rfl hreports s key hs hkey
    rw [← Option.some.inj hs]
    exact deleted_of_dispatch hreq hdispatch hreports hkey
  · rintro rfl hreports
    exact absurd hreports (not_verified_of_dispatch hreq hdispatch)
  · rintro ⟨req', hreq', -, hlive⟩
    rw [hreq] at hreq'
    rw [← Except.ok.inj hreq', hdispatch] at hlive
    rw [hsend] at h
    rcases hlive with ⟨err, herr⟩ | ⟨reply', hreply', hstatus⟩
    · cases herr
    · rw [← Option.some.inj (Except.ok.inj hreply')] at hstatus
      exact absurd hstatus (not_fallsBack_status h)

lemma truthful_callTool :
    Truthful env d link tool args vault (callTool env d link tool args vault engine now) ↔
      Supported env d link tool args vault engine := by
  cases hreq : request env tool args with
  | error err =>
      have hcall : callTool env d link tool args vault engine now =
          ⟨errorReply tool.name err, .inProcess, vault, engine⟩ := by
        unfold callTool
        rw [hreq]
      have hnothing : ∀ name ∈ ["persisted", "deleted", "verified"],
          ¬(errorReply tool.name err).reports name := by
        intro name hname
        unfold ToolReply.reports
        rw [get?_errorReply]
        · nofun
        · simp only [List.mem_cons, List.not_mem_nil, or_false] at hname
          rcases hname with rfl | rfl | rfl <;> decide
      refine iff_of_true ?_ ?_
      · rw [hcall]
        exact ⟨fun _ h => absurd h (hnothing _ (by simp)), fun _ h => absurd h (hnothing _ (by simp)),
          fun _ h => absurd h (hnothing _ (by simp)), fun _ => not_hasStatus_errorReply _ _⟩
      · rintro ⟨req, hreq', -⟩
        rw [hreq] at hreq'
        cases hreq'
  | ok req =>
      by_cases hback : fallsBack (handlerReply env tool args
          (d.sendUdsRequest link req vault).2) = true
      · have hcall : callTool env d link tool args vault engine now =
            answerInProcess env tool args (d.sendUdsRequest link req vault).1 engine now
              ((handlerReply env tool args (d.sendUdsRequest link req vault).2).get?
                "transport_reason") := by
          unfold callTool
          rw [hreq]
          exact if_pos hback
        rw [hcall, truthful_answerInProcess]
        exact ⟨fun h _ => h, fun h => h ⟨req, hreq, hback⟩⟩
      · refine iff_of_true (daemon_answers hreq hback) ?_
        rintro ⟨req', hreq', hback'⟩
        rw [hreq] at hreq'
        rw [← Except.ok.inj hreq'] at hback'
        exact absurd hback' hback

/-- **The reply to a tool call** is truthful exactly when the engine did not have to answer, or
refused to, or had nothing to do and no error of the daemon to hide. -/
theorem truthful_iff_supported (env : ProviderEnv) (d : MemoryDaemon ρ) (link : Link) (tool : Tool)
    (args : PyDict String Json) (vault : Stores ρ) (engine : Option (Stores ρ)) (now : ℚ) :
    ∃ o, handleToolCall env d link tool.name args vault engine now = some o ∧
      (Truthful env d link tool args vault o ↔ Supported env d link tool args vault engine) := by
  refine ⟨callTool env d link tool args vault engine now, ?_, truthful_callTool⟩
  have hname : Tool.ofName tool.name = some tool := by
    cases tool <;> decide
  unfold handleToolCall
  rw [hname]
  rfl

/-- A provider whose other memory is empty. -/
def sampleProvider : ProviderEnv where
  rt := .sample
  toInt := sampleWriteEnv.toInt
  lower s := s
  recordText _ val _ _ _ := "object=" ++ val
  recordText_ne _ val _ _ _ h := by
    have hlength := congrArg (fun s => s.toList.length) h
    simp only [String.toList_append, List.length_append] at hlength
    have hprefix : "object=".toList.length = 7 := by decide
    omega
  stateText _ row := row.value
  page t := t.entries
  recallRecords _ _ _ := []
  uncertainty _ _ _ := .finite 0
  hasOrchestrator := false
  sessionId := ""

def sampleDaemon : MemoryDaemon Unit where
  env := { path := sampleWriteEnv, vectors := ⟨fun v _ => (v, 0), fun v _ => (v, 0)⟩
           vectorRecord := fun _ _ _ => () }
  other _ s := (s, .error ⟨.runtimeError, "no handler"⟩)
  times := ⟨timesAt 1, 1⟩
  deletedAt := 1

def noteStores : Stores Unit :=
  { emptyStores with
    kv := emptyStores.kv.call .sample (.setSync { key := "note:a", value := .str "x" } 1) }

/-- Without the daemon, a note is reported as deleted and is still there. -/
theorem delete_not_truthful :
    ∃ o, handleToolCall sampleProvider sampleDaemon (.failed .socketMissing false) "atlas_delete"
        (PyDict.ofEntries [("key", .str "note:a")]) emptyStores (some noteStores) 2 = some o ∧
      o.reply.reports "deleted" ∧ (∃ s, o.store = some s ∧
        (s.kv.db.stateVariables.get? "note:a").isSome = true) ∧
      ¬Truthful sampleProvider sampleDaemon (.failed .socketMissing false) .delete
        (PyDict.ofEntries [("key", .str "note:a")]) emptyStores o := by
  set o := callTool sampleProvider sampleDaemon (.failed .socketMissing false) .delete
    (PyDict.ofEntries [("key", .str "note:a")]) emptyStores (some noteStores) 2 with ho
  have hreports : o.reply.reports "deleted" := by
    rw [ho]
    rfl
  have hkey : o.reply.get? "key" = some (.str "note:a") := by
    rw [ho]
    rfl
  have hstore : o.store = some noteStores := by
    rw [ho]
    rfl
  have hrow : (noteStores.kv.db.stateVariables.get? "note:a").isSome = true := by decide
  refine ⟨o, rfl, hreports, ⟨noteStores, hstore, hrow⟩, fun htruth => ?_⟩
  rw [htruth.deleted rfl hreports noteStores "note:a" hstore hkey] at hrow
  cases hrow

end AtlasProvider

end AtlasMemory
