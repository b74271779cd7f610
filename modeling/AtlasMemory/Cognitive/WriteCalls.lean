import AtlasMemory.Cognitive.WritePath

/-!
# The calls of a write

The stages of a write, and what it does to its store: the calls that it makes there, in order, with
the condition that decides each of them.  The rewrites of a superseded record come before the
savepoint; the savepoint is released when the write goes through, and rolled back when an insertion
raises.
-/

namespace AtlasMemory

namespace WritePath

variable {ρ : Type}

/-! ## The stages of a write -/

/-- The metadata after the speech-act gate. -/
def assertedMetadata (metadata : PyDict String Json) : PyDict String Json :=
  if metadata.contains "speech_act" then metadata
  else metadata.set "speech_act" (.str "epistemic_assertion")

def incomingOf (env : WriteEnv ρ) (req : WriteRequest ρ) (input : NormalizedInput) :
    ConflictArbiter.Incoming :=
  let confidence := PyFloat.clampUnit (some input.confidence)
  ⟨input.key, input.value, confidence,
    stampedMetadata env req (assertedMetadata input.metadata) confidence⟩

def arbitrated (env : WriteEnv ρ) (s : Stores ρ) (req : WriteRequest ρ) (input : NormalizedInput)
    (times : WriteTimes) : PyDict String ExistingItem :=
  arbiterItems (existingItems env s input.key input.value (incomingOf env req input).metadata
    req.sessionId times.scanned)

/-- The speech-act gate or the grounding gate stops the write. -/
def StoppedByGate (env : WriteEnv ρ) (input : NormalizedInput) : Prop :=
  env.isConversationalTurn input.key (input.metadata.get? "predicate") input.value = true ∨
    (Grounding.isLexicallyGroundedEntity env.rt env.lex input.key input.value
      (assertedMetadata input.metadata)).1 = false

/-- The write is a replay of a passage that the graph has. -/
def TakenForReplay (env : WriteEnv ρ) (s : Stores ρ) (req : WriteRequest ρ)
    (input : NormalizedInput) : Prop :=
  ((req.replay || input.replayAt.isSome) && env.indexPassage.isSome &&
    s.graph.hasPassage input.key) = true

instance (env : WriteEnv ρ) (input : NormalizedInput) : Decidable (StoppedByGate env input) :=
  inferInstanceAs (Decidable (_ ∨ _))

instance (env : WriteEnv ρ) (s : Stores ρ) (req : WriteRequest ρ) (input : NormalizedInput) :
    Decidable (TakenForReplay env s req input) :=
  inferInstanceAs (Decidable (_ = true))

def touchedArgs (input : NormalizedInput) : SetArgs where
  key := input.key
  value := input.value
  confidence := some (.finite (PyFloat.clampUnit (some input.confidence)))
  metadata := some (assertedMetadata input.metadata)
  reason := "replay_no_op"

def replayResponse (input : NormalizedInput) : WriteResponse where
  status := "ok"
  key := input.key
  persisted := true
  noOp := true
  reason := some "replay_no_op"

section Stages

variable {env : WriteEnv ρ} {s : Stores ρ} {req : WriteRequest ρ} {times : WriteTimes}
  {input : NormalizedInput}

lemma write_of_error {err : PyError} (hinput : normalizeWriteInput env req = .error err) :
    write env s req times = (s, .error err) := by
  unfold write
  rw [hinput]

lemma write_of_stopped (hinput : normalizeWriteInput env req = .ok input)
    (h : StoppedByGate env input) : ∃ resp, write env s req times = (s, .ok resp) ∧
      resp.status = "rejected" ∧ resp.persisted = false ∧ resp.key = input.key := by
  unfold write
  rw [hinput]
  dsimp only
  by_cases hturn : env.isConversationalTurn input.key (input.metadata.get? "predicate")
      input.value = true
  · rw [if_pos hturn]
    exact ⟨_, rfl, rfl, rfl, rfl⟩
  · rw [if_neg hturn]
    have hground := h.resolve_left hturn
    unfold assertedMetadata at hground
    rw [if_pos (by rw [hground]; rfl)]
    exact ⟨_, rfl, rfl, rfl, rfl⟩

lemma write_of_replay (hinput : normalizeWriteInput env req = .ok input)
    (hgate : ¬StoppedByGate env input) (hreplay : TakenForReplay env s req input) :
    write env s req times =
      ({ s with kv := s.kv.call env.rt (.setSync (touchedArgs input) times.persisted) },
        .ok (replayResponse input)) := by
  unfold StoppedByGate assertedMetadata at hgate
  rw [not_or, Bool.not_eq_true, Bool.not_eq_false] at hgate
  unfold TakenForReplay at hreplay
  unfold write
  rw [hinput]
  dsimp only
  rw [if_neg (by rw [hgate.1]; decide), if_neg (by rw [hgate.2]; decide), if_pos hreplay]
  rfl

/-- A write that passes the gates and is no replay is arbitrated. -/
lemma write_eq_arbitrated (hinput : normalizeWriteInput env req = .ok input)
    (hgate : ¬StoppedByGate env input) (hreplay : ¬TakenForReplay env s req input) :
    write env s req times = writeArbitrated env s req (incomingOf env req input).key
      (incomingOf env req input).val (incomingOf env req input).metadata
      (incomingOf env req input).confidence times := by
  unfold StoppedByGate assertedMetadata at hgate
  rw [not_or, Bool.not_eq_true, Bool.not_eq_false] at hgate
  unfold TakenForReplay at hreplay
  unfold write
  rw [hinput]
  dsimp only
  rw [if_neg (by rw [hgate.1]; decide), if_neg (by rw [hgate.2]; decide), if_neg hreplay]
  rfl

/-- The stages before the arbitration leave the other items of the metadata as they are. -/
lemma get?_incomingOf {name : String}
    (h : name ∉ ["speech_act", "source_type", "confidence", "session_id"]) :
    (incomingOf env req input).metadata.get? name = input.metadata.get? name := by
  simp only [List.mem_cons, List.not_mem_nil, or_false, not_or] at h
  obtain ⟨hact, hsource, hconfidence, hsession⟩ := h
  have hasserted : (assertedMetadata input.metadata).get? name = input.metadata.get? name := by
    unfold assertedMetadata
    split_ifs
    · rfl
    · exact PyDict.get?_set_of_ne _ _ (Ne.symm hact)
  rw [← hasserted]
  show (stampedMetadata env req (assertedMetadata input.metadata) _).get? name = _
  unfold stampedMetadata
  dsimp only
  have hstep : ∀ d : PyDict String Json, ∀ k v, name ≠ k → (d.set k v).get? name = d.get? name :=
    fun d k v hk => PyDict.get?_set_of_ne d v (Ne.symm hk)
  split
  · rw [hstep _ _ _ hsession, hstep _ _ _ hconfidence]
    split
    · exact hstep _ _ _ hsource
    · split_ifs
      · rfl
      · exact hstep _ _ _ hsource
  · rw [hstep _ _ _ hconfidence]
    split
    · exact hstep _ _ _ hsource
    · split_ifs
      · rfl
      · exact hstep _ _ _ hsource

end Stages

/-! ## The sequence -/

variable (env : WriteEnv ρ)


/-- The rewrite that marks a record as superseded. -/
def markCalls (items : PyDict String MemoryItem) (oldKey key : String) (now : ℚ) : List KvCall :=
  match items.get? oldKey with
  | some old => [.setSync (supersedeArgs env oldKey key old now) now]
  | none => []

/-- The rewrite that notes the points that are left. -/
def tombstoneCalls (kv : VerifiedKVStore) (oldKey : String) (now : ℚ) : List KvCall :=
  match kv.db.stateVariables.lookup oldKey with
  | some (stored, row) => [.setSync (tombstoneArgs oldKey (row.toMemoryItem env.rt stored)) now]
  | none => []

/-- The points of the superseded key are purged, if there is anything to purge. -/
def purges (s : Stores ρ) (oldKey key : String) : Bool :=
  if oldKey ≠ key then (purgePoints env s.vectors (keysToPurge oldKey)).2 else true

def revisionCalls (s : Stores ρ) (items : PyDict String MemoryItem) (key : String) (now : ℚ) :
    Option String → List KvCall
  | none => []
  | some oldKey =>
    let marks := markCalls env items oldKey key now
    if purges env s oldKey key then marks
    else marks ++ tombstoneCalls env (s.kv.run env.rt marks) oldKey now

def restoreCalls (backup : Option (String × MemoryItem)) (p : String → Bool) (reason : String)
    (now : ℚ) : List KvCall :=
  match backup with
  | some (k, m) => if p k then [.setSync (restoreArgs k m reason) now] else []
  | none => []

def finishCalls (s : Stores ρ) (a : Accepted) (times : WriteTimes) : List KvCall :=
  match (a.metadata.get? "source_type").getD (.str "user_explicit") with
  | .str _ =>
    match (autoInsertGraphEdges env s.graph a.key a.value a.metadata a.confidence).2.2 with
    | .error _ =>
      .rollbackSavepoint sagaTx ::
        restoreCalls a.backupOldItem (fun k => decide (k ≠ a.key)) "rollback_restore" times.restored
    | .ok _ => [.releaseSavepoint sagaTx]
  | _ => []

def endingCalls (s : Stores ρ) (a : Accepted) (record : Option ρ) (times : WriteTimes) :
    List KvCall :=
  match record with
  | none => finishCalls env s a times
  | some r =>
    match env.vectorFault (vectorPoint env a r) with
    | some _ =>
      .rollbackSavepoint sagaTx :: restoreCalls a.backupOldItem
        (fun _ => s.kv.hasSavepoint sagaTx) "rollback_vector_failure" times.restored
    | none => finishCalls env s a times

/-- The store with the savepoint and the persisted write. -/
def savedKv (kv : VerifiedKVStore) (a : Accepted) (times : WriteTimes) : VerifiedKVStore :=
  kv.run env.rt [.savepoint sagaTx, .setSync (persistArgs a) times.persisted]

def persistCalls (s : Stores ρ) (a : Accepted) (record : Option ρ) (times : WriteTimes) :
    List KvCall :=
  .savepoint sagaTx :: .setSync (persistArgs a) times.persisted ::
    endingCalls env { s with kv := savedKv env s.kv a times } a record times

/-- The key that a write with this arbitration result supersedes, if it is a revision. -/
def revisedKey (w : ConflictArbiter.Incoming) (r : ArbitrationResult) : Option String :=
  if r.isBeliefRevision then some (supersededKey env w.key (warnedMetadata r w.metadata) r) else none

/-- The stores after the belief revision and the revision tracking, with what is to be persisted. -/
def revisedBy (s : Stores ρ) (req : WriteRequest ρ) (w : ConflictArbiter.Incoming)
    (items : PyDict String MemoryItem) (r : ArbitrationResult) (times : WriteTimes) :
    Stores ρ × Option Accepted :=
  revise env s w.key w.val w.confidence (warnedMetadata r w.metadata) req.reason items r
    times.revised

/-- The calls of a write that is arbitrated. -/
def arbitratedCalls (s : Stores ρ) (req : WriteRequest ρ) (w : ConflictArbiter.Incoming)
    (times : WriteTimes) : List KvCall :=
  let items := existingItems env s w.key w.val w.metadata req.sessionId times.scanned
  match env.arbiter.arbitrate env.rt env.lex w (arbiterItems items) with
  | .error _ => []
  | .ok r =>
    if rejects r then []
    else
      let revised := revisedBy env s req w items r times
      revisionCalls env s items w.key times.revised (revisedKey env w r) ++
        match revised.2 with
        | none => []
        | some a => persistCalls env revised.1 a req.vectorRecord times

def writeCalls (s : Stores ρ) (req : WriteRequest ρ) (times : WriteTimes) : List KvCall :=
  match normalizeWriteInput env req with
  | .error _ => []
  | .ok input =>
    if StoppedByGate env input then []
    else if TakenForReplay env s req input then [.setSync (touchedArgs input) times.persisted]
    else arbitratedCalls env s req (incomingOf env req input) times

variable {env} {s : Stores ρ} {times : WriteTimes}

/-! ## The store after the calls -/

lemma run_append {rt : Runtime} (kv : VerifiedKVStore) (cs ds : List KvCall) :
    kv.run rt (cs ++ ds) = (kv.run rt cs).run rt ds :=
  List.foldl_append

lemma markSuperseded_eq_run (kv : VerifiedKVStore) (items : PyDict String MemoryItem)
    (oldKey key : String) (now : ℚ) :
    markSuperseded env kv items oldKey key now =
      kv.run env.rt (markCalls env items oldKey key now) := by
  unfold markSuperseded markCalls
  cases items.get? oldKey <;> rfl

lemma noteTombstone_eq_run (kv : VerifiedKVStore) (oldKey : String) (now : ℚ) :
    noteTombstone env kv oldKey now = kv.run env.rt (tombstoneCalls env kv oldKey now) := by
  unfold noteTombstone tombstoneCalls
  cases kv.db.stateVariables.lookup oldKey <;> rfl

lemma reviseBelief_snd (items : PyDict String MemoryItem) (oldKey key : String)
    (confidence now : ℚ) :
    (reviseBelief env s items oldKey key confidence now).2 = purges env s oldKey key := by
  unfold reviseBelief purges
  split_ifs <;> rfl

lemma kv_reviseBelief (items : PyDict String MemoryItem) (oldKey key : String)
    (confidence now : ℚ) :
    (reviseBelief env s items oldKey key confidence now).1.kv =
      s.kv.run env.rt (revisionCalls env s items key now (some oldKey)) := by
  have hpurged := @reviseBelief_snd _ env s items oldKey key confidence now
  unfold revisionCalls
  dsimp only
  rw [← hpurged]
  unfold reviseBelief
  dsimp only
  rw [markSuperseded_eq_run, noteTombstone_eq_run]
  split_ifs
  · rfl
  · exact (run_append _ _ _).symm
  · rfl
  · exact (run_append _ _ _).symm

lemma kv_compensateGraph (before : Stores ρ) (a : Accepted) (tracked : List Edge) (now : ℚ) :
    (compensateGraph env before s a tracked now).kv = s.kv.run env.rt
      (.rollbackSavepoint sagaTx ::
        restoreCalls a.backupOldItem (fun k => decide (k ≠ a.key)) "rollback_restore" now) := by
  unfold compensateGraph restoreCalls
  cases a.backupOldItem with
  | none => rfl
  | some e =>
      dsimp only
      by_cases hne : e.1 ≠ a.key
      · rw [if_pos hne, if_pos (decide_eq_true hne)]
        rfl
      · rw [if_neg hne, if_neg (by rw [decide_eq_false hne]; decide)]
        rfl

lemma kv_finish (before : Stores ρ) (a : Accepted) :
    (finish env before s a times).1.kv = s.kv.run env.rt (finishCalls env s a times) := by
  unfold finish finishCalls
  cases (a.metadata.get? "source_type").getD (.str "user_explicit") with
  | str sourceType =>
      dsimp only
      cases (autoInsertGraphEdges env s.graph a.key a.value a.metadata a.confidence).2.2 with
      | error err => exact kv_compensateGraph before a _ times.restored
      | ok n => rfl
  | _ => rfl

lemma kv_compensateVector (before : Stores ρ) (a : Accepted) (now : ℚ) :
    (compensateVector env before s a now).kv = s.kv.run env.rt
      (.rollbackSavepoint sagaTx :: restoreCalls a.backupOldItem
        (fun _ => s.kv.hasSavepoint sagaTx) "rollback_vector_failure" now) := by
  unfold compensateVector restoreCalls
  cases a.backupOldItem with
  | none => rfl
  | some e =>
      dsimp only
      split_ifs
      · rfl
      · rfl

lemma kv_persist (before : Stores ρ) (a : Accepted) (record : Option ρ) :
    (persist env before s a record times).1.kv =
      s.kv.run env.rt (persistCalls env s a record times) := by
  have hsaved : ∀ cs, s.kv.run env.rt (.savepoint sagaTx ::
      .setSync (persistArgs a) times.persisted :: cs) =
        (savedKv env s.kv a times).run env.rt cs := fun cs => rfl
  unfold persistCalls
  rw [hsaved]
  unfold persist endingCalls
  cases record with
  | none => exact kv_finish before a
  | some r =>
      dsimp only
      cases env.vectorFault (vectorPoint env a r) with
      | none => exact kv_finish before a
      | some err => exact kv_compensateVector before a times.restored

/-- What is persisted, as far as the stages from the belief revision on determine it. -/
lemma kv_revise (key : String) (value : Json) (confidence : ℚ) (metadata : PyDict String Json)
    (reason : String) (items : PyDict String MemoryItem) (r : ArbitrationResult) (now : ℚ) :
    (revise env s key value confidence metadata reason items r now).1.kv =
      s.kv.run env.rt (revisionCalls env s items key now
        (if r.isBeliefRevision then some (supersededKey env key metadata r) else none)) := by
  unfold revise
  dsimp only
  by_cases hrev : r.isBeliefRevision = true
  · rw [if_pos hrev]
    dsimp only
    have hkv := @kv_reviseBelief _ env s items (supersededKey env key metadata r) key confidence now
    cases valueRevised env items key value with
    | none => exact hkv
    | some prior =>
        dsimp only
        cases trackedMetadata env prior _ with
        | none => exact hkv
        | some tracked => exact hkv
  · rw [if_neg hrev]
    dsimp only
    cases valueRevised env items key value with
    | none => rfl
    | some prior =>
        dsimp only
        cases trackedMetadata env prior _ with
        | none => rfl
        | some tracked => rfl

variable {req : WriteRequest ρ}

lemma kv_writeArbitrated (w : ConflictArbiter.Incoming) :
    (writeArbitrated env s req w.key w.val w.metadata w.confidence times).1.kv =
      s.kv.run env.rt (arbitratedCalls env s req w times) := by
  unfold writeArbitrated arbitratedCalls
  dsimp only
  cases env.arbiter.arbitrate env.rt env.lex w (arbiterItems
      (existingItems env s w.key w.val w.metadata req.sessionId times.scanned)) with
  | error err => rfl
  | ok r =>
      dsimp only
      by_cases hrejects : rejects r = true
      · rw [if_pos hrejects, if_pos hrejects]
        rfl
      rw [if_neg hrejects, if_neg hrejects, run_append]
      have hkv := @kv_revise _ env s w.key w.val w.confidence (warnedMetadata r w.metadata)
        req.reason (existingItems env s w.key w.val w.metadata req.sessionId times.scanned) r
        times.revised
      rw [revisedKey, ← hkv]
      unfold revisedBy
      generalize revise env s w.key w.val w.confidence (warnedMetadata r w.metadata) req.reason
        (existingItems env s w.key w.val w.metadata req.sessionId times.scanned) r times.revised =
        revised
      obtain ⟨s', a⟩ := revised
      cases a with
      | none => rfl
      | some a => exact kv_persist s a req.vectorRecord

/-- **The store after a write** is the store after its calls. -/
theorem kv_write : (write env s req times).1.kv = s.kv.run env.rt (writeCalls env s req times) := by
  unfold writeCalls
  cases hinput : normalizeWriteInput env req with
  | error err =>
      rw [write_of_error hinput]
      rfl
  | ok input =>
      dsimp only
      by_cases hgate : StoppedByGate env input
      · obtain ⟨resp, hwrite, -⟩ := @write_of_stopped _ env s req times input hinput hgate
        rw [if_pos hgate, hwrite]
        rfl
      by_cases hreplay : TakenForReplay env s req input
      · rw [if_neg hgate, if_pos hreplay, write_of_replay hinput hgate hreplay]
        rfl
      · rw [if_neg hgate, if_neg hreplay, write_eq_arbitrated hinput hgate hreplay]
        exact kv_writeArbitrated (incomingOf env req input)

/-! ## Writes that go through -/

lemma finishCalls_of_ok {before : Stores ρ} {a : Accepted} {resp : WriteResponse}
    (h : (finish env before s a times).2 = .ok resp) :
    finishCalls env s a times = [.releaseSavepoint sagaTx] := by
  unfold finish at h
  unfold finishCalls
  cases hsource : (a.metadata.get? "source_type").getD (.str "user_explicit") with
  | str sourceType =>
      rw [hsource] at h
      dsimp only at h ⊢
      cases hins : (autoInsertGraphEdges env s.graph a.key a.value a.metadata a.confidence).2.2 with
      | error err =>
          rw [hins] at h
          cases h
      | ok n => rfl
  | _ =>
      rw [hsource] at h
      cases h

/-- A write that goes through sets its savepoint, writes its record and releases the savepoint. -/
lemma persistCalls_of_ok {before : Stores ρ} {a : Accepted} {record : Option ρ}
    {resp : WriteResponse} (h : (persist env before s a record times).2 = .ok resp) :
    persistCalls env s a record times = [.savepoint sagaTx,
      .setSync (persistArgs a) times.persisted, .releaseSavepoint sagaTx] := by
  unfold persist at h
  unfold persistCalls endingCalls
  cases record with
  | none =>
      have hfinish := finishCalls_of_ok h
      exact congrArg (fun cs => .savepoint sagaTx :: .setSync (persistArgs a) times.persisted :: cs)
        hfinish
  | some r =>
      dsimp only at h ⊢
      cases hfault : env.vectorFault (vectorPoint env a r) with
      | some err =>
          rw [hfault] at h
          cases h
      | none =>
          rw [hfault] at h
          have hfinish := finishCalls_of_ok h
          exact congrArg (fun cs => .savepoint sagaTx ::
            .setSync (persistArgs a) times.persisted :: cs) hfinish

lemma accepted_of_revise {key : String} {value : Json} {confidence : ℚ}
    {metadata : PyDict String Json} {reason : String} {items : PyDict String MemoryItem}
    {r : ArbitrationResult} {now : ℚ} {a : Accepted}
    (h : (revise env s key value confidence metadata reason items r now).2 = some a) :
    a.key = key ∧ a.value = value ∧ ∀ name ∉ ["is_belief_revision", "superseded_key",
      "vector_tombstone_pending", "prior_value", "revision_count"],
        a.metadata.get? name = metadata.get? name := by
  have hset : ∀ {d : PyDict String Json} {k name : String} {v : Json}, name ≠ k →
      (d.set k v).get? name = d.get? name := fun hne => PyDict.get?_set_of_ne _ _ (Ne.symm hne)
  have hrevised : ∀ (k : String) (purged : Bool) (name : String), name ∉ ["is_belief_revision",
      "superseded_key", "vector_tombstone_pending", "prior_value", "revision_count"] →
      (revisionMetadata k purged metadata).get? name = metadata.get? name := by
    intro k purged name hname
    simp only [List.mem_cons, List.not_mem_nil, or_false, not_or] at hname
    unfold revisionMetadata
    dsimp only
    split_ifs
    · rw [hset hname.2.1, hset hname.1]
    · rw [hset hname.2.2.1, hset hname.2.1, hset hname.1]
  have htracked : ∀ {prior : MemoryItem} {d d' : PyDict String Json} (name : String),
      name ∉ ["is_belief_revision", "superseded_key", "vector_tombstone_pending", "prior_value",
        "revision_count"] → trackedMetadata env prior d = some d' → d'.get? name = d.get? name := by
    intro prior d d' name hname hd
    simp only [List.mem_cons, List.not_mem_nil, or_false, not_or] at hname
    obtain ⟨n, -, rfl⟩ := Option.map_eq_some_iff.mp hd
    rw [hset hname.2.2.2.2, hset hname.2.2.2.1]
  unfold revise at h
  dsimp only at h
  by_cases hrev : r.isBeliefRevision = true
  · rw [if_pos hrev] at h
    cases hprior : valueRevised env items key value with
    | none =>
        rw [hprior] at h
        rw [← Option.some.inj h]
        exact ⟨rfl, rfl, fun name hname => hrevised _ _ name hname⟩
    | some prior =>
        rw [hprior] at h
        dsimp only at h
        split at h
        · cases h
        · rename_i d' hd'
          rw [← Option.some.inj h]
          exact ⟨rfl, rfl, fun name hname =>
            (htracked name hname hd').trans (hrevised _ _ name hname)⟩
  · rw [if_neg hrev] at h
    cases hprior : valueRevised env items key value with
    | none =>
        rw [hprior] at h
        rw [← Option.some.inj h]
        exact ⟨rfl, rfl, fun _ _ => rfl⟩
    | some prior =>
        rw [hprior] at h
        dsimp only at h
        split at h
        · cases h
        · rename_i d' hd'
          rw [← Option.some.inj h]
          exact ⟨rfl, rfl, fun name hname => htracked name hname hd'⟩

lemma get?_warnedMetadata {r : ArbitrationResult} {metadata : PyDict String Json} {name : String}
    (h : name ∉ ["conflict_warning", "conflict_details"]) :
    (warnedMetadata r metadata).get? name = metadata.get? name := by
  simp only [List.mem_cons, List.not_mem_nil, or_false, not_or] at h
  unfold warnedMetadata
  split_ifs
  · dsimp only
    split
    · rw [PyDict.get?_set_of_ne _ _ (Ne.symm h.2), PyDict.get?_set_of_ne _ _ (Ne.symm h.1)]
    · rw [PyDict.get?_set_of_ne _ _ (Ne.symm h.1)]
  · rfl

/-- The row of a key after a call of `set_sync`. -/
lemma get?_setSync {rt : Runtime} (db : Db) (b : SetArgs) (now : ℚ) (key : String) :
    (db.setSync rt b now).1.stateVariables.get? key =
      if b.key = key then some ⟨b.value.dumps, PyFloat.clampUnit b.confidence, .finite now,
        some (Json.obj (b.storedMetadata rt now).entries).dumps, some (rt.hexdigest b.value.dumps)⟩
      else db.stateVariables.get? key := by
  rw [Db.stateVariables_setSync]
  exact PyDict.get?_set _ _ _ _

/-! ## A rollback -/

section Rollback

variable {rt : Runtime}

/-- The name of the savepoint, as the connection matches it. -/
lemma lower_sagaTx : SqlText.lower sagaTx = sagaTx := by decide

/-- The savepoint opens a snapshot of the current tables. -/
lemma saved_savepoint (kv : VerifiedKVStore) :
    (kv.call rt (.savepoint sagaTx)).tables.saved = (sagaTx, kv.db) :: kv.tables.saved := by
  show (kv.tables.push (SqlText.lower sagaTx)).saved = _
  rw [lower_sagaTx]
  rfl

lemma saved_run_setSync {kv : VerifiedKVStore} {calls : List KvCall}
    (h : ∀ c ∈ calls, ∃ b t, c = .setSync b t) :
    (kv.run rt calls).tables.saved = kv.tables.saved := by
  induction calls generalizing kv with
  | nil => rfl
  | cons c cs ih =>
      obtain ⟨b, t, rfl⟩ := h c List.mem_cons_self
      rw [VerifiedKVStore.run_cons]
      exact ih fun c' hc' => h c' (List.mem_cons_of_mem _ hc')

lemma db_rollback {kv : VerifiedKVStore} {db : Db} {rest : List (String × Db)}
    (h : kv.tables.saved = (sagaTx, db) :: rest) :
    (kv.call rt (.rollbackSavepoint sagaTx)).db = db := by
  have hroll : (kv.tables.rollbackTo (SqlText.lower sagaTx)).bind
      (SavepointStack.release · (SqlText.lower sagaTx)) = some ⟨db, rest⟩ := by
    rw [lower_sagaTx]
    simp [SavepointStack.rollbackTo, SavepointStack.release, SavepointStack.innermost, h]
  show (kv.rollbackSavepoint sagaTx).db = db
  unfold VerifiedKVStore.rollbackSavepoint
  rw [hroll]
  dsimp only
  split
  · rfl
  · rfl

end Rollback

end WritePath

end AtlasMemory
