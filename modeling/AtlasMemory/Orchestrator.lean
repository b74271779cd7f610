import AtlasMemory.Cognitive.RowOrigins
import AtlasMemory.Core.Models

/-!
# Shadow reconciliation

The model of `MemoryOrchestrator.shadow_reconcile` and of `HybridMemoryEngine.commit_observation`
over the stores of the engine's write path.  The inferences of a turn come from an extractor as
dictionaries.  An inference that claims a state variable is arbitrated, against no records, and its
verdict decides whether it goes on as a state variable, as a plain fact, or not at all.  The arbiter
is any function that gives a verdict or raises; the one in use is `defaultArbiter`.  What the commit
does beyond the write path, and the client for triples, is left out.
-/

namespace AtlasMemory

/-- What `shadow_reconcile` reads of the result of an arbitration. -/
structure Verdict where
  action : String
  isConflict : Bool

namespace Verdict

def actionText : ArbitrationAction → String
  | .accept => "accept"
  | .warnConflict => "warn_conflict"
  | .supersede => "supersede"

/-- The result of the arbiter as a verdict. -/
def ofResult (r : ArbitrationResult) : Verdict := ⟨actionText r.action, r.isConflict⟩

def blocks (v : Verdict) : Bool := decide (v.action ∈ ["reject", "reject_conflict", "block"])

/-- `is_promoted`. -/
def promotes (v : Verdict) : Bool :=
  !v.isConflict && decide (v.action ∈ shadowPromotionActions ++ ["accept", "supersede"])

end Verdict

/-- An orchestrator with its engine. -/
structure MemoryOrchestrator where
  env : WriteEnv ObservationRecord
  /-- `canonicalizer.canonicalize`. -/
  canonicalize : String → String
  /-- `arbitrate` of a key, a value, a confidence and metadata, over no records. -/
  arbitrate : String → String → PyFloat → PyDict String Json → Except PyError Verdict

/-- The inference as the arbiter of an orchestrator that is given none gets it. -/
def shadowIncoming (key value : String) (confidence : PyFloat) (metadata : PyDict String Json) :
    ConflictArbiter.Incoming :=
  ⟨key, .str value, PyFloat.clampUnit (some confidence), metadata⟩

/-- The arbiter of an orchestrator that is given none. -/
def defaultArbiter (rt : Runtime) (lex : Lexicon) (key value : String) (confidence : PyFloat)
    (metadata : PyDict String Json) : Except PyError Verdict :=
  (ConflictArbiter.arbitrate rt lex {} (shadowIncoming key value confidence metadata) ∅).map
    Verdict.ofResult

namespace HybridMemoryEngine

/-- The record as `commit_observation` writes it. -/
def prepared (canonicalize : String → String) (r : ObservationRecord) : ObservationRecord :=
  let named := match r.canonicalEntityId with
    | some c => if c = "" then { r with canonicalEntityId := some (canonicalize r.subject) } else r
    | none => { r with canonicalEntityId := some (canonicalize r.subject) }
  if named.isStateVariable && !named.stateVariableAuthority then named.demoted else named

def observationMetadata (rt : Runtime) (r : ObservationRecord) : PyDict String Json :=
  ((((r.metadata.setDefault "confidence" (rt.jsonFloat r.confidence)).setDefault "source_type"
    (.str r.sourceType.value)).setDefault "predicate" (.str r.predicate)).setDefault "subject"
      (.str r.effectiveSubject)).setDefault "is_state_variable" (.bool r.isStateVariable)

/-- The write of a record: a state variable under its subject, a plain fact under its triple. -/
def observationRequest (rt : Runtime) (r : ObservationRecord) : WriteRequest ObservationRecord where
  key := .str (if r.isStateVariable then r.effectiveSubject else r.tripleKey)
  value := .str r.object
  confidence := r.confidence
  metadata := some (observationMetadata rt r)
  sourceType := some r.sourceType.value
  reason := "commit_observation"
  vectorRecord := some r

/-- `commit_observation`: an exception of the write is swallowed. -/
def commitObservation (env : WriteEnv ObservationRecord) (canonicalize : String → String)
    (s : Stores ObservationRecord) (r : ObservationRecord) (times : WriteTimes) :
    Stores ObservationRecord × ObservationRecord :=
  let r := prepared canonicalize r
  ((WritePath.write env s (observationRequest env.rt r) times).1, r)

end HybridMemoryEngine

namespace MemoryOrchestrator

variable (orch : MemoryOrchestrator)

/-- `it.get(name, "").strip()`; only a text can be stripped. -/
def stripped (it : PyDict String Json) (name : String) : Except PyError String :=
  match (it.get? name).getD (.str "") with
  | .str t => .ok (PyString.strip t)
  | _ => .error ⟨.attributeError, "object has no attribute 'strip'"⟩

/-- The provenance of an inference: no extractor speaks for the user. -/
def provenance (it : PyDict String Json) : Except PyError EpistemicSource :=
  match (it.get? "source_type").getD (.str EpistemicSource.shadowInference.value) with
  | .str v =>
    .ok (match EpistemicSource.ofValue? v with
      | some .userExplicit | none => .shadowInference
      | some source => source)
  | .arr _ | .obj _ => .error ⟨.typeError, "unhashable type"⟩
  | _ => .ok .shadowInference

/-- `float(it.get("confidence", 1.0))`; `none` when it raises. -/
def confidenceOf (it : PyDict String Json) : Option PyFloat :=
  match it.get? "confidence" with
  | some v => orch.env.rt.floatOfJson v
  | none => some (.finite 1)

/-- The record of an inference, with the subject as it was given; `none` when a field is empty or
the inference is a turn of the conversation. -/
def recordOf (session : String) (it : PyDict String Json) :
    Except PyError (Option (String × ObservationRecord)) :=
  (stripped it "subject").bind fun subject =>
  (stripped it "predicate").bind fun predicate =>
  let object := PyString.strip (((it.get? "object").map orch.env.rt.pyStr).getD "")
  if subject = "" ∨ predicate = "" ∨ object = "" then .ok none
  else (provenance it).bind fun source =>
    if orch.env.isConversationalTurn subject (some (.str predicate)) (.str object) then .ok none
    else
      match orch.confidenceOf it with
      | none => .error ⟨.valueError, "could not convert to float"⟩
      | some confidence =>
        if h : confidence.lt (.finite 0) = false ∧ (PyFloat.finite 1).lt confidence = false then
          .ok (some (subject,
            { subject := sanitizeEpistemicText subject
              canonicalEntityId := some (orch.canonicalize subject)
              predicate := sanitizeEpistemicText predicate
              object := sanitizeEpistemicText object
              confidence := confidence
              sourceType := source
              isStateVariable :=
                ((it.get? "is_state_variable").map orch.env.rt.truthy).getD false
              metadata := ∅
              sourceSessionId := session
              confidence_nonneg := h.1
              confidence_le_one := h.2 }))
        else .error ⟨.valueError, "1 validation error for MemoryRecord"⟩

def verdictOn (subject : String) (r : ObservationRecord) : Except PyError Verdict :=
  let key := match r.canonicalEntityId with
    | some c => if c = "" then subject else c
    | none => subject
  orch.arbitrate key r.object r.confidence
    (PyDict.ofEntries [("origin", .str "shadow_reconcile"),
      ("source_type", .str r.sourceType.value)])

/-- The record after its arbitration; `none` when it is dropped. -/
def admitted (subject : String) (r : ObservationRecord) : Option ObservationRecord :=
  if r.isStateVariable then
    match orch.verdictOn subject r with
    | .error _ => none
    | .ok v =>
      if v.blocks then none
      else
        let noted := r.metadata.set "shadow_arbitration" (.str v.action)
        if v.promotes then
          some { r with
            metadata := noted.set "shadow_promotion" (.str shadowPromotionArbitrated) }
        else
          some { r with
            metadata := noted.set "shadow_promotion" (.str shadowPromotionPending)
            isStateVariable := false }
  else some r

/-- One round of `shadow_reconcile`: the stores, and the record if one is committed. -/
def reconcileItem (session : String) (s : Stores ObservationRecord) (it : PyDict String Json)
    (times : WriteTimes) :
    Stores ObservationRecord × Except PyError (Option ObservationRecord) :=
  match orch.recordOf session it with
  | .error err => (s, .error err)
  | .ok none => (s, .ok none)
  | .ok (some (subject, r)) =>
    match orch.admitted subject r with
    | none => (s, .ok none)
    | some r =>
      let done := HybridMemoryEngine.commitObservation orch.env orch.canonicalize s r times
      (done.1, .ok (some done.2))

/-- `shadow_reconcile` over the inferences of a turn, up to the first exception. -/
def shadowReconcile (session : String) (s : Stores ObservationRecord) :
    List (PyDict String Json) → (ℕ → WriteTimes) →
      Stores ObservationRecord × Except PyError (List ObservationRecord)
  | [], _ => (s, .ok [])
  | it :: its, times =>
    match orch.reconcileItem session s it (times 0) with
    | (s, .error err) => (s, .error err)
    | (s, .ok r) =>
      let rest := shadowReconcile session s its fun i => times (i + 1)
      (rest.1, rest.2.map fun rs => r.toList ++ rs)

/-! ## What becomes of an inference -/

variable {orch} {session : String} {it : PyDict String Json}

/-- The arbitration clears an inference that claims a state variable. -/
def Promoted (orch : MemoryOrchestrator) (session : String) (it : PyDict String Json) : Prop :=
  ∃ subject r v, orch.recordOf session it = .ok (some (subject, r)) ∧ r.isStateVariable = true ∧
    orch.verdictOn subject r = .ok v ∧ v.promotes = true

/-- A plain fact: the object of the record under its triple, with the note that it is no state
variable. -/
structure PlainFact (rt : Runtime) (r : ObservationRecord) (a : SetArgs) : Prop where
  key : a.key = PyString.strip (rt.pyStr (.str r.tripleKey))
  value : a.value = .str r.object
  flag : ∃ metadata, a.metadata = some metadata ∧
    metadata.get? "is_state_variable" = some (.bool false)

lemma recordOf_fields {subject : String} {r : ObservationRecord}
    (h : orch.recordOf session it = .ok (some (subject, r))) :
    r.metadata = ∅ ∧ provenance it = .ok r.sourceType := by
  unfold recordOf at h
  obtain ⟨s, -, h⟩ := exists_of_bind_eq_ok h
  obtain ⟨p, -, h⟩ := exists_of_bind_eq_ok h
  dsimp only at h
  split at h
  · exact absurd h (by simp)
  · obtain ⟨source, hsource, h⟩ := exists_of_bind_eq_ok h
    split at h
    · exact absurd h (by simp)
    · split at h
      · exact absurd h (by simp)
      · split at h
        · obtain ⟨-, rfl⟩ := Prod.mk.inj (Option.some.inj (Except.ok.inj h))
          exact ⟨rfl, hsource⟩
        · exact absurd h (by simp)

/-- An inference that is not cleared goes on as a plain fact, if at all. -/
lemma admitted_plain {subject : String} {r r' : ObservationRecord}
    (hpromoted : ¬Promoted orch session it)
    (hrecord : orch.recordOf session it = .ok (some (subject, r)))
    (h : orch.admitted subject r = some r') :
    r'.isStateVariable = false ∧ r'.sourceType = r.sourceType ∧
      r'.metadata.get? "is_state_variable" = none := by
  have hmetadata := (recordOf_fields hrecord).1
  unfold admitted at h
  split_ifs at h with hstate
  · split at h
    · exact absurd h (by simp)
    · next v hv =>
      split_ifs at h with hblocks hpromotes
      · exact absurd ⟨subject, r, v, hrecord, hstate, hv, hpromotes⟩ hpromoted
      · obtain rfl := Option.some.inj h
        refine ⟨rfl, rfl, ?_⟩
        dsimp only
        rw [PyDict.get?_set_of_ne _ _ (by decide), PyDict.get?_set_of_ne _ _ (by decide), hmetadata]
        rfl
  · obtain rfl := Option.some.inj h
    refine ⟨Bool.not_eq_true _ ▸ hstate, rfl, ?_⟩
    rw [hmetadata]
    rfl

/-- The commit of a plain fact names its entity, and leaves it a plain fact. -/
lemma prepared_plain (canonicalize : String → String) {r : ObservationRecord}
    (h : r.isStateVariable = false) :
    (HybridMemoryEngine.prepared canonicalize r).isStateVariable = false ∧
      (HybridMemoryEngine.prepared canonicalize r).sourceType = r.sourceType ∧
        (HybridMemoryEngine.prepared canonicalize r).metadata = r.metadata := by
  unfold HybridMemoryEngine.prepared
  rcases r.canonicalEntityId with _ | c
  · simp [h]
  · by_cases hc : c = ""
    · simp [h, hc]
    · simp [h, hc]

lemma reconcileItem_of_admitted {s : Stores ObservationRecord} {times : WriteTimes}
    {subject : String} {r r' : ObservationRecord}
    (hrecord : orch.recordOf session it = .ok (some (subject, r)))
    (hadmitted : orch.admitted subject r = some r') :
    orch.reconcileItem session s it times =
      ((WritePath.write orch.env s (HybridMemoryEngine.observationRequest orch.env.rt
        (HybridMemoryEngine.prepared orch.canonicalize r')) times).1,
        .ok (some (HybridMemoryEngine.prepared orch.canonicalize r'))) := by
  simp only [reconcileItem, hrecord, hadmitted, HybridMemoryEngine.commitObservation]

lemma plainFact_of_ownRecord {env : WriteEnv ObservationRecord} {r : ObservationRecord}
    (hstate : r.isStateVariable = false) (hflag : r.metadata.get? "is_state_variable" = none)
    {input : NormalizedInput} {a : SetArgs} (hinput : WritePath.normalizeWriteInput env
      (HybridMemoryEngine.observationRequest env.rt r) = .ok input)
    (h : WritePath.OwnRecord input a) : PlainFact env.rt r a := by
  obtain ⟨hkey, hvalue, metadata, hmetadata, hitems⟩ := h
  have hrequest : (HybridMemoryEngine.observationRequest env.rt r).key = .str r.tripleKey := by
    simp [HybridMemoryEngine.observationRequest, hstate]
  have htruthy : env.rt.truthy (.str r.tripleKey) = true := by
    have hne : r.tripleKey ≠ "" := by
      intro hempty
      have hlist := congrArg String.toList hempty
      simp [ObservationRecord.tripleKey] at hlist
    simp [Runtime.truthy, hne]
  unfold WritePath.normalizeWriteInput at hinput
  rw [hrequest] at hinput
  dsimp only at hinput
  rw [if_pos htruthy] at hinput
  split_ifs at hinput
  obtain rfl := Except.ok.inj hinput
  refine ⟨hkey, hvalue, metadata, hmetadata, ?_⟩
  rw [hitems _ (by decide)]
  show (HybridMemoryEngine.observationMetadata env.rt r).get? "is_state_variable" = _
  unfold HybridMemoryEngine.observationMetadata
  rw [PyDict.get?_setDefault_of_none, hstate]
  rw [PyDict.get?_setDefault_of_ne _ _ (by decide), PyDict.get?_setDefault_of_ne _ _ (by decide),
    PyDict.get?_setDefault_of_ne _ _ (by decide), PyDict.get?_setDefault_of_ne _ _ (by decide)]
  exact hflag

/-- An inference that the arbitration does not clear leaves the stores as they are, or its record
goes on as no state variable; then every row of the state table was there before, or holds the
inference as a plain fact under its triple, or is a rewrite of a record that was there. -/
theorem unpromoted_stays_plain (orch : MemoryOrchestrator) (session : String)
    (s : Stores ObservationRecord) (it : PyDict String Json) (times : WriteTimes)
    (hpromoted : ¬orch.Promoted session it) :
    (orch.reconcileItem session s it times).1 = s ∨
      ∃ r, (orch.reconcileItem session s it times).2 = .ok (some r) ∧
        provenance it = .ok r.sourceType ∧ r.isStateVariable = false ∧
        ∀ key row, (orch.reconcileItem session s it times).1.kv.db.stateVariables.get? key =
            some row →
          s.kv.db.stateVariables.get? key = some row ∨
            ∃ a now, a.key = key ∧ row = a.row orch.env.rt now ∧
              (PlainFact orch.env.rt r a ∨ ∃ input, WritePath.RewritesRecord orch.env s
                (WritePath.seenItems orch.env s
                  (HybridMemoryEngine.observationRequest orch.env.rt r) input times)
                input.key a) := by
  rcases hrecord : orch.recordOf session it with err | _ | ⟨subject, r⟩
  · left
    simp only [reconcileItem, hrecord]
  · left
    simp only [reconcileItem, hrecord]
  · rcases hadmitted : orch.admitted subject r with _ | r'
    · left
      simp only [reconcileItem, hrecord, hadmitted]
    · right
      obtain ⟨hstate, hsource, hflag⟩ := admitted_plain hpromoted hrecord hadmitted
      obtain ⟨hstate', hsource', hmetadata'⟩ := prepared_plain orch.canonicalize hstate
      rw [reconcileItem_of_admitted hrecord hadmitted]
      set r₁ := HybridMemoryEngine.prepared orch.canonicalize r'
      refine ⟨r₁, rfl, ?_, hstate', fun key row hrow => ?_⟩
      · rw [hsource', hsource]
        exact (recordOf_fields hrecord).2
      · dsimp only at hrow
        obtain hold | ⟨a, now, hmem, hkey, hrow⟩ := WritePath.rowFrom_write hrow
        · exact Or.inl hold
        · right
          obtain ⟨input, hinput, hown | hrewrites⟩ := WritePath.ownRecord_or_rewrites hmem
          · exact ⟨a, now, hkey, hrow,
              Or.inl (plainFact_of_ownRecord hstate' (by rw [hmetadata', hflag]) hinput hown)⟩
          · exact ⟨a, now, hkey, hrow, Or.inr ⟨input, hrewrites⟩⟩

/-- An orchestrator for evaluating the model. -/
def sampleOrchestrator (arbitrate : String → String → PyFloat → PyDict String Json →
    Except PyError Verdict) : MemoryOrchestrator where
  env := { sampleWriteEnv with vectorFault := fun _ => none }
  canonicalize := id
  arbitrate := arbitrate

/-- An inference that claims a state variable. -/
def editorInference : PyDict String Json :=
  PyDict.ofEntries [("subject", .str "user:editor"), ("predicate", .str "state_value"),
    ("object", .str "vim"), ("is_state_variable", .bool true)]

def noStores : Stores ObservationRecord := ⟨VerifiedKVStore.init, ⟨25, 900, []⟩, [], ⟨∅, ∅⟩⟩

theorem unpromoted_stays_plain_warned :
    let orch := sampleOrchestrator fun _ _ _ _ => .ok ⟨"warn_conflict", true⟩
    let done := orch.reconcileItem "s" noStores editorInference (timesAt 1)
    done.1 = noStores ∨ ∃ r, done.2 = .ok (some r) ∧
      provenance editorInference = .ok r.sourceType ∧ r.isStateVariable = false ∧
      ∀ key row, done.1.kv.db.stateVariables.get? key = some row →
        noStores.kv.db.stateVariables.get? key = some row ∨
          ∃ a now, a.key = key ∧ row = a.row orch.env.rt now ∧
            (PlainFact orch.env.rt r a ∨ ∃ input, WritePath.RewritesRecord orch.env noStores
              (WritePath.seenItems orch.env noStores
                (HybridMemoryEngine.observationRequest orch.env.rt r) input (timesAt 1))
              input.key a) := by
  refine unpromoted_stays_plain (sampleOrchestrator fun _ _ _ _ => .ok ⟨"warn_conflict", true⟩) "s"
    noStores editorInference (timesAt 1) ?_
  rintro ⟨subject, r, v, -, -, hv, hpromotes⟩
  obtain rfl : (⟨"warn_conflict", true⟩ : Verdict) = v := Except.ok.inj hv
  exact absurd hpromotes (by decide)

/-- With the arbiter in use, one inference of no provenance becomes a state variable of a store that
has no record. -/
theorem inference_becomes_state_variable :
    let done := (sampleOrchestrator (defaultArbiter .sample sampleLexicon)).reconcileItem "s"
      noStores editorInference (timesAt 1)
    noStores.kv.db.stateVariables.keys = [] ∧
      done.1.kv.db.stateVariables.keys = ["user:editor"] ∧
      (done.2.toOption.join.map fun r => (r.sourceType, r.isStateVariable)) =
        some (.shadowInference, true) := by
  decide

end MemoryOrchestrator

end AtlasMemory
