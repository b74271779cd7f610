import AtlasMemory.Cognitive.ConfidenceProtection
import AtlasMemory.Cognitive.PredictiveCoder
import AtlasMemory.Foundations.JsonRoundTrip
import AtlasMemory.Server.MemoryRequests

/-!
# What an acknowledgement stands for

Three handlers acknowledge a write without a look at its response: the commit of an observation, the
feedback of a task, and the write back of a sensed value.  Each acknowledgement is compared with the
record that is there afterwards, and the comparison comes down to whether the write gets to its
savepoint and what it writes there.
-/

namespace AtlasMemory

open WritePath

/-- The value that a stored text reads as. -/
def valueOfText (text : String) : Json :=
  StateRow.decodedValue
    { value := text, confidence := 0, timestamp := .finite 0, metadata := none, valueHash := none }

/-- The record that a lookup of the key finds, and this holds of its text and its confidence. -/
def FoundOf (t : StateTable) (key : String) (P : String → ℚ → Prop) : Prop :=
  ∃ e, t.lookup key = some e ∧ P e.2.value e.2.confidence

lemma lookup_of_get? {t : StateTable} {key : String} {row : StateRow} (h : t.get? key = some row) :
    t.lookup key = some (key, row) := by
  rw [StateTable.lookup, h]

namespace MemoryController

variable {ρ : Type} (env : ControllerEnv ρ)

/-! ## The observation of a commit request -/

section Observation

variable (rt : Runtime) (params : PyDict String Json)

/-- The text of an item, `default` where it is missing or empty. -/
def itemText (name default : String) : String :=
  textOr rt default ((params.get? name).filter rt.truthy)

/-- The object of an observation, as it is submitted. -/
def submittedObject : String := itemText rt params "object" ""

def observedSubject : String := PyString.strip (itemText rt params "subject" "")

def observedPredicate : String :=
  let named := PyString.strip (itemText rt params "predicate" "observation")
  if named = "" then "observation" else named

/-- The key, the object and the session of an observation, after their validation. -/
def observationInput : Except PyError (String × String × String) :=
  validateAndSanitize rt (some (.str (observedSubject rt params ++ ":" ++ observedPredicate rt params)))
    (some (.str (submittedObject rt params))) (params.get? "session_id")

def observationVariable (key obj session : String) : StateVariable :=
  let confidence := clampConf rt (params.get? "confidence")
  { key := key, value := .str obj, sessionId := session, confidence := confidence
    metadata := observationMetadata rt params (observedSubject rt params)
      (observedPredicate rt params) session confidence
    sourceType := some ((params.get? "source").getD (.str "user_explicit"))
    reason := "commit_observation", taskSuccess := tellsSuccess rt params }

end Observation

variable {env} {s s' : Stores ρ} {params : PyDict String Json} {times : RequestTimes}

/-- The write of a state variable, with the credit that it gets. -/
def creditedRequest (env : ControllerEnv ρ) (s : Stores ρ) (v : StateVariable) : WriteRequest ρ :=
  requestOf env (credited env.path.rt s.kv.db.stateVariables v)

lemma plainWrite_credited (v : StateVariable) :
    PlainWrite (creditedRequest env s v) v.key := by
  obtain ⟨-, hkey⟩ := credited_value env.path.rt s.kv.db.stateVariables v
  refine ⟨?_, rfl, rfl⟩
  show Json.str (credited env.path.rt s.kv.db.stateVariables v).key = _
  rw [hkey]

/-- The key-value store after the persisting of a state variable is that after its write. -/
lemma kv_persistStateVariable (v : StateVariable) :
    (persistStateVariable env s v times).1.kv =
      (write env.path s (creditedRequest env s v) times.write).1.kv := by
  unfold persistStateVariable creditedRequest
  dsimp only
  split
  · rename_i after err hwrite
    rw [hwrite]
  · rename_i after r hwrite
    rw [hwrite]
    split_ifs
    · split
      · rfl
      · rfl
    · rfl

lemma persist_of_committed {subject key : String} {confidence : ℚ} {b : Bool}
    (h : handleCommitObservation env s params times =
      (s', .ok (.committed subject key confidence b))) :
    ∃ obj session, observationInput env.path.rt params = .ok (key, obj, session) ∧
      confidence = clampConf env.path.rt (params.get? "confidence") ∧
      s' = (persistStateVariable env s
        (observationVariable env.path.rt params key obj session) times).1 := by
  unfold handleCommitObservation at h
  dsimp only at h
  split at h
  · cases (Prod.mk.inj h).2
  · split at h
    · cases (Prod.mk.inj h).2
    · rename_i key' obj session hinput
      split at h
      · cases (Prod.mk.inj h).2
      · cases (Prod.mk.inj h).2
      · rename_i after r hpersist
        split_ifs at h
        · cases (Prod.mk.inj h).2
        · obtain ⟨rfl, hreply⟩ := Prod.mk.inj h
          obtain ⟨rfl, rfl, rfl, -⟩ := CommitReply.committed.inj (Except.ok.inj hreply)
          exact ⟨obj, session, hinput, rfl, (congrArg Prod.fst hpersist).symm⟩

/-- A feedback that is acknowledged has been persisted. -/
lemma persist_of_updated {key : String} {previous confidence : ℚ} {success : Bool}
    (h : handleTaskFeedback env s params times =
      (s', .ok (.updated key previous confidence success))) :
    PyString.strip key = key ∧ ∃ stored row,
      s.kv.db.stateVariables.lookup key = some (stored, row) ∧ previous = row.confidence ∧
      confidence = feedbackConfidence env.path.rt params row.confidence ∧
      s' = (persistStateVariable env s (feedbackVariable env.path.rt params key stored row)
        times).1 := by
  unfold handleTaskFeedback at h
  dsimp only at h
  split at h
  · cases (Prod.mk.inj h).2
  · split at h
    · cases (Prod.mk.inj h).2
    · rename_i stored row hlookup
      split at h
      · cases (Prod.mk.inj h).2
      · rename_i after r hpersist
        obtain ⟨rfl, hreply⟩ := Prod.mk.inj h
        obtain ⟨rfl, rfl, rfl, -⟩ := FeedbackReply.updated.inj (Except.ok.inj hreply)
        exact ⟨PyString.strip_strip _, stored, row, hlookup, rfl, rfl,
          (congrArg Prod.fst hpersist).symm⟩

/-! ## What is acknowledged -/

variable (env)

/-- The record of the key holds the submitted object with the confidence of the reply. -/
def CommitReal (params : PyDict String Json) (key : String) (confidence : ℚ) (t : StateTable) :
    Prop :=
  HoldsOf t key fun text c =>
    text = (Json.str (submittedObject env.path.rt params)).dumps ∧ c = confidence

/-- The write of the observation comes to its savepoint under the key itself, with the object as it
is submitted and the confidence of the reply; or else the record that stands under the key has them
already. -/
def CommitSupported (s : Stores ρ) (params : PyDict String Json) (times : RequestTimes)
    (key obj session : String) (confidence : ℚ) : Prop :=
  let v := observationVariable env.path.rt params key obj session
  let req := creditedRequest env s v
  (Persists env.path s req times.write ∧ PyString.strip key = key ∧
      obj = submittedObject env.path.rt params ∧
      (credited env.path.rt s.kv.db.stateVariables v).confidence = confidence) ∨
    (¬(Persists env.path s req times.write ∧ PyString.strip key = key) ∧
      CommitReal env params key confidence (standingRecords env.path s req times.write))

/-- The record of the key has the confidence of the reply, and the value that it had. -/
def FeedbackReal (row : StateRow) (key : String) (confidence : ℚ) (t : StateTable) : Prop :=
  FoundOf t key fun text c => valueOfText text = row.decodedValue ∧ c = confidence

/-- The write of the feedback comes to its savepoint, and the value outlives being written once
more; or else the record that stands under the key has the confidence and the value already. -/
def FeedbackSupported (s : Stores ρ) (params : PyDict String Json) (times : RequestTimes)
    (key stored : String) (row : StateRow) (confidence : ℚ) : Prop :=
  let req := creditedRequest env s (feedbackVariable env.path.rt params key stored row)
  (Persists env.path s req times.write ∧
      valueOfText row.decodedValue.dumps = row.decodedValue) ∨
    (¬Persists env.path s req times.write ∧
      FeedbackReal row key confidence (standingRecords env.path s req times.write))

/-- The last observation of the target is the sensed value. -/
def SensingReal (report : SensingReport) (t : StateTable) : Prop :=
  HoldsOf t (PredictiveCoder.writebackKey report.targetEntity)
    fun text _ => text = report.observed.dumps

/-- The write of the observation is not turned away, or over the same value. -/
def SensingSupported (coder : PredictiveCoder ρ) (s : Stores ρ) (params : PyDict String Json)
    (times : SensingTimes) (report : SensingReport) : Prop :=
  TurnedAway coder.env (coder.annealedStores s params)
      (PredictiveCoder.observationRequest report.targetEntity report.observed
        (coder.observation params times.sensed)) times.write →
    SensingReal report s.kv.db.stateVariables

variable {env}

lemma credited_mem (rt : Runtime) (t : StateTable) {v : StateVariable} (h0 : 0 ≤ v.confidence)
    (h1 : v.confidence ≤ 1) : 0 ≤ (credited rt t v).confidence ∧ (credited rt t v).confidence ≤ 1 := by
  unfold credited
  split
  · split_ifs
    · exact ⟨PyFloat.clampUnit_nonneg _, PyFloat.clampUnit_le_one _⟩
    · exact ⟨h0, h1⟩
  · exact ⟨h0, h1⟩

lemma str_dumps_inj {a b : String} : (Json.str a).dumps = (Json.str b).dumps ↔ a = b := by
  refine ⟨fun h => ?_, fun h => h ▸ rfl⟩
  have ha : Json.loads (PyText.ofString (Json.str a).dumps) = some (.str a) :=
    Json.loads_dumps trivial
  have hb : Json.loads (PyText.ofString (Json.str b).dumps) = some (.str b) :=
    Json.loads_dumps trivial
  rw [h, hb] at ha
  exact (Json.str.inj (Option.some.inj ha)).symm

/-- The confidence of a credited state variable is written as it is. -/
lemma clampUnit_credited (rt : Runtime) (t : StateTable) {v : StateVariable}
    (h0 : 0 ≤ v.confidence) (h1 : v.confidence ≤ 1) :
    PyFloat.clampUnit (some (.finite (credited rt t v).confidence)) =
      (credited rt t v).confidence := by
  obtain ⟨hnonneg, hle⟩ := credited_mem rt t h0 h1
  exact PyFloat.clampUnit_finite_of_mem hnonneg hle

/-- What holds of a record after the persisting of a state variable. -/
lemma holdsOf_persist (hsound : SoundStores env.path)
    (hstr : ∀ t, env.path.rt.pyStr (.str t) = t) (v : StateVariable) (key : String)
    (P : String → ℚ → Prop) :
    HoldsOf (persistStateVariable env s v times).1.kv.db.stateVariables key P ↔
      Keeps env.path s (creditedRequest env s v) times.write (PyString.strip v.key) key P := by
  rw [kv_persistStateVariable]
  exact holdsOf_iff_keeps hsound (plainWrite_credited v) (hstr _) key P

lemma commitReal_iff (hsound : SoundStores env.path) (hstr : ∀ t, env.path.rt.pyStr (.str t) = t)
    (key obj session : String) :
    CommitReal env params key (clampConf env.path.rt (params.get? "confidence"))
        (persistStateVariable env s (observationVariable env.path.rt params key obj session)
          times).1.kv.db.stateVariables ↔
      CommitSupported env s params times key obj session
        (clampConf env.path.rt (params.get? "confidence")) := by
  have hclamp : PyFloat.clampUnit (some (.finite (credited env.path.rt s.kv.db.stateVariables
      (observationVariable env.path.rt params key obj session)).confidence)) =
        (credited env.path.rt s.kv.db.stateVariables
          (observationVariable env.path.rt params key obj session)).confidence :=
    clampUnit_credited _ _ (PyFloat.clampUnit_nonneg _) (PyFloat.clampUnit_le_one _)
  have hvalue : (creditedRequest env s
      (observationVariable env.path.rt params key obj session)).value = .str obj :=
    (credited_value env.path.rt s.kv.db.stateVariables
      (observationVariable env.path.rt params key obj session)).1
  have hconfidence : (creditedRequest env s
      (observationVariable env.path.rt params key obj session)).confidence =
        .finite (credited env.path.rt s.kv.db.stateVariables
          (observationVariable env.path.rt params key obj session)).confidence := rfl
  unfold CommitReal
  rw [holdsOf_persist hsound hstr]
  unfold Keeps CommitSupported CommitReal
  dsimp only
  rw [hvalue, hconfidence, hclamp, str_dumps_inj]
  exact Iff.rfl

lemma feedbackReal_iff (hsound : SoundStores env.path)
    (hstr : ∀ t, env.path.rt.pyStr (.str t) = t) {key stored : String} {row : StateRow}
    (hkey : PyString.strip key = key) :
    FeedbackReal row key (feedbackConfidence env.path.rt params row.confidence)
        (persistStateVariable env s (feedbackVariable env.path.rt params key stored row)
          times).1.kv.db.stateVariables ↔
      FeedbackSupported env s params times key stored row
        (feedbackConfidence env.path.rt params row.confidence) := by
  have hclamp : PyFloat.clampUnit (some (.finite
      (feedbackConfidence env.path.rt params row.confidence))) =
        feedbackConfidence env.path.rt params row.confidence :=
    PyFloat.clampUnit_finite_of_mem (PyFloat.clampUnit_nonneg _) (PyFloat.clampUnit_le_one _)
  have hcredited : credited env.path.rt s.kv.db.stateVariables
      (feedbackVariable env.path.rt params key stored row) =
        feedbackVariable env.path.rt params key stored row := by
    unfold credited
    split
    · exact if_neg Bool.false_ne_true
    · rfl
  have hplain := @plainWrite_credited ρ env s
    (feedbackVariable env.path.rt params key stored row)
  by_cases hpersists : Persists env.path s
      (creditedRequest env s (feedbackVariable env.path.rt params key stored row)) times.write
  · have hholds : HoldsOf (persistStateVariable env s (feedbackVariable env.path.rt params key stored
        row) times).1.kv.db.stateVariables key fun text c =>
          text = row.decodedValue.dumps ∧
            c = feedbackConfidence env.path.rt params row.confidence := by
      refine (holdsOf_persist hsound hstr _ key _).mpr (Or.inl ⟨hpersists, hkey, ?_, ?_⟩)
      · show (credited _ _ _).value.dumps = _
        rw [hcredited]
        rfl
      · show PyFloat.clampUnit (some (.finite (credited _ _ _).confidence)) = _
        rw [hcredited]
        exact hclamp
    obtain ⟨row', hrow, htext, hconfidence⟩ := hholds
    have hfound := lookup_of_get? hrow
    constructor
    · rintro ⟨e, he, hvalue, -⟩
      obtain rfl := Option.some.inj (hfound.symm.trans he)
      exact Or.inl ⟨hpersists, htext ▸ hvalue⟩
    · rintro (⟨-, hvalue⟩ | ⟨hnot, -⟩)
      · exact ⟨(key, row'), hfound, by rw [htext]; exact hvalue, hconfidence⟩
      · exact absurd hpersists hnot
  · have hrecords := records_of_not_persists
      (fun _ h => hplain.not_replay (hstr _) h) hpersists
    rw [← kv_persistStateVariable] at hrecords
    unfold FeedbackSupported
    dsimp only
    rw [hrecords]
    constructor
    · exact fun hreal => Or.inr ⟨hpersists, hreal⟩
    · rintro (⟨hyes, -⟩ | ⟨-, hreal⟩)
      · exact absurd hyes hpersists
      · exact hreal

/-! ## The sensing of a value -/

/-- A sensing that reports an update of the world model has written the observation back. -/
lemma writeback_of_updated {coder : PredictiveCoder ρ} {report : SensingReport}
    {times : SensingTimes} (h : coder.executeSensing s params times = (s', .ok report))
    (hupdated : report.worldModelUpdated = true) :
    s'.kv = (coder.writeback (coder.annealedStores s params) report.targetEntity report.observed
      (coder.observation params times.sensed) times).kv := by
  unfold PredictiveCoder.executeSensing at h
  dsimp only at h
  split_ifs at h
  · cases (Prod.mk.inj h).2
  · obtain ⟨rfl, hreport⟩ := Prod.mk.inj h
    obtain rfl := Except.ok.inj hreport
    dsimp only
  · obtain ⟨-, hreport⟩ := Prod.mk.inj h
    rw [← Except.ok.inj hreport] at hupdated
    cases hupdated

lemma kv_annealedStores (coder : PredictiveCoder ρ) :
    (coder.annealedStores s params).kv = s.kv := by
  unfold PredictiveCoder.annealedStores
  dsimp only
  split_ifs
  · rfl
  · rfl

lemma sensingReal_iff {coder : PredictiveCoder ρ} {report : SensingReport} {times : SensingTimes}
    (hsound : SoundStores coder.env) (hstr : ∀ t, coder.env.rt.pyStr (.str t) = t)
    (h : coder.executeSensing s params times = (s', .ok report))
    (hupdated : report.worldModelUpdated = true) :
    SensingReal report s'.kv.db.stateVariables ↔ SensingSupported coder s params times report := by
  unfold SensingReal SensingSupported
  rw [writeback_of_updated h hupdated, PredictiveCoder.holdsOf_writeback hsound hstr,
    kv_annealedStores]
  exact Iff.rfl

/-! ## The acknowledgements -/

/-- The acknowledgement of a commit is real exactly if it is supported. -/
lemma commitReal_of_committed (hsound : SoundStores env.path)
    (hstr : ∀ t, env.path.rt.pyStr (.str t) = t) {subject key : String} {confidence : ℚ} {b : Bool}
    (h : handleCommitObservation env s params times =
      (s', .ok (.committed subject key confidence b))) :
    ∃ obj session, observationInput env.path.rt params = .ok (key, obj, session) ∧
      (CommitReal env params key confidence s'.kv.db.stateVariables ↔
        CommitSupported env s params times key obj session confidence) := by
  obtain ⟨obj, session, hinput, hconf, hs⟩ := persist_of_committed h
  refine ⟨obj, session, hinput, ?_⟩
  rw [hconf, hs]
  exact commitReal_iff hsound hstr key obj session

/-- The acknowledgement of a feedback is real exactly if it is supported. -/
lemma feedbackReal_of_updated (hsound : SoundStores env.path)
    (hstr : ∀ t, env.path.rt.pyStr (.str t) = t) {key : String} {previous confidence : ℚ}
    {success : Bool} (h : handleTaskFeedback env s params times =
      (s', .ok (.updated key previous confidence success))) :
    ∃ stored row, s.kv.db.stateVariables.lookup key = some (stored, row) ∧
      (FeedbackReal row key confidence s'.kv.db.stateVariables ↔
        FeedbackSupported env s params times key stored row confidence) := by
  obtain ⟨hkey, stored, row, hlookup, -, hconf, hs⟩ := persist_of_updated h
  refine ⟨stored, row, hlookup, ?_⟩
  rw [hconf, hs]
  exact feedbackReal_iff hsound hstr hkey

/-- **Acknowledgements.**  As long as no store fails, an acknowledged commit, feedback or sensing is
real exactly if the write behind it is not turned away, or a record that is as acknowledged stands
already. -/
theorem acknowledgements_iff {coder : PredictiveCoder ρ} {times : RequestTimes}
    {sensing : SensingTimes} (hpath : SoundStores env.path)
    (hstr : ∀ t, env.path.rt.pyStr (.str t) = t) (hcoder : SoundStores coder.env)
    (hcoderStr : ∀ t, coder.env.rt.pyStr (.str t) = t) :
    (∀ subject key confidence b,
      handleCommitObservation env s params times =
          (s', .ok (.committed subject key confidence b)) →
        ∃ obj session, observationInput env.path.rt params = .ok (key, obj, session) ∧
          (CommitReal env params key confidence s'.kv.db.stateVariables ↔
            CommitSupported env s params times key obj session confidence)) ∧
    (∀ key previous confidence success,
      handleTaskFeedback env s params times =
          (s', .ok (.updated key previous confidence success)) →
        ∃ stored row, s.kv.db.stateVariables.lookup key = some (stored, row) ∧
          (FeedbackReal row key confidence s'.kv.db.stateVariables ↔
            FeedbackSupported env s params times key stored row confidence)) ∧
    (∀ report, coder.executeSensing s params sensing = (s', .ok report) →
      report.worldModelUpdated = true →
        (SensingReal report s'.kv.db.stateVariables ↔
          SensingSupported coder s params sensing report)) := by
  refine ⟨?_, ?_, ?_⟩
  · intro subject key confidence b h
    exact commitReal_of_committed hpath hstr h
  · intro key previous confidence success h
    exact feedbackReal_of_updated hpath hstr h
  · intro report h hupdated
    exact sensingReal_iff hcoder hcoderStr h hupdated

/-! ## A commit that is rejected -/

/-- A controller over a write path that does not fail. -/
def sampleController : ControllerEnv Unit where
  path := sampleWriteEnv
  vectors := ⟨fun v _ => (v, 0), fun v _ => (v, 0)⟩
  vectorRecord _ _ _ := ()

/-- A predictive coder over the same write path. -/
def sampleCoder : PredictiveCoder Unit where
  env := sampleWriteEnv
  words s := [s]
  checks := []
  anneal g _ := g
  commitRelation g _ := g

lemma isNumber_zero : Json.isNumber "0.0".toList = true := by decide

/-- An observation without any confidence, of a record that is established. -/
def doubtfulObservation : PyDict String Json :=
  PyDict.ofEntries [("subject", .str "fact:alpha"), ("predicate", .str "plan"),
    ("object", .str "only merge deploy"), ("confidence", .number ⟨"0.0", isNumber_zero⟩)]

lemma soundStores_sample : SoundStores sampleWriteEnv where
  vectors _ := rfl
  relations _ := rfl
  passages _ h := nomatch h

def committedItem : Except PyError CommitReply → Option (String × String × ℚ)
  | .ok (.committed subject key confidence _) => some (subject, key, confidence)
  | _ => none

/-- The observation is acknowledged with its own confidence. -/
lemma committed_doubtful :
    ∃ s' b, handleCommitObservation sampleController establishedStores doubtfulObservation
        ⟨timesAt 2, 2⟩ = (s', .ok (.committed "fact:alpha" "fact:alpha:plan" 0 b)) := by
  have hreply : committedItem (handleCommitObservation sampleController establishedStores
      doubtfulObservation ⟨timesAt 2, 2⟩).2 = some ("fact:alpha", "fact:alpha:plan", 0) := by
    decide +kernel
  generalize handleCommitObservation sampleController establishedStores doubtfulObservation
    ⟨timesAt 2, 2⟩ = run at hreply
  obtain ⟨s', reply⟩ := run
  dsimp only [committedItem] at hreply
  split at hreply
  · obtain ⟨rfl, hrest⟩ := Prod.mk.inj (Option.some.inj hreply)
    obtain ⟨rfl, rfl⟩ := Prod.mk.inj hrest
    exact ⟨s', _, rfl⟩
  · cases hreply

lemma not_commitReal_doubtful {s' : Stores Unit} {reply : Except PyError CommitReply}
    (h : handleCommitObservation sampleController establishedStores doubtfulObservation
      ⟨timesAt 2, 2⟩ = (s', reply)) :
    ¬CommitReal sampleController doubtfulObservation "fact:alpha:plan" 0
      s'.kv.db.stateVariables := by
  have hstored : ((handleCommitObservation sampleController establishedStores doubtfulObservation
      ⟨timesAt 2, 2⟩).1.kv.db.stateVariables.get? "fact:alpha:plan").map (fun row => row.value) =
        some "\"only sync deploy\"" := by decide +kernel
  have hobject : (Json.str (submittedObject sampleController.path.rt doubtfulObservation)).dumps =
      "\"only merge deploy\"" := by decide +kernel
  rw [h] at hstored
  dsimp only at hstored
  rintro ⟨row, hrow, htext, -⟩
  rw [hrow, Option.map_some, htext, hobject] at hstored
  exact absurd (Option.some.inj hstored) (by decide)

theorem commit_acknowledged_not_real :
    ∃ s' subject key confidence b,
      handleCommitObservation sampleController establishedStores doubtfulObservation
          ⟨timesAt 2, 2⟩ = (s', .ok (.committed subject key confidence b)) ∧
        ¬CommitReal sampleController doubtfulObservation key confidence
          s'.kv.db.stateVariables := by
  obtain ⟨s', b, h⟩ := committed_doubtful
  exact ⟨s', _, _, _, b, h, not_commitReal_doubtful h⟩

/-- The arbitration leaves the acknowledgement without support. -/
theorem commit_doubtful_not_supported :
    ∃ obj session, observationInput sampleController.path.rt doubtfulObservation =
        .ok ("fact:alpha:plan", obj, session) ∧
      ¬CommitSupported sampleController establishedStores doubtfulObservation ⟨timesAt 2, 2⟩
        "fact:alpha:plan" obj session 0 := by
  obtain ⟨s', b, h⟩ := committed_doubtful
  have hacknowledgements := @acknowledgements_iff _ sampleController establishedStores s'
    doubtfulObservation sampleCoder ⟨timesAt 2, 2⟩ ⟨2, timesAt 2, 2⟩ soundStores_sample
    (fun _ => rfl) soundStores_sample (fun _ => rfl)
  obtain ⟨obj, session, hinput, hreal⟩ := hacknowledgements.1 _ _ _ b h
  exact ⟨obj, session, hinput, fun hsupported =>
    not_commitReal_doubtful h (hreal.mpr hsupported)⟩

end MemoryController

end AtlasMemory
