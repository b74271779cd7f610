import AtlasMemory.Cognitive.WriteAtomicity
import AtlasMemory.Cognitive.WriteOutcome

/-!
# The records after a write

Whether a write persists its record is decided by its gates, by the arbitration against the records
that stand, and by the counter of the revisions.  As long as no store fails, a write that persists
leaves its own record under its key; and under each other key, and where it does not persist, it
leaves what stands there when it comes to its savepoint or ends before.
-/

namespace AtlasMemory

namespace WritePath

variable {ρ : Type}

/-- No insertion into the vector store or the graph raises. -/
structure SoundStores (env : WriteEnv ρ) : Prop where
  vectors : ∀ p, env.vectorFault p = none
  relations : ∀ e, env.relationFault e = none
  passages : ∀ index, env.indexPassage = some index → ∀ g key text metadata,
    ∃ n, (index g key text metadata).2 = .ok n

/-- The gates or the arbitration turn the write away. -/
def TurnedAway (env : WriteEnv ρ) (s : Stores ρ) (req : WriteRequest ρ) (times : WriteTimes) :
    Prop :=
  ∃ input, normalizeWriteInput env req = .ok input ∧
    (StoppedByGate env input ∨ ¬TakenForReplay env s req input ∧
      ∃ r, env.arbiter.arbitrate env.rt env.lex (incomingOf env req input)
        (arbitrated env s req input times) = .ok r ∧ rejects r = true)

/-- The write passes the gates and the arbitration, and comes to its savepoint. -/
def Persists (env : WriteEnv ρ) (s : Stores ρ) (req : WriteRequest ρ) (times : WriteTimes) : Prop :=
  ∃ a, Reaches env s req times a

/-- The records that the arbitration of a write reads. -/
def seenBy (env : WriteEnv ρ) (s : Stores ρ) (req : WriteRequest ρ) (input : NormalizedInput)
    (times : WriteTimes) : PyDict String MemoryItem :=
  existingItems env s input.key input.value (incomingOf env req input).metadata req.sessionId
    times.scanned

/-- The records when the write comes to its savepoint or ends before: once the write is accepted, a
record that it supersedes is marked. -/
def standingRecords (env : WriteEnv ρ) (s : Stores ρ) (req : WriteRequest ρ) (times : WriteTimes) :
    StateTable :=
  match normalizeWriteInput env req with
  | .error _ => s.kv.db.stateVariables
  | .ok input =>
    if StoppedByGate env input then s.kv.db.stateVariables
    else
      match env.arbiter.arbitrate env.rt env.lex (incomingOf env req input)
          (arbitrated env s req input times) with
      | .error _ => s.kv.db.stateVariables
      | .ok r =>
        if rejects r then s.kv.db.stateVariables
        else
          (revisedBy env s req (incomingOf env req input) (seenBy env s req input times) r
            times).1.kv.db.stateVariables

variable {env : WriteEnv ρ} {s : Stores ρ} {req : WriteRequest ρ} {times : WriteTimes}
  {input : NormalizedInput} {resp : WriteResponse}

/-- A write that is turned away does not come to its savepoint. -/
lemma TurnedAway.not_persists (h : TurnedAway env s req times) : ¬Persists env s req times := by
  obtain ⟨input, hinput, houtcome⟩ := h
  rintro ⟨a, input', r', hinput', hgate, -, hr', hrejects', -⟩
  obtain rfl : input' = input := Except.ok.inj (hinput'.symm.trans hinput)
  rcases houtcome with hgate' | ⟨-, r, hr, hrejects⟩
  · exact hgate hgate'
  · obtain rfl : r' = r := Except.ok.inj (hr'.symm.trans hr)
    rw [hrejects] at hrejects'
    cases hrejects'

/-! ## How a write ends -/

/-- How far a write gets that is no replay. -/
inductive Ending (env : WriteEnv ρ) (s : Stores ρ) (req : WriteRequest ρ) (times : WriteTimes) :
    Stores ρ × Except PyError WriteResponse → Prop
  | turnedAway (resp : WriteResponse) (h : TurnedAway env s req times)
    (hstanding : standingRecords env s req times = s.kv.db.stateVariables)
    (hresp : resp.status = "rejected") : Ending env s req times (s, .ok resp)
  | raised (after : Stores ρ) (err : PyError) (h : ¬TurnedAway env s req times)
    (hnot : ¬Persists env s req times)
    (hstanding : standingRecords env s req times = after.kv.db.stateVariables) :
    Ending env s req times (after, .error err)
  | persisted (a : Accepted) (h : ¬TurnedAway env s req times) (hreaches : Reaches env s req times a)
    (hstanding : standingRecords env s req times =
      (revisedStores env s a times.revised).kv.db.stateVariables) :
    Ending env s req times
      (persist env s (revisedStores env s a times.revised) a req.vectorRecord times)

lemma write_of_arbitration {r : ArbitrationResult} (hinput : normalizeWriteInput env req = .ok input)
    (hgate : ¬StoppedByGate env input) (hreplay : ¬TakenForReplay env s req input)
    (hr : env.arbiter.arbitrate env.rt env.lex (incomingOf env req input)
      (arbitrated env s req input times) = .ok r) :
    write env s req times =
      if rejects r then
        (s, .ok (rejected input.key "reject_conflict" "epistemic_conflict" none r.conflictDetails))
      else
        match revisedBy env s req (incomingOf env req input) (seenBy env s req input times) r
            times with
        | (revised, none) => (revised, .error ⟨.valueError, "invalid literal for int()"⟩)
        | (revised, some a) => persist env s revised a req.vectorRecord times := by
  rw [write_eq_arbitrated hinput hgate hreplay]
  unfold writeArbitrated
  dsimp only
  split
  · rename_i err herr
    cases herr.symm.trans hr
  · rename_i r' hr'
    obtain rfl : r' = r := Except.ok.inj (hr'.symm.trans hr)
    rfl

lemma write_of_arbitrationError {err : PyError} (hinput : normalizeWriteInput env req = .ok input)
    (hgate : ¬StoppedByGate env input) (hreplay : ¬TakenForReplay env s req input)
    (hr : env.arbiter.arbitrate env.rt env.lex (incomingOf env req input)
      (arbitrated env s req input times) = .error err) :
    write env s req times = (s, .error err) := by
  rw [write_eq_arbitrated hinput hgate hreplay]
  unfold writeArbitrated
  dsimp only
  split
  · rename_i err' herr
    rw [Except.error.inj (herr.symm.trans hr)]
  · rename_i r hr'
    cases hr'.symm.trans hr

/-- Every write that is no replay has one of the endings. -/
lemma ending_of_write
    (hplain : ∀ input, normalizeWriteInput env req = .ok input → ¬TakenForReplay env s req input) :
    Ending env s req times (write env s req times) := by
  cases hinput : normalizeWriteInput env req with
  | error err =>
    rw [write_of_error hinput]
    refine .raised s err ?_ ?_ ?_
    · rintro ⟨input, hok, -⟩
      cases hok.symm.trans hinput
    · rintro ⟨a, input, r, hok, -⟩
      cases hok.symm.trans hinput
    · unfold standingRecords
      rw [hinput]
  | ok input =>
    have hsame : ∀ input', normalizeWriteInput env req = .ok input' → input' = input :=
      fun input' h => Except.ok.inj (h.symm.trans hinput)
    have hreplay := hplain input hinput
    by_cases hgate : StoppedByGate env input
    · obtain ⟨resp, hwrite, hstatus, -⟩ := @write_of_stopped _ env s req times input hinput hgate
      rw [hwrite]
      refine .turnedAway resp ⟨input, hinput, Or.inl hgate⟩ ?_ hstatus
      unfold standingRecords
      rw [hinput]
      exact if_pos hgate
    have hstands : standingRecords env s req times =
        match env.arbiter.arbitrate env.rt env.lex (incomingOf env req input)
          (arbitrated env s req input times) with
        | .error _ => s.kv.db.stateVariables
        | .ok r =>
          if rejects r then s.kv.db.stateVariables
          else
            (revisedBy env s req (incomingOf env req input) (seenBy env s req input times) r
              times).1.kv.db.stateVariables := by
      unfold standingRecords
      rw [hinput]
      exact if_neg hgate
    cases hr : env.arbiter.arbitrate env.rt env.lex (incomingOf env req input)
        (arbitrated env s req input times) with
    | error err =>
      rw [write_of_arbitrationError hinput hgate hreplay hr]
      rw [hr] at hstands
      refine .raised s err ?_ ?_ hstands
      · rintro ⟨input', hok, hgate' | ⟨-, r, hr', -⟩⟩
        · exact hgate (hsame input' hok ▸ hgate')
        · rw [hsame input' hok] at hr'
          cases hr'.symm.trans hr
      · rintro ⟨a, input', r, hok, -, -, hr', -⟩
        rw [hsame input' hok] at hr'
        cases hr'.symm.trans hr
    | ok r =>
      rw [hr] at hstands
      have hwrite := write_of_arbitration hinput hgate hreplay hr
      have hverdict : ∀ input' r', normalizeWriteInput env req = .ok input' →
          env.arbiter.arbitrate env.rt env.lex (incomingOf env req input')
            (arbitrated env s req input' times) = .ok r' → input' = input ∧ r' = r := by
        intro input' r' hok hr'
        obtain rfl := hsame input' hok
        exact ⟨rfl, Except.ok.inj (hr'.symm.trans hr)⟩
      dsimp only at hstands
      by_cases hrejects : rejects r = true
      · rw [if_pos hrejects] at hwrite hstands
        rw [hwrite]
        exact .turnedAway _ ⟨input, hinput, Or.inr ⟨hreplay, r, hr, hrejects⟩⟩ hstands rfl
      have hnotAway : ¬TurnedAway env s req times := by
        rintro ⟨input', hok, hgate' | ⟨-, r', hr', hrejects'⟩⟩
        · exact hgate (hsame input' hok ▸ hgate')
        · exact hrejects ((hverdict input' r' hok hr').2 ▸ hrejects')
      rw [if_neg hrejects] at hwrite hstands
      rw [hwrite]
      cases hrevised : revisedBy env s req (incomingOf env req input) (seenBy env s req input times) r
          times with
      | mk revised accepted =>
        rw [hrevised] at hstands
        cases accepted with
        | none =>
          refine .raised revised _ hnotAway ?_ hstands
          rintro ⟨a, input', r', hok, -, -, hr', -, hsome⟩
          obtain ⟨rfl, rfl⟩ := hverdict input' r' hok hr'
          have hnone := congrArg Prod.snd hrevised
          cases hnone.symm.trans hsome
        | some a =>
          have hsome := congrArg Prod.snd hrevised
          have hreaches : Reaches env s req times a :=
            ⟨input, r, hinput, hgate, hreplay, hr, Bool.not_eq_true _ ▸ hrejects, hsome⟩
          obtain rfl : revised = revisedStores env s a times.revised :=
            (congrArg Prod.fst hrevised).symm.trans (revise_eq hsome)
          exact .persisted a hnotAway hreaches hstands

/-! ## One record after a write -/

/-- In sound stores the relations of a write are inserted. -/
lemma autoInsert_of_sound (hsound : SoundStores env) (g : KnowledgeGraph) (key : String)
    (value : Json) (metadata : PyDict String Json) (confidence : ℚ) :
    ∃ n, (autoInsertGraphEdges env g key value metadata confidence).2.2 = .ok n := by
  have hcommit : ∀ (es : List Edge) (g : KnowledgeGraph),
      (commitRelations env confidence g es).2.2 = none := by
    intro es
    induction es with
    | nil => exact fun g => rfl
    | cons e es ih =>
      intro g
      unfold commitRelations
      cases committed env e with
      | none => exact ih g
      | some e' =>
        dsimp only
        rw [hsound.relations]
        exact ih _
  unfold autoInsertGraphEdges
  cases hindex : env.indexPassage with
  | none =>
    cases edgePlan env key value metadata with
    | relations es =>
      dsimp only
      rw [hcommit]
      exact ⟨_, rfl⟩
    | prose sub text => exact ⟨_, rfl⟩
  | some index =>
    have hindexed : ∀ (g : KnowledgeGraph) (tracked : List Edge) (n : ℕ), ∃ m,
        (if PyString.strip key = "" ∨ PyString.strip (env.rt.pyStr value) = "" then
            (g, tracked, Except.ok n)
          else
            ((index g (PyString.strip key) (PyString.strip (env.rt.pyStr value)) metadata).1, tracked,
              (index g (PyString.strip key) (PyString.strip (env.rt.pyStr value)) metadata).2.map
                fun m => n + m)).2.2 = Except.ok m := by
      intro g tracked n
      split_ifs
      · exact ⟨n, rfl⟩
      · obtain ⟨m, hm⟩ := hsound.passages index hindex g (PyString.strip key)
          (PyString.strip (env.rt.pyStr value)) metadata
        rw [hm]
        exact ⟨n + m, rfl⟩
    cases edgePlan env key value metadata with
    | relations es =>
      dsimp only
      rw [hcommit]
      exact hindexed _ _ _
    | prose sub text => exact hindexed _ _ _

/-- In sound stores a write that comes to its savepoint sets its record, and releases the savepoint
if the source of the record is a text. -/
lemma persistCalls_of_sound (hsound : SoundStores env) (a : Accepted) (record : Option ρ) :
    ∃ rest, persistCalls env s a record times =
        .savepoint sagaTx :: .setSync (persistArgs a) times.persisted :: rest ∧
      (rest = [] ∨ rest = [.releaseSavepoint sagaTx]) := by
  have hfinish : ∀ s' : Stores ρ, finishCalls env s' a times = [] ∨
      finishCalls env s' a times = [.releaseSavepoint sagaTx] := by
    intro s'
    unfold finishCalls
    split
    · obtain ⟨n, hn⟩ := autoInsert_of_sound hsound s'.graph a.key a.value a.metadata a.confidence
      rw [hn]
      exact Or.inr rfl
    · exact Or.inl rfl
  refine ⟨_, rfl, ?_⟩
  unfold endingCalls
  cases record with
  | none => exact hfinish _
  | some r =>
    dsimp only
    rw [hsound.vectors]
    exact hfinish _

lemma get?_persist (hsound : SoundStores env) (before : Stores ρ) (a : Accepted) (record : Option ρ)
    (key : String) :
    (persist env before s a record times).1.kv.db.stateVariables.get? key =
      if a.key = key then some ⟨a.value.dumps, PyFloat.clampUnit (some (.finite a.confidence)),
        .finite times.persisted,
        some (Json.obj ((persistArgs a).storedMetadata env.rt times.persisted).entries).dumps,
        some (env.rt.hexdigest a.value.dumps)⟩
      else s.kv.db.stateVariables.get? key := by
  have hset : ∀ kv : VerifiedKVStore, ((kv.call env.rt (.savepoint sagaTx)).call env.rt
      (.setSync (persistArgs a) times.persisted)).db.stateVariables.get? key =
        if a.key = key then some ⟨a.value.dumps, PyFloat.clampUnit (some (.finite a.confidence)),
          .finite times.persisted,
          some (Json.obj ((persistArgs a).storedMetadata env.rt times.persisted).entries).dumps,
          some (env.rt.hexdigest a.value.dumps)⟩
        else kv.db.stateVariables.get? key := by
    intro kv
    rw [get?_call_setSync, @VerifiedKVStore.db_call env.rt kv (.savepoint sagaTx) (fun _ => by simp)]
    rfl
  obtain ⟨rest, hcalls, hrest⟩ := @persistCalls_of_sound _ env s times hsound a record
  rw [kv_persist, hcalls]
  rcases hrest with rfl | rfl
  · exact hset s.kv
  · rw [← hset s.kv]
    exact congrArg (fun db : Db => db.stateVariables.get? key)
      (db_releaseSavepoint env.rt ((s.kv.call env.rt (.savepoint sagaTx)).call env.rt
        (.setSync (persistArgs a) times.persisted)))

/-- There is a record under the key, and this holds of its text and its confidence. -/
def HoldsOf (t : StateTable) (key : String) (P : String → ℚ → Prop) : Prop :=
  ∃ row, t.get? key = some row ∧ P row.value row.confidence

/-- What the gates, the arbitration and the standing records make of this, for the record under
`key` and a write whose own key is `own`. -/
def Keeps (env : WriteEnv ρ) (s : Stores ρ) (req : WriteRequest ρ) (times : WriteTimes)
    (own key : String) (P : String → ℚ → Prop) : Prop :=
  (Persists env s req times ∧ own = key ∧
      P req.value.dumps (PyFloat.clampUnit (some req.confidence))) ∨
    (¬(Persists env s req times ∧ own = key) ∧ HoldsOf (standingRecords env s req times) key P)

/-- A write under a text as the key that is no replay. -/
structure PlainWrite (req : WriteRequest ρ) (key : String) : Prop where
  key : req.key = .str key
  replay : req.replay = false
  replayAt : req.replayAt = none

lemma PlainWrite.normalized {key : String} (hplain : PlainWrite req key)
    (hstr : env.rt.pyStr (.str key) = key) (h : normalizeWriteInput env req = .ok input) :
    input = ⟨PyString.strip key, req.value, req.confidence, req.metadata.getD ∅, none⟩ := by
  have htext : PyString.strip (if env.rt.truthy (.str key) then env.rt.pyStr (.str key) else "") =
      PyString.strip key := by
    split_ifs with htruthy
    · rw [hstr]
    · have hempty : key = "" := not_not.mp fun hne => htruthy (decide_eq_true hne)
      rw [hempty]
  unfold normalizeWriteInput at h
  rw [hplain.key] at h
  dsimp only at h
  rw [htext, hplain.replayAt] at h
  split_ifs at h
  exact (Except.ok.inj h).symm

lemma PlainWrite.not_replay {key : String} (hplain : PlainWrite req key)
    (hstr : env.rt.pyStr (.str key) = key) (h : normalizeWriteInput env req = .ok input) :
    ¬TakenForReplay env s req input := by
  rw [hplain.normalized hstr h]
  intro htaken
  unfold TakenForReplay at htaken
  rw [hplain.replay] at htaken
  exact absurd htaken (by simp)

lemma PlainWrite.accepted {key : String} {a : Accepted} (hplain : PlainWrite req key)
    (hstr : env.rt.pyStr (.str key) = key) (h : Reaches env s req times a) :
    a.key = PyString.strip key ∧ a.value = req.value ∧
      a.confidence = PyFloat.clampUnit (some req.confidence) := by
  obtain ⟨input, r, hinput, -, -, -, -, hsome⟩ := h
  obtain ⟨hkey, hvalue, -⟩ := accepted_of_revise hsome
  have hconfidence := confidence_of_revise hsome
  rw [hplain.normalized hstr hinput] at hkey hvalue hconfidence
  exact ⟨hkey, hvalue, hconfidence⟩

/-- A write that does not come to its savepoint leaves the records that stand. -/
lemma records_of_not_persists
    (hplain : ∀ input, normalizeWriteInput env req = .ok input → ¬TakenForReplay env s req input)
    (hnot : ¬Persists env s req times) :
    (write env s req times).1.kv.db.stateVariables = standingRecords env s req times := by
  have hending : Ending env s req times (write env s req times) := ending_of_write hplain
  generalize write env s req times = w at hending ⊢
  cases hending with
  | turnedAway resp h hstanding hresp => exact hstanding.symm
  | raised after err h hnot' hstanding => exact hstanding.symm
  | persisted a h hreaches hstanding => exact absurd ⟨a, hreaches⟩ hnot

/-- **What holds of a record after a write** is what the write keeps. -/
theorem holdsOf_iff_keeps (hsound : SoundStores env) {own : String} (hplain : PlainWrite req own)
    (hstr : env.rt.pyStr (.str own) = own) (key : String) (P : String → ℚ → Prop) :
    HoldsOf (write env s req times).1.kv.db.stateVariables key P ↔
      Keeps env s req times (PyString.strip own) key P := by
  have hending : Ending env s req times (write env s req times) :=
    ending_of_write fun _ h => hplain.not_replay hstr h
  have hends : ¬Persists env s req times →
      standingRecords env s req times = (write env s req times).1.kv.db.stateVariables →
        (HoldsOf (write env s req times).1.kv.db.stateVariables key P ↔
          Keeps env s req times (PyString.strip own) key P) := by
    intro hnot hstanding
    rw [← hstanding]
    constructor
    · exact fun hholds => Or.inr ⟨fun hboth => hnot hboth.1, hholds⟩
    · rintro (⟨hpersists, -⟩ | ⟨-, hholds⟩)
      · exact absurd hpersists hnot
      · exact hholds
  generalize write env s req times = w at hending hends ⊢
  cases hending with
  | turnedAway resp h hstanding hresp => exact hends h.not_persists hstanding
  | raised after err h hnot hstanding => exact hends hnot hstanding
  | persisted a h hreaches hstanding =>
    obtain ⟨ha, hvalue, hconfidence⟩ := hplain.accepted hstr hreaches
    have hclamp : PyFloat.clampUnit (some (.finite a.confidence)) =
        PyFloat.clampUnit (some req.confidence) := by
      rw [hconfidence]
      exact PyFloat.clampUnit_finite_of_mem (PyFloat.clampUnit_nonneg _) (PyFloat.clampUnit_le_one _)
    have hpersists : Persists env s req times := ⟨a, hreaches⟩
    unfold HoldsOf Keeps
    rw [get?_persist hsound, ha, hvalue, hclamp, ← hstanding]
    by_cases hkey : PyString.strip own = key
    · rw [if_pos hkey]
      constructor
      · rintro ⟨row, hrow, hP⟩
        obtain rfl := Option.some.inj hrow
        exact Or.inl ⟨hpersists, hkey, hP⟩
      · rintro (⟨-, -, hP⟩ | ⟨hnot, -⟩)
        · exact ⟨_, rfl, hP⟩
        · exact absurd ⟨hpersists, hkey⟩ hnot
    · rw [if_neg hkey]
      constructor
      · exact fun hholds => Or.inr ⟨fun hboth => hkey hboth.2, hholds⟩
      · rintro (⟨-, heq, -⟩ | ⟨-, hholds⟩)
        · exact absurd heq hkey
        · exact hholds

end WritePath

end AtlasMemory
