import AtlasMemory.Active.ActiveSensing

/-!
# The history of the errors

Over a run of registrations and observations the history of a new engine is compared with the list
of the errors that the observations returned.  An observation whose error is recorded by the
comparison itself adds two entries and any other error one, so that the two lists are equal if and
only if no such observation occurs.  Which observations these are is decided by the expectation and
the observed value before the comparison.
-/

namespace AtlasMemory

namespace ActiveSensing

variable (env : SensingEnv)

/-- A call on the engine. -/
inductive Call
  | register (check : PredictionCheck)
  | observe (obs : Observation) (tripleAdd : TripleAdd)

/-- The call, and the error that it returns. -/
def Engine.perform (engine : Engine) : Call → Engine × Option PredictionError
  | .register check => (engine.registerExpectation check, none)
  | .observe obs tripleAdd => engine.processObservation env obs tripleAdd

/-- The calls in their order, and the errors that they returned. -/
def Engine.runCalls (engine : Engine) : List Call → Engine × List PredictionError
  | [] => (engine, [])
  | call :: calls =>
    let (engine, error) := engine.perform env call
    let (engine, errors) := engine.runCalls calls
    (engine, error.toList ++ errors)

/-! ## The observations whose error is recorded twice -/

/-- One of the two values is not a number. -/
def notNumbers (check : PredictionCheck) (obs : Observation) : Bool :=
  (env.rt.parseFloat (PyString.strip obs.value)).isNone ||
    (env.rt.parseFloat (PyString.strip check.expectedValue)).isNone

/-- The observed value is not a number or the range has no bounds. -/
def noRange (check : PredictionCheck) (obs : Observation) : Bool :=
  (env.rt.parseFloat (PyString.strip obs.value)).isNone ||
    (rangeBounds env check (PyString.strip check.expectedValue)).isNone

/-- The observation reports a failure that nothing was expected of, misses a pattern, or differs
from an expected text. -/
def recordsItself (expectation : Option PredictionCheck) (obs : Observation) : Bool :=
  match expectation with
  | none => reportsFailure env obs
  | some check =>
    match check.checkType with
    | .regex => regexFails env check obs
    | .numericRange => noRange env check obs && notNumbers env check obs && textsDiffer env check obs
    | .exact => notNumbers env check obs && textsDiffer env check obs

variable {env}

lemma numericCheck_eq_none_iff {check : PredictionCheck} {obs : Observation} :
    numericCheck env check obs = none ↔ notNumbers env check obs = true := by
  unfold numericCheck notNumbers
  rcases env.rt.parseFloat (PyString.strip obs.value) with _ | obsNum
  · simp
  · rcases env.rt.parseFloat (PyString.strip check.expectedValue) with _ | expNum
    · simp
    · simp only [Option.bind_eq_bind, Option.bind_some]
      split_ifs <;> simp

lemma rangeCheck_eq_none_iff {check : PredictionCheck} {obs : Observation} :
    rangeCheck env check obs = none ↔ noRange env check obs = true := by
  unfold rangeCheck noRange
  rcases rangeBounds env check (PyString.strip check.expectedValue) with _ | ⟨low, high⟩
  · simp
  · rcases env.rt.parseFloat (PyString.strip obs.value) with _ | obsNum
    · simp
    · simp only [Option.bind_eq_bind, Option.bind_some]
      split_ifs <;> simp

/-- A numeric comparison does not record its error. -/
lemma recorded_of_numericCheck {check : PredictionCheck} {obs : Observation}
    {found : Option Finding} (h : numericCheck env check obs = some found) :
    found.any Finding.recorded = false := by
  obtain ⟨obsNum, -, h⟩ := Option.bind_eq_some_iff.mp h
  obtain ⟨expNum, -, h⟩ := Option.bind_eq_some_iff.mp h
  dsimp only at h
  split_ifs at h <;> obtain rfl := Option.some.inj h <;> rfl

/-- Neither does a comparison with a range. -/
lemma recorded_of_rangeCheck {check : PredictionCheck} {obs : Observation}
    {found : Option Finding} (h : rangeCheck env check obs = some found) :
    found.any Finding.recorded = false := by
  obtain ⟨⟨low, high⟩, -, h⟩ := Option.bind_eq_some_iff.mp h
  obtain ⟨obsNum, -, h⟩ := Option.bind_eq_some_iff.mp h
  dsimp only at h
  split_ifs at h <;> obtain rfl := Option.some.inj h <;> rfl

lemma recorded_exactCheck {check : PredictionCheck} {obs : Observation} :
    (exactCheck env check obs).any Finding.recorded = textsDiffer env check obs := by
  unfold exactCheck
  split_ifs with h
  · rw [h]
    rfl
  · rw [Bool.not_eq_true] at h
    rw [h]
    rfl

/-- The numeric comparison, and the comparison as texts in its place. -/
lemma recorded_numeric {check : PredictionCheck} {obs : Observation} :
    ((numericCheck env check obs).getD (exactCheck env check obs)).any Finding.recorded =
      (notNumbers env check obs && textsDiffer env check obs) := by
  rcases hnumeric : numericCheck env check obs with _ | found
  · rw [numericCheck_eq_none_iff.mp hnumeric, Bool.true_and]
    exact recorded_exactCheck
  · have hnumbers : notNumbers env check obs = false := by
      rw [← Bool.not_eq_true, ← numericCheck_eq_none_iff, hnumeric]
      exact Option.some_ne_none found
    rw [hnumbers, Bool.false_and]
    exact recorded_of_numericCheck hnumeric

/-- The exits that record their error. -/
lemma recorded_discrepancy (expectation : Option PredictionCheck) (obs : Observation) :
    (discrepancy env expectation obs).any Finding.recorded =
      recordsItself env expectation obs := by
  rcases expectation with _ | check
  · show Option.any _ (if reportsFailure env obs then _ else _) = reportsFailure env obs
    rcases reportsFailure env obs <;> rfl
  · rcases hcheck : check.checkType with _ | _ | _
    · simp only [discrepancy, recordsItself, hcheck]
      exact recorded_numeric
    · simp only [discrepancy, recordsItself, hcheck]
      rcases hrange : rangeCheck env check obs with _ | found
      · rw [rangeCheck_eq_none_iff.mp hrange, Bool.true_and]
        exact recorded_numeric
      · have hbounds : noRange env check obs = false := by
          rw [← Bool.not_eq_true, ← rangeCheck_eq_none_iff, hrange]
          exact Option.some_ne_none found
        rw [hbounds, Bool.false_and, Bool.false_and]
        exact recorded_of_rangeCheck hrange
    · simp only [discrepancy, recordsItself, hcheck]
      rcases regexFails env check obs <;> rfl

/-! ## Runs -/

variable (env) in
/-- No observation of the run records its error twice. -/
def RecordsOnce (engine : Engine) : List Call → Prop
  | [] => True
  | call :: calls =>
    (∀ obs tripleAdd, call = .observe obs tripleAdd →
      recordsItself env (engine.expectations.get? obs.key) obs = false) ∧
    RecordsOnce (engine.perform env call).1 calls

lemma errorHistory_afterError (engine : Engine) (obs : Observation) (tripleAdd : TripleAdd) :
    (engine.afterError obs tripleAdd).errorHistory = engine.errorHistory := by
  have hadapt : (engine.adapt obs).errorHistory = engine.errorHistory := by
    unfold Engine.adapt
    split <;> rfl
  rcases tripleAdd with _ | _ | _
  · unfold Engine.afterError
    dsimp only
    split_ifs
    · exact hadapt
    · rfl
  · exact hadapt
  · rfl

/-- An observation puts its error into the history, once or twice. -/
lemma errorHistory_processObservation (engine : Engine) (obs : Observation)
    (tripleAdd : TripleAdd) :
    (engine.processObservation env obs tripleAdd).1.errorHistory =
      engine.errorHistory.extend
        ((engine.processObservation env obs tripleAdd).2.toList ++
          if recordsItself env (engine.expectations.get? obs.key) obs then
            (engine.processObservation env obs tripleAdd).2.toList else []) ∧
    (recordsItself env (engine.expectations.get? obs.key) obs = true →
      (engine.processObservation env obs tripleAdd).2.isSome) := by
  rw [← recorded_discrepancy]
  unfold Engine.processObservation
  rcases discrepancy env (engine.expectations.get? obs.key) obs with _ | ⟨error, recorded⟩
  · exact ⟨rfl, fun h => nomatch h⟩
  · refine ⟨?_, fun _ => rfl⟩
    show (Engine.afterError _ obs tripleAdd).errorHistory = _
    rw [errorHistory_afterError]
    rcases recorded <;> rfl

/-- After a run the history has got some entries: the returned errors if every error was recorded
once, and more than these otherwise. -/
lemma entries_of_runCalls (engine : Engine) (calls : List Call) :
    ∃ entries, (engine.runCalls env calls).1.errorHistory = engine.errorHistory.extend entries ∧
      (RecordsOnce env engine calls → entries = (engine.runCalls env calls).2) ∧
      (¬ RecordsOnce env engine calls →
        (engine.runCalls env calls).2.length < entries.length) ∧
      (engine.runCalls env calls).2.length ≤ entries.length ∧
      (engine.runCalls env calls).2.length ≤ calls.length := by
  induction calls generalizing engine with
  | nil => exact ⟨[], rfl, fun _ => rfl, fun h => absurd trivial h, le_rfl, le_rfl⟩
  | cons call calls ih =>
    obtain ⟨entries, hhistory, honce, htwice, hle, hcalls⟩ := ih (engine.perform env call).1
    rcases call with check | ⟨obs, tripleAdd⟩
    · refine ⟨entries, hhistory, fun h => honce h.2, fun h => htwice fun hrest => h ⟨?_, hrest⟩,
        hle, Nat.le_succ_of_le hcalls⟩
      exact fun obs tripleAdd heq => nomatch heq
    · obtain ⟨hadded, hsome⟩ := @errorHistory_processObservation env engine obs tripleAdd
      have hreturned : (engine.runCalls env (.observe obs tripleAdd :: calls)).2 =
          (engine.processObservation env obs tripleAdd).2.toList ++
            ((engine.processObservation env obs tripleAdd).1.runCalls env calls).2 := rfl
      have hone : (engine.processObservation env obs tripleAdd).2.toList.length ≤ 1 := by
        rcases (engine.processObservation env obs tripleAdd).2 with _ | error
        · exact Nat.zero_le 1
        · exact le_rfl
      have hrun : (engine.runCalls env (.observe obs tripleAdd :: calls)).1.errorHistory =
          (engine.processObservation env obs tripleAdd).1.errorHistory.extend entries := hhistory
      rw [hadded, ← BoundedDeque.extend_append] at hrun
      rw [hreturned]
      refine ⟨_, hrun, fun h => ?_, fun h => ?_, ?_, ?_⟩
      · rw [h.1 obs tripleAdd rfl, honce h.2, if_neg Bool.false_ne_true, List.append_nil]
        rfl
      · rcases hrecords : recordsItself env (engine.expectations.get? obs.key) obs with _ | _
        · have hrest : ¬ RecordsOnce env (engine.perform env (.observe obs tripleAdd)).1 calls := by
            refine fun hrest => h ⟨fun obs' tripleAdd' heq => ?_, hrest⟩
            obtain ⟨rfl, -⟩ := Call.observe.inj heq
            exact hrecords
          have hlt := htwice hrest
          rw [if_neg Bool.false_ne_true, List.append_nil, List.length_append, List.length_append]
          exact Nat.add_lt_add_left hlt _
        · obtain ⟨error, herror⟩ := Option.isSome_iff_exists.mp (hsome hrecords)
          rw [if_pos rfl, herror]
          simp only [Option.toList_some, List.length_append, List.length_singleton]
          have hle' : ((engine.processObservation env obs tripleAdd).1.runCalls env calls).2.length ≤
            entries.length := hle
          omega
      · simp only [List.length_append]
        have hle' : ((engine.processObservation env obs tripleAdd).1.runCalls env calls).2.length ≤
          entries.length := hle
        omega
      · rw [List.length_append, List.length_cons, Nat.add_comm]
        exact Nat.add_le_add hcalls hone

/-- **The history of the errors.**  After fewer calls than the history has places it is the list of
the returned errors if and only if no observation of the run recorded its error twice. -/
theorem history_eq_returned_iff (env : SensingEnv) {calls : List Call}
    (hcalls : calls.length < 1000) :
    (Engine.runCalls env {} calls).1.errorHistory.items = (Engine.runCalls env {} calls).2 ↔
      RecordsOnce env {} calls := by
  obtain ⟨entries, hhistory, honce, htwice, -, hle⟩ := @entries_of_runCalls env {} calls
  rw [hhistory]
  constructor
  · intro heq
    by_contra hnot
    have hlt := htwice hnot
    have hlength := congrArg List.length heq
    rw [BoundedDeque.length_items_extend] at hlength
    have hempty : ({} : Engine).errorHistory.items.length = 0 := rfl
    omega
  · intro h
    have hentries := honce h
    rw [BoundedDeque.items_extend_of_le, hentries]
    · rfl
    · rw [hentries]
      have hempty : ({} : Engine).errorHistory.items.length = 0 := rfl
      omega

/-- Two readings of a sensor: the first one is a success, the second one misses the number. -/
theorem history_eq_returned_readings :
    let check : PredictionCheck :=
      { checkId := "c", targetEntity := "nas", expectedPredicate := "load", expectedValue := "1.0" }
    let calls : List Call := [.register check, .observe ⟨"nas", "load", "1.0", 0⟩ .absent,
      .observe ⟨"nas", "load", "2.0", 1⟩ .absent]
    (Engine.runCalls .sample {} calls).1.errorHistory.items = (Engine.runCalls .sample {} calls).2 := by
  intro check calls
  refine (history_eq_returned_iff .sample (by decide)).mpr ⟨?_, ?_, ?_, trivial⟩
  · exact fun obs tripleAdd heq => nomatch heq
  · intro obs tripleAdd heq
    obtain ⟨rfl, -⟩ := Call.observe.inj heq
    decide +kernel
  · intro obs tripleAdd heq
    obtain ⟨rfl, -⟩ := Call.observe.inj heq
    decide +kernel

/-- A failure that nothing was expected of is in the history twice. -/
theorem adhoc_recorded_twice :
    let run := Engine.runCalls .sample {} [.observe ⟨"svc", "status", "FAIL", 7⟩ .absent]
    run.2.length = 1 ∧ run.1.errorHistory.items = run.2 ++ run.2 ∧
      run.1.errorHistory.items ≠ run.2 := by
  decide +kernel

end ActiveSensing

end AtlasMemory
