import AtlasMemory.Hermes.Trajectory

/-!
# Verdicts and protocol signals

The verdict on a tool message is compared with the explicit signals of the message, its error flag
and its exit code.  A message with a signal of success and no signal of failure should be judged a
success, and one with a signal of failure a failure, whatever the text and the parameters contain.
The envelope mixes the signals of the text and of the parameters with the explicit ones;
`Undisturbed` says when they do not change the verdict.
-/

namespace AtlasMemory

namespace Trajectory

variable (env : ExtractorEnv)

/-- The exit code of the message, if it is a number. -/
def explicitCode (rawMsg : PyDict String Json) : Option ℤ :=
  (rawMsg.get? "exit_code").bind fun v =>
    match env.toInt v with
    | .value n => some n
    | .refused | .overflow => none

/-- There is a signal of success and none of failure. -/
def SignalsSuccess (rawMsg : PyDict String Json) : Prop :=
  (explicitError env rawMsg = some false ∨ explicitCode env rawMsg = some 0) ∧
    explicitError env rawMsg ≠ some true ∧ ∀ n, explicitCode env rawMsg = some n → n = 0

/-- There is a signal of failure. -/
def SignalsFailure (rawMsg : PyDict String Json) : Prop :=
  explicitError env rawMsg = some true ∨ ∃ n, explicitCode env rawMsg = some n ∧ n ≠ 0

/-- The verdict follows the signals. -/
def ObjectiveVerdict (text toolName : String) (params rawMsg : PyDict String Json) : Prop :=
  (SignalsSuccess env rawMsg → verdict env text toolName params rawMsg = some (true, none)) ∧
    (SignalsFailure env rawMsg →
      ∃ error, verdict env text toolName params rawMsg = some (false, some error))

/-- The text and the parameters leave the signals alone: the exit code that is read can be read, and
* a message that is flagged as an error has a text, or no exit code zero is read;
* a message without the error flag but with another exit code than zero has a text;
* without a flag, the text of a message with exit code zero reports no error as a JSON payload;
* without an exit code, a message that is flagged as no error has no text, or the exit code zero is
  read elsewhere, or none is and the text does not report a timeout. -/
def Undisturbed (text : String) (params rawMsg : PyDict String Json) : Prop :=
  ∃ code, exitCode env text params rawMsg = some code ∧
    match explicitError env rawMsg, explicitCode env rawMsg with
    | some true, _ => PyString.strip text = "" → code ≠ some 0
    | some false, some n => n ≠ 0 → PyString.strip text ≠ ""
    | none, some n => n = 0 → ∀ message, inspectPayload env text ≠ .error message
    | some false, none =>
      PyString.strip text ≠ "" → code = some 0 ∨ (code = none ∧ env.timedOut text = false)
    | none, none => True

/-! ## The verdict on an envelope -/

/-- The envelopes that are judged a success. -/
def Succeeds (envelope : ToolExecutionResult) : Prop :=
  if PyString.strip envelope.output = "" then
    envelope.isError = some false ∨ envelope.exitCode = some 0
  else envelope.isError ≠ some true ∧
    (envelope.exitCode = some 0 ∨ (envelope.exitCode = none ∧ envelope.timedOut = false))

lemma judgeResult_of_succeeds {envelope : ToolExecutionResult} (h : Succeeds envelope) :
    judgeResult envelope = (true, none) := by
  unfold Succeeds at h
  unfold judgeResult
  dsimp only
  by_cases hblank : PyString.strip envelope.output = ""
  · rw [if_pos hblank] at h ⊢
    rw [if_pos h]
  · rw [if_neg hblank] at h ⊢
    rw [if_neg h.1]
    rcases h.2 with hcode | ⟨hcode, htime⟩
    · rw [hcode]
      rfl
    · rw [hcode, htime]
      rfl

lemma judgeResult_of_not_succeeds {envelope : ToolExecutionResult} (h : ¬ Succeeds envelope) :
    ∃ error, judgeResult envelope = (false, some error) := by
  unfold Succeeds at h
  unfold judgeResult
  dsimp only
  by_cases hblank : PyString.strip envelope.output = ""
  · rw [if_pos hblank] at h ⊢
    exact ⟨_, if_neg h⟩
  · rw [if_neg hblank] at h ⊢
    by_cases herror : envelope.isError = some true
    · have hfound : ∃ error, [envelope.errorMessage.getD "",
          String.ofList ((PyString.strip envelope.output).toList.take 200),
          "tool_flagged_error"].find? (· ≠ "") = some error := by
        refine Option.isSome_iff_exists.mp (List.find?_isSome.mpr ⟨"tool_flagged_error", ?_, ?_⟩)
        · simp
        · decide
      obtain ⟨error, hfound⟩ := hfound
      rw [if_pos herror, hfound]
      exact ⟨error, rfl⟩
    · rw [if_neg herror]
      rcases hcode : envelope.exitCode with _ | code
      · rcases htime : envelope.timedOut with _ | _
        · exact absurd ⟨herror, Or.inr ⟨hcode, htime⟩⟩ h
        · exact ⟨_, rfl⟩
      · have hne : code ≠ 0 := by
          rintro rfl
          exact h ⟨herror, Or.inl hcode⟩
        dsimp only
        rw [if_neg hne]
        exact ⟨_, rfl⟩

lemma judgeResult_iff (envelope : ToolExecutionResult) :
    (judgeResult envelope = (true, none) ↔ Succeeds envelope) ∧
      ((∃ error, judgeResult envelope = (false, some error)) ↔ ¬ Succeeds envelope) := by
  by_cases h : Succeeds envelope
  · have hjudge := judgeResult_of_succeeds h
    refine ⟨iff_of_true hjudge h, iff_of_false ?_ (not_not.mpr h)⟩
    rintro ⟨error, herror⟩
    rw [hjudge] at herror
    exact Bool.false_ne_true (congrArg Prod.fst herror).symm
  · obtain ⟨error, hjudge⟩ := judgeResult_of_not_succeeds h
    refine ⟨iff_of_false ?_ h, iff_of_true ⟨error, hjudge⟩ h⟩
    intro hsuccess
    rw [hjudge] at hsuccess
    exact Bool.false_ne_true (congrArg Prod.fst hsuccess)

/-! ## The verdict on a message -/

variable {env} {text toolName : String} {params rawMsg : PyDict String Json}

def flagOf (env : ExtractorEnv) (text : String) (rawMsg : PyDict String Json) : Option Bool :=
  match explicitError env rawMsg, inspectPayload env text with
  | some flag, _ => some flag
  | none, .error _ => some true
  | none, .success => some false
  | none, .silent => none

lemma verdict_iff {code : Option ℤ} (hcode : exitCode env text params rawMsg = some code) :
    (verdict env text toolName params rawMsg = some (true, none) ↔
      if PyString.strip text = "" then flagOf env text rawMsg = some false ∨ code = some 0
      else flagOf env text rawMsg ≠ some true ∧
        (code = some 0 ∨ (code = none ∧ env.timedOut text = false))) ∧
    ((∃ error, verdict env text toolName params rawMsg = some (false, some error)) ↔
      ¬ if PyString.strip text = "" then flagOf env text rawMsg = some false ∨ code = some 0
        else flagOf env text rawMsg ≠ some true ∧
          (code = some 0 ∨ (code = none ∧ env.timedOut text = false))) := by
  unfold verdict fromRaw
  rw [hcode]
  simp only [Option.map_some, Option.some.injEq]
  exact judgeResult_iff _

lemma inspectPayload_of_blank (h : PyString.strip text = "") :
    inspectPayload env text = .silent := by
  unfold inspectPayload
  rw [h]
  rfl

lemma exitCode_of_explicitCode {n : ℤ} (h : explicitCode env rawMsg = some n) :
    exitCode env text params rawMsg = some (some n) := by
  obtain ⟨v, hv, hn⟩ := Option.bind_eq_some_iff.mp h
  unfold exitCode
  rw [hv]
  dsimp only
  rcases hint : env.toInt v with m | _ | _
  · rw [hint] at hn
    rw [Option.some.inj hn]
  · rw [hint] at hn
    exact nomatch hn
  · rw [hint] at hn
    exact nomatch hn

lemma verdict_eq_none (h : exitCode env text params rawMsg = none) :
    verdict env text toolName params rawMsg = none := by
  unfold verdict fromRaw
  rw [h]
  rfl

/-- A message that must be judged a success. -/
lemma verdict_of_signalsSuccess (h : SignalsSuccess env rawMsg) :
    verdict env text toolName params rawMsg = some (true, none) ↔
      Undisturbed env text params rawMsg := by
  obtain ⟨hsignal, hflag, hcodes⟩ := h
  unfold Undisturbed
  rcases hread : exitCode env text params rawMsg with _ | code
  · rw [verdict_eq_none hread]
    exact iff_of_false (fun heq => nomatch heq) fun ⟨code, heq, _⟩ => nomatch heq
  · rw [(verdict_iff hread).1]
    rcases hexplicit : explicitCode env rawMsg with _ | n
    · -- without an exit code the flag says that there is no error
      have herror : explicitError env rawMsg = some false := by
        rcases hsignal with herror | hzero
        · exact herror
        · rw [hexplicit] at hzero
          exact nomatch hzero
      have hflagOf : flagOf env text rawMsg = some false := by
        unfold flagOf
        rw [herror]
      rw [herror, hflagOf]
      simp only [Option.some.injEq, exists_eq_left']
      split_ifs with hblank <;> simp [hblank]
    · obtain rfl := hcodes n hexplicit
      rw [exitCode_of_explicitCode hexplicit] at hread
      obtain rfl := Option.some.inj hread
      rcases herror : explicitError env rawMsg with _ | flag
      · simp only [Option.some.injEq, exists_eq_left']
        by_cases hblank : PyString.strip text = ""
        · rw [if_pos hblank, inspectPayload_of_blank hblank]
          simp
        · rw [if_neg hblank]
          unfold flagOf
          rw [herror]
          rcases inspectPayload env text with message | _ | _ <;> simp
      · rcases flag with _ | _
        · have hflagOf : flagOf env text rawMsg = some false := by
            unfold flagOf
            rw [herror]
          rw [hflagOf]
          simp
        · exact absurd herror hflag

/-- A message that must be judged a failure. -/
lemma verdict_of_signalsFailure (h : SignalsFailure env rawMsg) :
    (∃ error, verdict env text toolName params rawMsg = some (false, some error)) ↔
      Undisturbed env text params rawMsg := by
  unfold Undisturbed
  rcases hread : exitCode env text params rawMsg with _ | code
  · rw [verdict_eq_none hread]
    exact iff_of_false (fun ⟨error, heq⟩ => nomatch heq) fun ⟨code, heq, _⟩ => nomatch heq
  · rw [(verdict_iff hread).2]
    by_cases htrue : explicitError env rawMsg = some true
    · have hflagOf : flagOf env text rawMsg = some true := by
        unfold flagOf
        rw [htrue]
      rw [htrue, hflagOf]
      simp only [Option.some.injEq, exists_eq_left']
      split_ifs with hblank <;> simp [hblank]
    · obtain ⟨n, hexplicit, hn⟩ := h.resolve_left htrue
      rw [exitCode_of_explicitCode hexplicit] at hread
      obtain rfl := Option.some.inj hread
      rw [hexplicit]
      rcases herror : explicitError env rawMsg with _ | flag
      · simp only [Option.some.injEq, exists_eq_left']
        by_cases hblank : PyString.strip text = ""
        · have hflagOf : flagOf env text rawMsg = none := by
            unfold flagOf
            rw [herror, inspectPayload_of_blank hblank]
          rw [if_pos hblank, hflagOf]
          simp [hn]
        · rw [if_neg hblank]
          simp [hn]
      · rcases flag with _ | _
        · have hflagOf : flagOf env text rawMsg = some false := by
            unfold flagOf
            rw [herror]
          rw [hflagOf]
          simp only [Option.some.injEq, exists_eq_left']
          split_ifs with hblank <;> simp [hblank, hn]
        · exact absurd herror htrue

/-- **Verdicts.**  The verdict on a message follows its explicit signals if and only if the text and
the parameters leave the signals alone, or there are none. -/
theorem verdict_objective_iff (env : ExtractorEnv) (text toolName : String)
    (params rawMsg : PyDict String Json) :
    ObjectiveVerdict env text toolName params rawMsg ↔
      (SignalsSuccess env rawMsg ∨ SignalsFailure env rawMsg →
        Undisturbed env text params rawMsg) := by
  constructor
  · rintro ⟨hsuccess, hfailure⟩ (h | h)
    · exact (verdict_of_signalsSuccess h).mp (hsuccess h)
    · exact (verdict_of_signalsFailure h).mp (hfailure h)
  · intro h
    exact ⟨fun hsuccess => (verdict_of_signalsSuccess hsuccess).mpr (h (Or.inl hsuccess)),
      fun hfailure => (verdict_of_signalsFailure hfailure).mpr (h (Or.inr hfailure))⟩

/-- A text that a tool has read, and the flag that there was no error. -/
theorem verdict_follows_text :
    verdict .sample "exit code: 1" "read_file" ∅ (dictOf [("is_error", .bool false)]) =
        some (false, some "exit_code=1") ∧
      ¬ ObjectiveVerdict .sample "exit code: 1" "read_file" ∅
        (dictOf [("is_error", .bool false)]) := by
  have hverdict : verdict .sample "exit code: 1" "read_file" ∅
      (dictOf [("is_error", .bool false)]) = some (false, some "exit_code=1") := by
    decide +kernel
  refine ⟨hverdict, fun h => ?_⟩
  have hsuccess := h.1 ⟨Or.inl (by decide +kernel), by decide +kernel, fun n hn => ?_⟩
  · rw [hverdict] at hsuccess
    exact Bool.false_ne_true (congrArg Prod.fst (Option.some.inj hsuccess))
  · have hnone : explicitCode .sample (dictOf [("is_error", .bool false)]) = none := by
      decide +kernel
    rw [hnone] at hn
    exact nomatch hn

end Trajectory

end AtlasMemory
