import AtlasMemory.Foundations.PythonTemplate
import AtlasMemory.L3Procedural.SkillCompiler
import Mathlib.Data.Bool.AllAny

/-!
# The texts of a procedure in its handler

The source that `generate_handler` writes is a template with gaps.  `injectionFree_iff`: the source
has the template's tree, with the texts inside its literals, exactly when every literal ends where
the template ends it, all escapes in the literals are complete, and the name of the class does not
start with a digit.
-/

namespace AtlasMemory

open Python

namespace SkillCompiler

/-! ## The template -/

def unlines (lines : List String) : List Char := lines.flatMap fun l => l.toList ++ ['\n']

variable (fmt : TextFormat)

/-- The text of the docstring of the module. -/
def docstringBody (sop : StandardProcedure) : List Char :=
  '\n' :: unlines
    ["Autogenerated Continuous Operator Graph Handler (ParametricDistributionGraph) for SOP: " ++
        sop.name,
      "Procedure ID: " ++ sop.procedureId,
      "Success Rate: " ++ fmt.fixed2 sop.successRate ++ " (" ++ decimal sop.invocationsCount ++
        " runs)",
      "Paradigm: Continuous Parametric Distribution Graph with Thermal Potential Drop"]

/-- The module's docstring and imports, and the class up to its methods. -/
def headParts (sop : StandardProcedure) : List Part :=
  [.gap (.literal '"' true (docstringBody fmt sop))
      ('\n' :: (unlines importLines ++ "class ".toList)),
    .gap (.name (className sop)) (":".toList ++ '\n' :: "    ".toList),
    .gap (.literal '"' true ("Executable Continuous Operator Graph for " ++ sop.name ++ ".").toList)
      ('\n' :: (unlines ("" :: initLines) ++
        "        self.steps_distributions: List[Dict[str, Any]] = ".toList)),
    .gap (.value (stepsDist sop)) ('\n' :: unlines methodLines)]

def stepDocstring (i : ℕ) (step : Step) : List Char :=
  ("Step " ++ decimal (i + 1) ++ ": Execute tool " ++ quoted step.toolName ++ ".").toList ++ '\n' ::
    (unlines ["        Expected outcome: " ++ expected step,
      "        Nominal params: " ++ reprText fmt (.obj step.paramsPattern)] ++ "        ".toList)

def inQuotes (s : String) (after : List Char) : Part := .gap (.literal '\'' false s.toList) after

/-- The method of the step with `i` steps before it. -/
def stepParts (i : ℕ) (step : Step) : List Part :=
  let idx := decimal (i + 1)
  let toolName := step.toolName
  [.code "    def ".toList,
    .gap (.name (stepFn i).toList)
      (unlines ["(self, **kwargs) -> Dict[str, Any]:"] ++ "        ".toList),
    .gap (.literal '"' true (stepDocstring fmt i step)) ('\n' :: "        logger.info(".toList),
    inQuotes ("Executing continuous operator step " ++ idx ++ ": " ++ toolName)
      (unlines [")", "        merged = dict(kwargs)"] ++ "        nominal_params = ".toList),
    .gap (.value (.obj step.paramsPattern))
      ('\n' :: (unlines ["        for k, v in nominal_params.items():",
        "            if k not in merged:", "                merged[k] = v"] ++
        "        eff_params = self.sample_parameters(".toList)),
    .gap (.number i) (unlines [", merged, self.cognitive_temperature)", "        try:"] ++
      "            result = \x7b'tool': ".toList),
    inQuotes toolName (unlines [", 'status': 'completed', 'params': eff_params, " ++
      "'temperature': self.cognitive_temperature\x7d"] ++
      "            self.step_results[".toList),
    inQuotes (stepFn i) (unlines ["] = result", "            return result",
      "        except Exception as err:"] ++ "            logger.warning(".toList),
    inQuotes ("Thermal Potential Drop triggered in step " ++ idx ++ " (" ++ toolName ++ "): %s")
      (unlines [", err)",
        "            # Ograniczenie temperatury sufitem max_temperature (ochrona przed hipertermią)",
        "            self.cognitive_temperature = " ++
          "min(self.max_temperature, self.cognitive_temperature + self.delta_temperature)"] ++
        "            adapted_params = self.sample_parameters(".toList),
    .gap (.number i) (unlines [", eff_params, self.cognitive_temperature)",
      "            if callable(self.adaptation_hook):"] ++
      "                adapted_action = self.adaptation_hook(".toList),
    inQuotes toolName (unlines [", adapted_params, err)",
      "                result = \x7b'tool': '\x7btool_name\x7d', 'status': 'adapted', " ++
        "'adapted_action': adapted_action, 'temperature': self.cognitive_temperature\x7d",
      "            else:"] ++ "                result = \x7b'tool': ".toList),
    inQuotes toolName (unlines [", 'status': 'adapted', 'params': adapted_params, " ++
      "'temperature': self.cognitive_temperature, 'adaptation_reason': str(err)\x7d"] ++
      "            self.step_results[".toList),
    inQuotes (stepFn i) (unlines ["] = result", "            return result", ""])]

/-- The call of the step with `i` steps before it. -/
def runStepParts (i : ℕ) : List Part :=
  [.code (unlines ["        try:"] ++ "            step_out = self.".toList),
    .gap (.name (stepFn i).toList)
      (unlines ["(**kwargs)"] ++ "            overall_results[".toList),
    inQuotes (stepFn i) (unlines ["] = step_out", "        except Exception as exc:",
      "            self.cognitive_temperature += self.delta_temperature"] ++
      "            logger.warning(".toList),
    inQuotes ("Fallback at step " ++ decimal (i + 1) ++ ": %s (Temp: %s)")
      (unlines [", exc, self.cognitive_temperature)"] ++ "            overall_results[".toList),
    inQuotes (stepFn i) (unlines
      ["] = \x7b'status': 'adapted', 'temperature': self.cognitive_temperature, " ++
        "'error': str(exc)\x7d"])]

/-- The body of `run`. -/
def runBodyParts (sop : StandardProcedure) : List Part :=
  if sop.steps.isEmpty then [.code (unlines [returnEmptyLine])]
  else (List.range sop.steps.length).flatMap runStepParts ++ [.code (unlines [returnLine])]

/-- The template with the texts of a procedure. -/
def template (sop : StandardProcedure) : List Part :=
  headParts fmt sop ++ sop.steps.zipIdx.flatMap (fun s => stepParts fmt s.2 s.1) ++
    [.code (unlines runLines)] ++ runBodyParts sop

/-! ## The source is the filled template -/

lemma toList_joined : ∀ lines : List String, lines ≠ [] →
    (String.intercalate "\n" lines ++ "\n").toList = unlines lines := by
  intro lines
  induction lines with
  | nil =>
      intro h
      exact absurd rfl h
  | cons l ls ih =>
      intro _
      cases ls with
      | nil => simp [unlines]
      | cons l' ls =>
          have hrest := ih (List.cons_ne_nil l' ls)
          rw [String.intercalate_cons_cons, String.append_assoc, String.toList_append, hrest]
          simp [unlines]

lemma unlines_append (a b : List String) : unlines (a ++ b) = unlines a ++ unlines b :=
  List.flatMap_append

lemma unlines_cons (l : String) (ls : List String) :
    unlines (l :: ls) = l.toList ++ '\n' :: unlines ls := by
  simp [unlines]

lemma unlines_nil : unlines [] = [] := rfl

lemma toList_quoted (s : String) : (quoted s).toList = '\'' :: (s.toList ++ ['\'']) := by
  simp [quoted]

lemma toList_docQuote : docQuote.toList = ['"', '"', '"'] := by simp [docQuote]

variable {fmt}

lemma toList_empty : "".toList = [] := rfl

lemma toList_reprText (v : Json) : (reprText fmt v).toList = reprValue fmt.isPrintable v := by
  rw [reprText, String.toList_ofList]

lemma render_runStepParts (i : ℕ) :
    (runStepParts i).flatMap (·.render fmt.isPrintable) = unlines (runStepLines i) := by
  simp only [runStepParts, runStepLines, inQuotes, unlines_cons, unlines_nil, toList_quoted,
    List.flatMap_cons, List.flatMap_nil, Part.render, Filling.text, delimiter,
    String.toList_append, List.append_assoc, List.cons_append, List.nil_append, List.append_nil,
    Bool.false_eq_true, if_false]

lemma render_stepParts (i : ℕ) (step : Step) :
    (stepParts fmt i step).flatMap (·.render fmt.isPrintable) = unlines (stepLines fmt i step) := by
  simp only [stepParts, stepLines, inQuotes, stepDocstring, unlines_cons, unlines_nil,
    toList_quoted, toList_docQuote, toList_reprText, toList_empty, decimal, String.toList_ofList,
    List.flatMap_cons, List.flatMap_nil, Part.render, Filling.text, delimiter,
    String.toList_append, List.append_assoc, List.cons_append, List.nil_append, List.append_nil,
    Bool.false_eq_true, if_false, if_true]

lemma toList_distributionLine (sop : StandardProcedure) :
    (distributionLine fmt sop).toList =
      "        self.steps_distributions: List[Dict[str, Any]] = ".toList ++
        reprValue fmt.isPrintable (stepsDist sop) := by
  have hline : distributionLine fmt sop =
      "        self.steps_distributions: List[Dict[str, Any]] = " ++
        reprText fmt (stepsDist sop) := rfl
  rw [hline, String.toList_append, toList_reprText]

lemma render_headParts (sop : StandardProcedure) :
    (headParts fmt sop).flatMap (·.render fmt.isPrintable) =
      unlines (docstringLines fmt sop ++ importLines ++ classLines sop ++ initLines ++
        [distributionLine fmt sop] ++ methodLines) := by
  simp only [headParts, docstringBody, docstringLines, classLines, toList_distributionLine,
    unlines_append, unlines_cons, unlines_nil, toList_docQuote, toList_empty,
    String.toList_ofList, List.flatMap_cons, List.flatMap_nil, Part.render, Filling.text,
    delimiter, String.toList_append, List.append_assoc, List.cons_append, List.nil_append,
    List.append_nil, if_true]

lemma render_runBodyParts (sop : StandardProcedure) :
    (runBodyParts sop).flatMap (·.render fmt.isPrintable) = unlines (runBodyLines sop) := by
  unfold runBodyParts runBodyLines
  split_ifs with h
  · simp [Part.render]
  · rw [List.flatMap_append, unlines_append, List.flatMap_assoc]
    have hsteps : ∀ is : List ℕ, is.flatMap
        (fun i => (runStepParts i).flatMap (·.render fmt.isPrintable)) =
          unlines (is.flatMap runStepLines) := by
      intro is
      induction is with
      | nil => rfl
      | cons i is ih =>
          rw [List.flatMap_cons, List.flatMap_cons, unlines_append, ih, render_runStepParts]
    rw [hsteps]
    simp [Part.render]

lemma toList_generateHandler (sop : StandardProcedure) :
    (generateHandler fmt sop).toList =
      (template fmt sop).flatMap (·.render fmt.isPrintable) := by
  have hsteps : ∀ steps : List (Step × ℕ), (steps.flatMap fun s => stepParts fmt s.2 s.1).flatMap
      (·.render fmt.isPrintable) = unlines (steps.flatMap fun s => stepLines fmt s.2 s.1) := by
    intro steps
    induction steps with
    | nil => rfl
    | cons s ss ih =>
        rw [List.flatMap_cons, List.flatMap_append, List.flatMap_cons, unlines_append, ih,
          render_stepParts]
  have hne : handlerLines fmt sop ≠ [] := by simp [handlerLines, docstringLines]
  rw [generateHandler, toList_joined _ hne, handlerLines, template]
  rw [List.flatMap_append, List.flatMap_append, List.flatMap_append, render_headParts, hsteps,
    render_runBodyParts, unlines_append, unlines_append, unlines_append]
  simp [Part.render]

/-! ## The template is well formed -/

/-- The fixed texts of the template, each a closed fact about its characters. -/
lemma wellFormed_fixedTexts :
    followsGap ('\n' :: (unlines importLines ++ "class ".toList)) ∧
      followsGap ('\n' :: (unlines ("" :: initLines) ++
        "        self.steps_distributions: List[Dict[str, Any]] = ".toList)) ∧
      followsGap ('\n' :: unlines methodLines) ∧ isCode (unlines runLines) ∧
      isCode (unlines [returnEmptyLine]) ∧ isCode (unlines [returnLine]) := by
  have hline : returnLine =
      "        return \x7b'status': 'completed', 'results': overall_results, 'final_temperature': " ++
        "self.cognitive_temperature\x7d" := rfl
  simp only [importLines, initLines, methodLines, runLines, returnEmptyLine, hline, unlines_cons,
    unlines_nil, String.toList_append]
  repeat rw [String.toList_ofList]
  decide +kernel

lemma isWordChar_of_isAsciiWord {c : Char} (h : isAsciiWord c) : isWordChar c := by
  simp only [isAsciiWord, Bool.or_eq_true] at h
  simp only [isWordChar, Bool.or_eq_true]
  tauto

lemma isAsciiWord_sanitize (name : List Char) : ∀ c ∈ sanitizeIdentifier name, isAsciiWord c := by
  have hclean : ∀ c ∈ name.map fun c => if isAsciiWord c then c else '_', isAsciiWord c := by
    intro c hc
    obtain ⟨d, -, rfl⟩ := List.mem_map.mp hc
    split_ifs with hd
    · exact hd
    · decide
  unfold sanitizeIdentifier
  dsimp only
  split_ifs
  · exact List.forall_mem_append.mpr ⟨List.all_iff_forall_prop.mp (by decide), hclean⟩
  · exact hclean

lemma isAsciiWord_title : ∀ (afterLetter : Bool) (cs : List Char),
    (∀ c ∈ cs, isAsciiWord c) → ∀ c ∈ title afterLetter cs, isAsciiWord c := by
  have hcase : ∀ n < 128, isAsciiWord (Char.ofNat n) →
      isAsciiWord (Char.ofNat n).toLower ∧ isAsciiWord (Char.ofNat n).toUpper := by decide
  have hchange : ∀ c, isAsciiWord c → isAsciiWord c.toLower ∧ isAsciiWord c.toUpper := by
    intro c hc
    have hlt : c.toNat < 128 := by
      simp only [isAsciiWord, Bool.or_eq_true, Bool.and_eq_true, decide_eq_true_eq] at hc
      rcases hc with ((⟨-, h⟩ | ⟨-, h⟩) | ⟨-, h⟩) | rfl
      · exact Nat.lt_of_le_of_lt (show c.toNat ≤ ('9' : Char).toNat from h) (by decide)
      · exact Nat.lt_of_le_of_lt (show c.toNat ≤ ('z' : Char).toNat from h) (by decide)
      · exact Nat.lt_of_le_of_lt (show c.toNat ≤ ('Z' : Char).toNat from h) (by decide)
      · decide
    have hof := hcase c.toNat hlt
    rw [Char.ofNat_toNat] at hof
    exact hof hc
  intro afterLetter cs
  induction cs generalizing afterLetter with
  | nil => nofun
  | cons c cs ih =>
      intro h
      obtain ⟨hlower, hupper⟩ := hchange c (h c List.mem_cons_self)
      refine List.forall_mem_cons.mpr ⟨?_, ih _ fun d hd => h d (List.mem_cons_of_mem _ hd)⟩
      split_ifs
      · exact hlower
      · exact hupper

lemma ok_className (sop : StandardProcedure) : (Filling.name (className sop)).Ok := by
  constructor
  · simp [className]
  · intro c hc
    rcases List.mem_append.mp hc with hc | hc
    · exact isWordChar_of_isAsciiWord
        (isAsciiWord_title _ _ (isAsciiWord_sanitize _) c (List.mem_of_mem_filter hc))
    · exact List.all_eq_true.mp (by decide : "Handler".toList.all isWordChar = true) c hc

lemma wordLexeme_stepFn (i : ℕ) : wordLexeme (stepFn i).toList = .name (stepFn i).toList := by
  rw [stepFn, String.toList_append]
  rfl

lemma ok_stepFn (i : ℕ) : (Filling.name (stepFn i).toList).Ok := by
  have hdigits : (decimal (i + 1)).toList = NumberLit.decimal (i + 1) := String.toList_ofList
  rw [stepFn, String.toList_append, hdigits]
  refine ⟨by simp, List.forall_mem_append.mpr ⟨?_, isWordChar_decimal⟩⟩
  exact List.all_eq_true.mp (by decide : "step_".toList.all isWordChar = true)

lemma ok_headParts (sop : StandardProcedure) : ∀ p ∈ headParts fmt sop, p.Ok := by
  simp only [headParts, List.forall_mem_cons]
  obtain ⟨himports, hinits, hmethods, -⟩ := wellFormed_fixedTexts
  refine ⟨⟨rfl, himports⟩, ⟨ok_className sop, ?_⟩, ⟨rfl, hinits⟩, ⟨trivial, hmethods⟩, nofun⟩
  repeat rw [String.toList_ofList]
  decide

lemma ok_runStepParts (i : ℕ) : ∀ p ∈ runStepParts i, p.Ok := by
  simp only [runStepParts, inQuotes, List.forall_mem_cons, unlines_cons, unlines_nil,
    String.toList_append]
  refine ⟨?_, ⟨ok_stepFn i, ?_⟩, ⟨rfl, ?_⟩, ⟨rfl, ?_⟩, ⟨rfl, ?_⟩, nofun⟩
  all_goals
    show _ = true
    repeat rw [String.toList_ofList]
    decide

lemma ok_stepParts (i : ℕ) (step : Step) : ∀ p ∈ stepParts fmt i step, p.Ok := by
  simp only [stepParts, inQuotes, List.forall_mem_cons, unlines_cons, unlines_nil,
    String.toList_append]
  refine ⟨?_, ⟨ok_stepFn i, ?_⟩, ⟨rfl, ?_⟩, ⟨rfl, ?_⟩, ⟨trivial, ?_⟩, ⟨trivial, ?_⟩,
    ⟨rfl, ?_⟩, ⟨rfl, ?_⟩, ⟨rfl, ?_⟩, ⟨trivial, ?_⟩, ⟨rfl, ?_⟩,
    ⟨rfl, ?_⟩, ⟨rfl, ?_⟩, nofun⟩
  all_goals
    show _ = true
    repeat rw [String.toList_ofList]
    decide +kernel

lemma ok_runBodyParts (sop : StandardProcedure) : ∀ p ∈ runBodyParts sop, p.Ok := by
  obtain ⟨-, -, -, -, hempty, hreturn⟩ := wellFormed_fixedTexts
  unfold runBodyParts
  split_ifs
  · exact List.forall_mem_singleton.mpr hempty
  · refine List.forall_mem_append.mpr ⟨?_, List.forall_mem_singleton.mpr hreturn⟩
    intro p hp
    obtain ⟨i, -, hi⟩ := List.mem_flatMap.mp hp
    exact ok_runStepParts i p hi

/-- The template is well formed, whatever texts the procedure has. -/
lemma ok_template (sop : StandardProcedure) : ∀ p ∈ template fmt sop, p.Ok := by
  have hsteps : ∀ p ∈ sop.steps.zipIdx.flatMap (fun s => stepParts fmt s.2 s.1), p.Ok := by
    intro p hp
    obtain ⟨s, -, hs⟩ := List.mem_flatMap.mp hp
    exact ok_stepParts s.2 s.1 p hs
  obtain ⟨-, -, -, hrun, -⟩ := wellFormed_fixedTexts
  exact List.forall_mem_append.mpr ⟨List.forall_mem_append.mpr ⟨List.forall_mem_append.mpr
    ⟨ok_headParts sop, hsteps⟩, List.forall_mem_singleton.mpr hrun⟩, ok_runBodyParts sop⟩

lemma getLast?_unlines (l : String) : (unlines [l]).getLast? = some '\n' := by
  simp [unlines]

lemma getLast?_template (sop : StandardProcedure) :
    ((template fmt sop).flatMap (·.readText fmt.isPrintable)).getLast? = some '\n' := by
  obtain ⟨front, l, hshape⟩ : ∃ front l, template fmt sop = front ++ [.code (unlines [l])] := by
    unfold template runBodyParts
    split_ifs
    · exact ⟨_, _, rfl⟩
    · exact ⟨_, _, (List.append_assoc _ _ _).symm⟩
  rw [hshape, List.flatMap_append, List.flatMap_singleton, List.getLast?_append]
  show ((unlines [l]).getLast?.or _) = _
  rw [getLast?_unlines]
  rfl

/-! ## Injection -/

/-- The lexemes of the template, with the texts inside its literals. -/
def templateLexemes (fmt : TextFormat) (sop : StandardProcedure) : List Lexeme :=
  (template fmt sop).flatMap (·.lexemes fmt.isPrintable)

/-- The source has the tree of the template, whatever the grammar makes of the lexemes. -/
def InjectionFree (fmt : TextFormat) (isCharName : List Char → Bool) (sop : StandardProcedure) :
    Prop :=
  ∀ tree m, tree (templateLexemes fmt sop) = some m →
    (Grammar.mk isCharName tree).parse (generateHandler fmt sop).toList = some m

/-- The name of the class does not start with a digit; each text that stands in a literal has no
null character, does not end the literal, and has complete escapes only. -/
def TextsFit (fmt : TextFormat) (isCharName : List Char → Bool) (sop : StandardProcedure) : Prop :=
  ∀ p ∈ template fmt sop, p.Fits ∧ p.EscapesOk isCharName

/-- **The texts of a procedure leave the tree of its handler alone** exactly when they fit into the
literals that they are put into. -/
theorem injectionFree_iff (fmt : TextFormat) (isCharName : List Char → Bool)
    (sop : StandardProcedure) :
    InjectionFree fmt isCharName sop ↔ TextsFit fmt isCharName sop := by
  unfold InjectionFree templateLexemes
  rw [toList_generateHandler]
  exact parse_render_iff (ok_template sop) (getLast?_template sop)

/-- A procedure of one step, whose tool has an apostrophe in its name. -/
def apostropheProcedure : StandardProcedure where
  procedureId := "sop_0123abcd"
  name := "SOP: it's"
  steps := [⟨"it's", [], none, []⟩]
  successRate := 1
  invocationsCount := 1
  rate_nonneg := by decide +kernel
  rate_le_one := by decide
  one_le_count := by decide

/-- The apostrophe ends the literals that the name of the tool is put into. -/
theorem apostropheProcedure_not_injectionFree :
    ¬InjectionFree ⟨fun _ => true, fun _ => "1.00"⟩ (fun _ => false) apostropheProcedure := by
  intro h
  unfold InjectionFree templateLexemes at h
  rw [toList_generateHandler] at h
  have hfits := (parse_render_iff (ok_template _) (getLast?_template _)).mp h
  have hmem : ∃ after, inQuotes "it's" after ∈
      stepParts ⟨fun _ => true, fun _ => "1.00"⟩ 0 ⟨"it's", [], none, []⟩ := by
    apply Exists.intro
    iterate 6 apply List.mem_cons_of_mem
    exact List.mem_cons_self
  obtain ⟨after, hstep⟩ := hmem
  have hpart : inQuotes "it's" after ∈
      template ⟨fun _ => true, fun _ => "1.00"⟩ apostropheProcedure :=
    List.mem_append_left _ (List.mem_append_left _ (List.mem_append_right _
      (List.mem_flatMap.mpr ⟨(⟨"it's", [], none, []⟩, 0), List.mem_singleton_self _, hstep⟩)))
  exact absurd (hfits _ hpart).1.2 (by decide)

end SkillCompiler

end AtlasMemory
