import AtlasMemory.Foundations.PythonRepr
import Mathlib.Data.Rat.Init

/-!
# The source of a skill

`generate_handler`: the Python source that the skill compiler writes for a standard procedure.  The
texts of the procedure, its name and identifier and the tools and expected outcomes of its steps,
are put into docstrings and string literals of the source as they are; parameters are put in as
their `repr`, and into a docstring as well.  The values of parameters are those that JSON has.
-/

namespace AtlasMemory

open Python

/-- A step of a procedure, with the fields that the handler is made from. -/
structure Step where
  toolName : String
  paramsPattern : List (String × Json)
  expectedOutcome : Option String
  distributionSpace : List (String × Json)

/-- A standard procedure, with the fields that the handler is made from. -/
structure StandardProcedure where
  procedureId : String
  name : String
  steps : List Step
  successRate : ℚ
  invocationsCount : ℕ
  rate_nonneg : 0 ≤ successRate
  rate_le_one : successRate ≤ 1
  one_le_count : 1 ≤ invocationsCount

/-- What printing takes from elsewhere: which characters beyond ASCII are printable, and `:.2f`. -/
structure TextFormat where
  isPrintable : Char → Bool
  fixed2 : ℚ → String

namespace SkillCompiler

/-! ## The name of the class -/

/-- `[0-9a-zA-Z_]`. -/
def isAsciiWord (c : Char) : Bool :=
  ('0' ≤ c && c ≤ '9') || ('a' ≤ c && c ≤ 'z') || ('A' ≤ c && c ≤ 'Z') || c = '_'

/-- `_sanitize_identifier`. -/
def sanitizeIdentifier (name : List Char) : List Char :=
  let cleaned := name.map fun c => if isAsciiWord c then c else '_'
  if (cleaned.head?.map fun c => decide ('0' ≤ c ∧ c ≤ '9')) ≠ some false then
    "proc_".toList ++ cleaned
  else cleaned

/-- `str.title()` of an ASCII text, after a letter or not. -/
def title : Bool → List Char → List Char
  | _, [] => []
  | afterLetter, c :: cs =>
    (if afterLetter then c.toLower else c.toUpper) :: title c.isAlpha cs

def className (sop : StandardProcedure) : List Char :=
  (title false (sanitizeIdentifier sop.procedureId.toList)).filter (· ≠ '_') ++ "Handler".toList

/-! ## The lines of the source -/

/-- `str(n)`. -/
def decimal (n : ℕ) : String := String.ofList (NumberLit.decimal n)

def docQuote : String := "\"\"\""

def quoted (s : String) : String := "'" ++ s ++ "'"

variable (fmt : TextFormat)

/-- `repr(v)`. -/
def reprText (v : Json) : String := String.ofList (reprValue fmt.isPrintable v)

def docstringLines (sop : StandardProcedure) : List String :=
  [docQuote,
    "Autogenerated Continuous Operator Graph Handler (ParametricDistributionGraph) for SOP: " ++
      sop.name,
    "Procedure ID: " ++ sop.procedureId,
    "Success Rate: " ++ fmt.fixed2 sop.successRate ++ " (" ++ decimal sop.invocationsCount ++
      " runs)",
    "Paradigm: Continuous Parametric Distribution Graph with Thermal Potential Drop",
    docQuote]

def importLines : List String :=
  ["from __future__ import annotations",
    "",
    "import logging",
    "import random",
    "from typing import Any, Callable, Dict, List, Optional",
    "",
    "logger = logging.getLogger(__name__)",
    "",
    ""]

def classLines (sop : StandardProcedure) : List String :=
  ["class " ++ String.ofList (className sop) ++ ":",
    "    " ++ docQuote ++ "Executable Continuous Operator Graph for " ++ sop.name ++ "." ++ docQuote,
    ""]

def initLines : List String :=
  ["    def __init__(self, context: Optional[Dict[str, Any]] = None):",
    "        self.context = context or \x7b\x7d",
    "        self.step_results: Dict[str, Any] = \x7b\x7d"]

/-- The spaces of the arguments of the steps. -/
def stepsDist (sop : StandardProcedure) : Json :=
  .arr (sop.steps.map fun s => .obj s.distributionSpace)

def distributionLine (sop : StandardProcedure) : String :=
  "        self.steps_distributions: List[Dict[str, Any]] = " ++ reprText fmt (stepsDist sop)

def methodLines : List String :=
  ["        self.cognitive_temperature: float = 0.0",
    "        self.delta_temperature: float = 0.35",
    "        self.max_temperature: float = 1.0",
    "        self.adaptation_hook: Optional[Callable[..., Any]] = " ++
      "self.context.get('adaptation_hook')",
    "",
    "    def cool(self, factor: float = 0.85, step: float = 0.05) -> float:",
    "        self.cognitive_temperature = max(0.0, self.cognitive_temperature * " ++
      "float(factor) - float(step))",
    "        return self.cognitive_temperature",
    "",
    "    def reset_temperature(self) -> None:",
    "        self.cognitive_temperature = 0.0",
    "",
    "    def sample_parameters(self, step_idx: int, nominal: Dict[str, Any], temp: float) -> " ++
      "Dict[str, Any]:",
    "        if temp <= 1e-4 or step_idx >= len(self.steps_distributions):",
    "            return dict(nominal)",
    "        dist = self.steps_distributions[step_idx]",
    "        sampled = dict(nominal)",
    "        for k, meta in dist.items():",
    "            if isinstance(meta, dict) and meta.get('type') == 'continuous_gaussian':",
    "                mean = meta.get('mean', sampled.get(k, 0.0))",
    "                std = meta.get('std', 1.0)",
    "                bounds = meta.get('bounds')",
    "                val = mean + random.gauss(0.0, max(0.01, std * temp))",
    "                if bounds and len(bounds) == 2:",
    "                    val = max(bounds[0], min(bounds[1], val))",
    "                sampled[k] = int(round(val)) if isinstance(sampled.get(k), int) else " ++
      "float(val)",
    "            elif isinstance(meta, dict) and meta.get('type') == 'discrete_distribution':",
    "                freqs = meta.get('frequencies', \x7b\x7d)",
    "                if freqs and random.random() < min(0.8, temp):",
    "                    sampled[k] = random.choices(list(freqs.keys()), " ++
      "weights=list(freqs.values()), k=1)[0]",
    "        return sampled",
    ""]

/-- `step.expected_outcome or "success"`. -/
def expected (step : Step) : String :=
  match step.expectedOutcome with
  | none | some "" => "success"
  | some s => s

/-- `f"step_{idx}"`, of the step with `i` steps before it. -/
def stepFn (i : ℕ) : String := "step_" ++ decimal (i + 1)

/-- The method of the step with `i` steps before it. -/
def stepLines (i : ℕ) (step : Step) : List String :=
  let idx := decimal (i + 1)
  let toolName := step.toolName
  let params := reprText fmt (.obj step.paramsPattern)
  ["    def " ++ stepFn i ++ "(self, **kwargs) -> Dict[str, Any]:",
    "        " ++ docQuote ++ "Step " ++ idx ++ ": Execute tool " ++ quoted toolName ++ ".",
    "        Expected outcome: " ++ expected step,
    "        Nominal params: " ++ params,
    "        " ++ docQuote,
    "        logger.info(" ++
      quoted ("Executing continuous operator step " ++ idx ++ ": " ++ toolName) ++ ")",
    "        merged = dict(kwargs)",
    "        nominal_params = " ++ params,
    "        for k, v in nominal_params.items():",
    "            if k not in merged:",
    "                merged[k] = v",
    "        eff_params = self.sample_parameters(" ++ decimal i ++
      ", merged, self.cognitive_temperature)",
    "        try:",
    "            result = \x7b'tool': " ++ quoted toolName ++
      ", 'status': 'completed', 'params': eff_params, " ++
      "'temperature': self.cognitive_temperature\x7d",
    "            self.step_results[" ++ quoted (stepFn i) ++ "] = result",
    "            return result",
    "        except Exception as err:",
    "            logger.warning(" ++ quoted ("Thermal Potential Drop triggered in step " ++ idx ++
      " (" ++ toolName ++ "): %s") ++ ", err)",
    "            # Ograniczenie temperatury sufitem max_temperature (ochrona przed hipertermią)",
    "            self.cognitive_temperature = " ++
      "min(self.max_temperature, self.cognitive_temperature + self.delta_temperature)",
    "            adapted_params = self.sample_parameters(" ++ decimal i ++
      ", eff_params, self.cognitive_temperature)",
    "            if callable(self.adaptation_hook):",
    "                adapted_action = self.adaptation_hook(" ++ quoted toolName ++
      ", adapted_params, err)",
    -- The source writes this line without an `f`, so the braces stay.
    "                result = \x7b'tool': '\x7btool_name\x7d', 'status': 'adapted', " ++
      "'adapted_action': adapted_action, 'temperature': self.cognitive_temperature\x7d",
    "            else:",
    "                result = \x7b'tool': " ++ quoted toolName ++
      ", 'status': 'adapted', 'params': adapted_params, " ++
      "'temperature': self.cognitive_temperature, 'adaptation_reason': str(err)\x7d",
    "            self.step_results[" ++ quoted (stepFn i) ++ "] = result",
    "            return result",
    ""]

def runLines : List String :=
  ["    def run(self, **kwargs) -> Dict[str, Any]:",
    "        \"\"\"Execute all steps with continuous thermal relaxation.\"\"\"",
    "        overall_results: Dict[str, Any] = \x7b\x7d"]

/-- The call of the step with `i` steps before it. -/
def runStepLines (i : ℕ) : List String :=
  ["        try:",
    "            step_out = self." ++ stepFn i ++ "(**kwargs)",
    "            overall_results[" ++ quoted (stepFn i) ++ "] = step_out",
    "        except Exception as exc:",
    "            self.cognitive_temperature += self.delta_temperature",
    "            logger.warning(" ++
      quoted ("Fallback at step " ++ decimal (i + 1) ++ ": %s (Temp: %s)") ++
      ", exc, self.cognitive_temperature)",
    "            overall_results[" ++ quoted (stepFn i) ++
      "] = \x7b'status': 'adapted', 'temperature': self.cognitive_temperature, " ++
      "'error': str(exc)\x7d"]

def returnEmptyLine : String := "        return \x7b'status': 'completed', 'steps': \x7b\x7d\x7d"

def returnLine : String :=
  "        return \x7b'status': 'completed', 'results': overall_results, 'final_temperature': " ++
    "self.cognitive_temperature\x7d"

/-- The body of `run`. -/
def runBodyLines (sop : StandardProcedure) : List String :=
  if sop.steps.isEmpty then [returnEmptyLine]
  else (List.range sop.steps.length).flatMap runStepLines ++ [returnLine]

def handlerLines (sop : StandardProcedure) : List String :=
  docstringLines fmt sop ++ importLines ++ classLines sop ++ initLines ++
    [distributionLine fmt sop] ++ methodLines ++
    sop.steps.zipIdx.flatMap (fun s => stepLines fmt s.2 s.1) ++ runLines ++ runBodyLines sop

/-- `generate_handler`. -/
def generateHandler (sop : StandardProcedure) : String :=
  String.intercalate "\n" (handlerLines fmt sop) ++ "\n"

end SkillCompiler

end AtlasMemory
