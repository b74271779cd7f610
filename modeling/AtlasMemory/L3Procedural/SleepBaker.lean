import AtlasMemory.Foundations.PyDict
import AtlasMemory.Foundations.SeparatedText
import AtlasMemory.L1Working.TrajectoryBuffer
import AtlasMemory.L3Procedural.SkillCompiler
import Mathlib.Algebra.Order.Ring.Rat
import Mathlib.Data.List.Dedup
import Mathlib.Data.List.Perm.Basic

/-!
# The procedures that the sleep baker makes

`konsolidacja_sesji`: the trajectories are grouped by the sequence of their tools, which is joined
to the signature of the group, and a group that is frequent and successful enough becomes a
procedure.  The tool of a generic execution tool is told apart by the command that it runs.  A
procedure has the steps of the first trajectory of its group, and the values of the parameters of
all of them as distributions.

The arithmetic of floating point numbers comes from a `BakerEnv`: the ratio of two counts, the
summary of numbers and the logarithm of the number of sessions.
-/

namespace AtlasMemory

/-- What the baker takes from its environment. -/
structure BakerEnv where
  rt : Runtime
  /-- `text.lower()`. -/
  lower : String → String
  /-- `list(set(values))`, of values that can be hashed. -/
  setOrder : List Json → List Json
  /-- The `continuous_gaussian` space of numbers. -/
  gaussian : List Json → Json
  /-- `a / b`. -/
  ratio : ℕ → ℕ → ℚ
  ratio_nonneg : ∀ a b, 0 ≤ ratio a b
  ratio_le_one : ∀ a b, a ≤ b → ratio a b ≤ 1
  /-- `math.ceil(alpha * math.log2(n))`. -/
  ceilLog : ℚ → ℕ → ℤ

/-- `SleepBaker`. -/
structure SleepBaker where
  minFrequency : Option ℤ
  minSuccessRate : ℚ
  alpha : ℚ

/-- A step of a trajectory as it comes: a `Step`, or a value. -/
inductive RawStep
  | step (s : Step)
  | value (v : Json)

/-- What a trajectory has under `steps` or `actions`: a list that may have steps in it, or a
value. -/
inductive RawActions
  | list (steps : List RawStep)
  | value (v : Json)

/-- A trajectory as it comes; an item that is not there is `none`. -/
structure RawTrajectory where
  steps : Option RawActions
  actions : Option RawActions
  success : Option Json
  context : Option Json
  sessionId : Option Json
  session : Option Json

/-- A trajectory that was read: its steps with the tokens of their tools. -/
structure SessionRun where
  moves : List (String × Step)
  success : Bool
  context : Json

/-- A procedure with its signature and its contexts. -/
structure BakedProcedure extends StandardProcedure where
  signature : String
  contexts : List Json

namespace SessionRun

/-- `tool_names`. -/
def tokens (run : SessionRun) : List String := run.moves.map Prod.fst

/-- `step_objs`. -/
def steps (run : SessionRun) : List Step := run.moves.map Prod.snd

end SessionRun

def toolSignature (tokens : List String) : String := "->".intercalate tokens

/-- `grouped_stats[sig]` of a signature that has one. -/
structure SopGroup where
  count : ℕ
  successes : ℕ
  sampleSteps : List Step
  allSteps : List (List Step)
  contexts : List Json
  one_le_count : 1 ≤ count
  successes_le : successes ≤ count

/-- One more trajectory in a group; the first one begins with the empty statistics. -/
def SopGroup.add : Option SopGroup → SessionRun → SopGroup
  | none, run =>
    { count := 1
      successes := if run.success then 1 else 0
      sampleSteps := run.steps
      allSteps := [run.steps]
      contexts := [run.context]
      one_le_count := le_refl 1
      successes_le := by split_ifs <;> omega }
  | some g, run =>
    { count := g.count + 1
      successes := if run.success then g.successes + 1 else g.successes
      sampleSteps := if g.sampleSteps.isEmpty then run.steps else g.sampleSteps
      allSteps := g.allSteps ++ [run.steps]
      contexts := g.contexts ++ [run.context]
      one_le_count := Nat.le_add_left 1 g.count
      successes_le := by have hle := g.successes_le; split_ifs <;> omega }

namespace BakerEnv

variable (env : BakerEnv)

/-! ## Steps and their tools -/

/-- `GENERIC_EXECUTION_TOOLS`. -/
def genericExecutionTools : List String :=
  ["bash", "terminal_run", "exec", "run_command", "terminal", "shell", "sh"]

/-- `cmd.strip().split()[0].split("/")[-1]` of a text that is not blank. -/
def firstToken (cmd : String) : String :=
  let word := (PyString.strip cmd).toList.takeWhile fun c => !PyText.isPySpace c
  String.ofList (word.reverse.takeWhile (· ≠ '/')).reverse

/-- `_resolve_tool_signature_token`. -/
def resolveToolSignatureToken (toolName : String) (params : Json) : String :=
  let baseName := PyString.strip toolName
  if env.lower baseName ∈ genericExecutionTools then
    match params with
    | .obj members =>
      match ["command", "cmd", "subcommand", "action"].findSome?
          (TrajectoryBuffer.truthyItem env.rt members) with
      | some (.str cmd) =>
        if PyString.strip cmd ≠ "" ∧ firstToken cmd ≠ "" then
          baseName ++ "[" ++ firstToken cmd ++ "]"
        else baseName
      | _ => baseName
    | _ => baseName
  else baseName

def stepOfDict (members : List (String × Json)) : Except PyError (String × Step) :=
  let item := TrajectoryBuffer.truthyItem env.rt members
  let toolName := ((["tool_name", "tool", "action", "name"].findSome? item).map env.rt.pyStr).getD
    "unknown_tool"
  let params := (["params_pattern", "params"].findSome? item).getD (.obj [])
  let outcome := (item "expected_outcome").getD ((PyDict.find "outcome" members).getD .null)
  let token := env.resolveToolSignatureToken toolName params
  -- the fields of a `Step` are validated: a dictionary, and a text or nothing
  match params, outcome with
  | .obj pattern, .null => .ok (token, ⟨token, pattern, none, []⟩)
  | .obj pattern, .str text => .ok (token, ⟨token, pattern, some text, []⟩)
  | _, _ => .error ⟨.valueError, "validation error for Step"⟩

/-- A round of the loop over the raw steps; what is no step is skipped. -/
def extractStep : RawStep → Except PyError (Option (String × Step))
  | .step s => .ok (some (env.resolveToolSignatureToken s.toolName (.obj s.paramsPattern), s))
  | .value (.obj members) => (env.stepOfDict members).map some
  | .value (.str s) => .ok (some (s, ⟨s, [], none, []⟩))
  | .value _ => .ok none

/-- `_extract_steps_and_sig`, with the tokens before they are joined. -/
def extractSteps (raw : List RawStep) : Except PyError (List (String × Step)) :=
  (raw.mapM env.extractStep).map List.reduceOption

/-! ## Trajectories -/

/-- `bool(raw_actions)`. -/
def isTrueActions : RawActions → Bool
  | .list steps => !steps.isEmpty
  | .value v => env.rt.truthy v

/-- The iteration over the raw steps: a text gives its characters and a dictionary its keys. -/
def iterate : RawActions → Except PyError (List RawStep)
  | .list steps => .ok steps
  | .value (.arr items) => .ok (items.map .value)
  | .value (.str s) => .ok (s.toList.map fun c => .value (.str (String.singleton c)))
  | .value (.obj members) => .ok ((PyDict.ofEntries members).keys.map fun k => .value (.str k))
  | .value _ => .error ⟨.typeError, "object is not iterable"⟩

/-- A round of the loop over the trajectories up to the grouping; a trajectory without steps or with
the empty signature is skipped. -/
def readTrajectory (t : RawTrajectory) : Except PyError (Option SessionRun) :=
  match (t.steps.filter env.isTrueActions).orElse fun _ => t.actions.filter env.isTrueActions with
  | none => .ok none
  | some raw => (iterate raw).bind fun items => (env.extractSteps items).map fun moves =>
    let run : SessionRun :=
      ⟨moves, (t.success.map env.rt.truthy).getD true, t.context.getD (.str "general")⟩
    if toolSignature run.tokens = "" then none else some run

/-- `grouped_stats`. -/
def groupedStats (ts : List RawTrajectory) : Except PyError (PyDict String SopGroup) :=
  ts.foldlM (fun d t => (env.readTrajectory t).map fun
    | none => d
    | some run => d.set (toolSignature run.tokens)
        (SopGroup.add (d.get? (toolSignature run.tokens)) run)) ∅

/-- `str(sid)` of a trajectory with a session that is not blank. -/
def sessionOf (t : RawTrajectory) : Option String :=
  let sid := match t.sessionId.filter env.rt.truthy with
    | some v => some v
    | none => t.session
  match sid with
  | none | some .null => none
  | some v => if PyString.strip (env.rt.pyStr v) = "" then none else some (env.rt.pyStr v)

/-- `count_unique_sessions`. -/
def countUniqueSessions (ts : List RawTrajectory) : ℕ := (ts.filterMap env.sessionOf).dedup.length

/-! ## Distributions -/

/-- `isinstance(v, (int, float)) and not isinstance(v, bool)`. -/
def isNumeric : Json → Bool
  | .number _ | .notANumber | .infinity | .negInfinity => true
  | _ => false

/-- The values of the parameters of the step at `i`. -/
def collectedParams (allSteps : List (List Step)) (i : ℕ) : PyDict String (List Json) :=
  PyDict.groupBy Prod.fst (fun vals (e : String × Json) => vals.getD [] ++ [e.2])
    (allSteps.flatMap fun steps =>
      match steps[i]? with
      | some s => (PyDict.ofEntries s.paramsPattern).entries
      | none => [])

/-- The space of the values of a parameter. -/
def spaceOf (vals : List Json) : Json :=
  if vals.all isNumeric then env.gaussian vals
  else
    let counts := PyDict.groupBy id (fun n _ => n.getD 0 + 1) (vals.map env.rt.pyStr)
    .obj [("type", .str "discrete_distribution"),
      ("frequencies", .obj (counts.entries.map fun e =>
        (e.1, env.rt.jsonFloat (.finite (env.ratio e.2 vals.length))))),
      ("cardinality", .number (.ofInt counts.size))]

/-- `rich_steps`. -/
def richSteps (g : SopGroup) : List Step :=
  g.sampleSteps.zipIdx.map fun e =>
    { e.1 with
      distributionSpace :=
        (collectedParams g.allSteps e.2).entries.map fun p => (p.1, env.spaceOf p.2) }

/-! ## Procedures -/

/-- `sig.replace("->", " → ")`. -/
def replaceArrows : List Char → List Char
  | '-' :: '>' :: cs => " → ".toList ++ replaceArrows cs
  | c :: cs => c :: replaceArrows cs
  | [] => []

/-- `proc_hash`. -/
def procHash (sig : String) : String := String.ofList ((env.rt.hexdigest sig).toList.take 8)

/-- `proc_id`. -/
def procId (sig : String) : String := "sop_" ++ env.procHash sig

def isHashable : Json → Bool
  | .arr _ | .obj _ => false
  | _ => true

/-- `list(set(contexts))`. -/
def uniqueContexts (contexts : List Json) : Except PyError (List Json) :=
  if contexts.all isHashable then .ok (env.setOrder contexts)
  else .error ⟨.typeError, "unhashable type"⟩

def procedureOf (sig : String) (g : SopGroup) (contexts : List Json) : BakedProcedure where
  procedureId := env.procId sig
  name := "SOP: " ++ String.ofList (replaceArrows sig.toList)
  steps := env.richSteps g
  successRate := env.ratio g.successes (max 1 g.count)
  invocationsCount := g.count
  rate_nonneg := env.ratio_nonneg _ _
  rate_le_one := env.ratio_le_one _ _ (le_trans g.successes_le (le_max_right 1 g.count))
  one_le_count := g.one_le_count
  signature := sig
  contexts := contexts

end BakerEnv

namespace SleepBaker

variable (baker : SleepBaker) (env : BakerEnv)

/-- `compute_effective_min_frequency`. -/
def effectiveMinFrequency (sessionsCount : ℕ) : ℤ :=
  match baker.minFrequency with
  | some n => n
  | none =>
    if baker.alpha ≤ 0 then 2 else max 2 (env.ceilLog baker.alpha (max 1 sessionsCount))

/-- The group is frequent and successful enough. -/
def Qualifies (minFreq : ℤ) (count successes : ℕ) : Prop :=
  minFreq ≤ count ∧ baker.minSuccessRate ≤ env.ratio successes (max 1 count)

instance (minFreq : ℤ) (count successes : ℕ) :
    Decidable (baker.Qualifies env minFreq count successes) :=
  inferInstanceAs (Decidable (_ ∧ _))

def bakeGroup (minFreq : ℤ) (e : String × SopGroup) : Except PyError (Option BakedProcedure) :=
  if baker.Qualifies env minFreq e.2.count e.2.successes then
    (env.uniqueContexts e.2.contexts).map fun contexts =>
      some (env.procedureOf e.1 e.2 contexts)
  else .ok none

/-- `konsolidacja_sesji`. -/
def konsolidacjaSesji (ts : List RawTrajectory) : Except PyError (List BakedProcedure) :=
  let minFreq := baker.effectiveMinFrequency env (env.countUniqueSessions ts)
  (env.groupedStats ts).bind fun d =>
    (d.entries.mapM (baker.bakeGroup env minFreq)).map List.reduceOption

end SleepBaker

end AtlasMemory
