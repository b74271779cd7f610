import AtlasMemory.Foundations.JsonParse
import AtlasMemory.Runtime

/-!
# The trajectory buffer

The columns of `ArrowTrajectoryBuffer` that its view by sessions reads.  The metadata of a step are
serialised last, and a step whose parameters are no dictionary raises there, with its other columns
already written; so the metadata are a column of their own, which may be shorter than the others,
and the view pairs the columns from the front.

Rewards are exact.
-/

namespace AtlasMemory

/-- The columns of a step that are written together. -/
structure StepRow where
  sessionId : String
  stepId : ℤ
  actionName : String
  reward : ℚ
  deriving DecidableEq

/-- `ArrowTrajectoryBuffer`. -/
structure TrajectoryBuffer where
  rows : List StepRow
  metadataJsons : List String
  deriving DecidableEq

/-- A step of a trajectory in the view; the parameters and the error are there for a real step. -/
structure TrajectoryStep where
  stepId : ℤ
  tool : String
  parameters : Option Json
  error : Option Json

/-- An element of the view by sessions. -/
structure Trajectory where
  sessionId : String
  steps : List TrajectoryStep
  actions : List String
  success : Bool
  context : String := "general"
  stepIds : List ℤ
  maxStepId : ℤ

namespace TrajectoryBuffer

def empty : TrajectoryBuffer := ⟨[], []⟩

/-! ## Appending -/

/-- `step.get(name)` where it is truthy. -/
def truthyItem (rt : Runtime) (step : List (String × Json)) (name : String) : Option Json :=
  (PyDict.find name step).filter fun v => rt.truthy v

/-- `str(name)` of a real step. -/
def nameOf (rt : Runtime) (step : List (String × Json)) : String :=
  (((truthyItem rt step "tool_name").orElse fun _ => (truthyItem rt step "action").orElse fun _ =>
    (truthyItem rt step "tool").orElse fun _ => truthyItem rt step "name").map rt.pyStr).getD
      "unknown_tool"

/-- `bool(step.get("success", True))`. -/
def successOf (rt : Runtime) (step : List (String × Json)) : Bool :=
  ((PyDict.find "success" step).map rt.truthy).getD true

/-- `dict(step.get("parameters") or {})`; `none` when it raises, as it does for what is no
dictionary. -/
def parametersOf (rt : Runtime) (step : List (String × Json)) : Option Json :=
  match truthyItem rt step "parameters" with
  | none => some (.obj [])
  | some (.obj members) => some (.obj members)
  | some _ => none

def realMetadata (rt : Runtime) (step : List (String × Json)) : Option String :=
  (parametersOf rt step).map fun parameters =>
    (Json.obj [("origin", .str "real"), ("success", .bool (successOf rt step)),
      ("parameters", parameters), ("error", (PyDict.find "error" step).getD .null)]).dumps

def realRow (rt : Runtime) (sessionId : String) (stepId : ℤ) (step : List (String × Json)) :
    StepRow where
  sessionId := sessionId
  stepId := stepId
  actionName := nameOf rt step
  reward := if successOf rt step then 1 else -1

/-- `record_real_trajectory`, up to the step that raises. -/
def recordRealTrajectory (rt : Runtime) (b : TrajectoryBuffer) (sessionId : String) :
    List (List (String × Json)) → TrajectoryBuffer
  | [] => b
  | step :: steps =>
    let rows := b.rows ++ [realRow rt sessionId (b.rows.length + 1) step]
    match realMetadata rt step with
    | some text => recordRealTrajectory rt ⟨rows, b.metadataJsons ++ [text]⟩ sessionId steps
    | none => ⟨rows, b.metadataJsons⟩

/-- A mental transition, as far as it is kept. -/
structure MentalTransition where
  stepIndex : ℤ
  actionName : String
  simulatedReward : ℚ

/-- `append_transitions`; `append_transition` is the one of a single transition. -/
def appendTransitions (b : TrajectoryBuffer) (sessionId : String)
    (metadata : List (String × Json)) (ts : List MentalTransition) : TrajectoryBuffer where
  rows := b.rows ++ ts.map fun t => ⟨sessionId, t.stepIndex, t.actionName, t.simulatedReward⟩
  metadataJsons := b.metadataJsons ++ ts.map fun _ => (Json.obj metadata).dumps

/-! ## The view by sessions -/

/-- The steps with their metadata, as far as every column has one. -/
def items (b : TrajectoryBuffer) : List (StepRow × String) := b.rows.zip b.metadataJsons

def decodedMeta (text : String) : List (String × Json) :=
  if text = "" then []
  else match Json.loads (PyText.ofString text) with
    | some (.obj members) => members
    | _ => []

def realFlag (rt : Runtime) (metadata : List (String × Json)) : Option Bool :=
  match PyDict.find "origin" metadata with
  | some (.str origin) =>
    if origin = "real" then (PyDict.find "success" metadata).map rt.truthy else none
  | _ => none

def viewStep (rt : Runtime) (e : StepRow × String) : TrajectoryStep :=
  let metadata := decodedMeta e.2
  let real := (realFlag rt metadata).isSome
  { stepId := e.1.stepId
    tool := e.1.actionName
    parameters := if real then some ((truthyItem rt metadata "parameters").getD (.obj [])) else none
    error := if real then some ((PyDict.find "error" metadata).getD .null) else none }

/-- `is_success` of a session: by the recorded flags where every step is real, else by the
rewards. -/
def isSuccess (rt : Runtime) (es : List (StepRow × String)) : Bool :=
  let flags := es.filterMap fun e => realFlag rt (decodedMeta e.2)
  if flags.length = es.length ∧ flags ≠ [] then
    flags.all id || (flags.getLast?.getD false && decide (flags.length ≤ 2 * flags.count true))
  else
    let rewards : List ℚ := es.map fun e => e.1.reward
    match rewards.getLast? with
    | none => true
    | some last =>
      decide ((0 ≤ rewards.sum / rewards.length ∧ 0 ≤ last) ∨ 0 < rewards.sum)

/-- `max` of integers, with a default. -/
def maxOf (default : ℤ) : List ℤ → ℤ
  | [] => default
  | n :: ns => ns.foldl max n

def trajectoryOf (rt : Runtime) (b : TrajectoryBuffer) (sessionId : String) : Trajectory :=
  let es := b.items.filter fun e => decide (e.1.sessionId = sessionId)
  { sessionId := sessionId
    steps := es.map (viewStep rt)
    actions := es.map fun e => e.1.actionName
    success := isSuccess rt es
    stepIds := es.map fun e => e.1.stepId
    maxStepId := maxOf 0 (es.map fun e => e.1.stepId) }

/-- `trajectories`: one for each session, in the order of their first steps. -/
def trajectories (rt : Runtime) (b : TrajectoryBuffer) : List Trajectory :=
  ((b.items.map fun e => e.1.sessionId).eraseDups).map (b.trajectoryOf rt)

/-! ## Maxima -/

lemma foldl_max_le_iff (ns : List ℤ) (n k : ℤ) :
    ns.foldl max n ≤ k ↔ n ≤ k ∧ ∀ m ∈ ns, m ≤ k := by
  induction ns generalizing n with
  | nil => simp
  | cons m ns ih =>
    rw [List.foldl_cons, ih, List.forall_mem_cons, max_le_iff, and_assoc]

lemma le_maxOf {n default : ℤ} {ns : List ℤ} (h : n ∈ ns) : n ≤ maxOf default ns := by
  cases ns with
  | nil => exact absurd h List.not_mem_nil
  | cons m ns =>
    obtain ⟨hhead, htail⟩ := (foldl_max_le_iff ns m _).mp (le_refl (ns.foldl max m))
    rcases List.mem_cons.mp h with rfl | h
    · exact hhead
    · exact htail n h

/-- The maximum of a list that is not empty is one of its elements. -/
lemma maxOf_mem {ns : List ℤ} (hne : ns ≠ []) (default : ℤ) : maxOf default ns ∈ ns := by
  obtain ⟨m, ms, rfl⟩ := List.exists_cons_of_ne_nil hne
  show ms.foldl max m ∈ m :: ms
  induction ms generalizing m with
  | nil => exact List.mem_singleton_self m
  | cons m' ms ih =>
    rw [List.foldl_cons]
    rcases List.mem_cons.mp (ih (max m m') (List.cons_ne_nil _ _)) with h | h
    · rcases max_choice m m' with hmax | hmax
      · rw [h, hmax]
        exact List.mem_cons_self
      · rw [h, hmax]
        exact List.mem_cons_of_mem _ List.mem_cons_self
    · exact List.mem_cons_of_mem _ (List.mem_cons_of_mem _ h)

end TrajectoryBuffer

end AtlasMemory
