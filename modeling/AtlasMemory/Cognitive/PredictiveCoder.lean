import AtlasMemory.Cognitive.AcceptedWrites
import AtlasMemory.Foundations.PyText
import Mathlib.Data.Bool.AllAny

/-!
# Active sensing

The model of `predictive_coder.py`: an observed value is compared with the expected one, and where
the two differ enough, the observed value is written as the last observation of the target, through
the write path and, where that raises, into the store itself.

The annealing of the graph and the relation of the observation concern the graph alone; they are
given by what they leave of it.
-/

namespace AtlasMemory

/-- `severity`. -/
inductive Severity
  | none
  | low
  | moderate
  | critical
  deriving DecidableEq

/-- The report of `compute_discrepancy`. -/
structure Discrepancy where
  hasError : Bool
  severity : Severity
  score : ℚ

/-- `PredictionCheck`, as far as sensing reads it. -/
structure PredictionCheck where
  targetEntity : String
  expectedValue : String
  tolerance : Option PyFloat

/-- `PredictiveCoder`, with what it calls. -/
structure PredictiveCoder (ρ : Type) where
  env : WriteEnv ρ
  /-- `re.findall(r"\w+", s)`. -/
  words : String → List String
  /-- `active_sensing.expectation_checks()`. -/
  checks : List PredictionCheck
  /-- What the annealing leaves of the graph. -/
  anneal : KnowledgeGraph → String → KnowledgeGraph
  /-- What `commit_relation` leaves of the graph. -/
  commitRelation : KnowledgeGraph → Edge → KnowledgeGraph

/-- The verdict of a sensing cycle. -/
structure SensingReport where
  discrepancy : Discrepancy
  targetEntity : String
  expected : Json
  observed : Json
  worldModelUpdated : Bool
  writebackKey : Option String

/-- The readings of the clock in a sensing cycle. -/
structure SensingTimes where
  sensed : ℚ
  write : WriteTimes
  fallback : ℚ

namespace Discrepancy

def agreement : Discrepancy := ⟨false, .none, 0⟩

/-- A difference of this score, by the bounds of the two upper severities. -/
def rated (moderate critical score : ℚ) : Discrepancy :=
  ⟨true, if score < moderate then .low else if score < critical then .moderate else .critical, score⟩

/-- `diff <= tol`, where no tolerance is one of zero. -/
def tolerated (diff : ℚ) : Option PyFloat → Bool
  | some (.finite tol) => decide (diff ≤ tol)
  | some .negZero | none => decide (diff ≤ 0)
  | some .posInf => true
  | some .negInf | some .nan => false

def finitePart : PyFloat → Option ℚ
  | .finite x => some x
  | .negZero => some 0
  | .posInf | .negInf | .nan => none

/-- The discrepancy of two numbers.  Where one of them is not finite, the relative difference is not
a number, and the score falls to zero. -/
def numeric (obs exp : PyFloat) (tolerance : Option PyFloat) : Discrepancy :=
  match finitePart obs, finitePart exp with
  | some o, some e =>
    let diff := |o - e|
    if tolerated diff tolerance || (tolerance.isNone && decide (diff < 1 / 10 ^ 5)) then agreement
    else rated (1 / 10) (1 / 2) (min 1 (max 0 (diff / max (max |e| |o|) 1)))
  | _, _ =>
    let diff := obs.add (PyFloat.mul (.finite (-1)) exp)
    if diff ≠ .nan ∧ tolerance = some .posInf then agreement else rated (1 / 10) (1 / 2) 0

/-- The discrepancy of two texts in lower case, by the words that they share. -/
def categorical (words : String → List String) (obs exp : String) : Discrepancy :=
  if obs = exp then agreement
  else
    let wordsObs := (words obs).toFinset
    let wordsExp := (words exp).toFinset
    if wordsObs = ∅ ∨ wordsExp = ∅ then rated (1 / 5) (3 / 5) 1
    else
      rated (1 / 5) (3 / 5) (1 - ((wordsObs ∩ wordsExp).card : ℚ) / (wordsObs ∪ wordsExp).card)

end Discrepancy

namespace PredictiveCoder

variable {ρ : Type} (coder : PredictiveCoder ρ)

/-- `compute_discrepancy`. -/
def computeDiscrepancy (observed expected : Json) (tolerance : Option PyFloat) : Discrepancy :=
  let rt := coder.env.rt
  let obsStr := PyString.strip (rt.pyStr observed)
  let expStr := PyString.strip (rt.pyStr expected)
  match rt.parseFloat obsStr, rt.parseFloat expStr with
  | some obsNum, some expNum => Discrepancy.numeric obsNum expNum tolerance
  | _, _ =>
    Discrepancy.categorical coder.words (coder.env.lex.lower obsStr) (coder.env.lex.lower expStr)

/-- The expected value and the tolerance: those of the parameters, and of the first check of the
target where no value is expected. -/
def expectation (params : PyDict String Json) (target : String) : Json × Option PyFloat :=
  let given := ((params.get? "expected_value").or (params.get? "expected")).getD .null
  let tolerance := (params.get? "tolerance").bind coder.env.rt.floatOfJson
  match given, coder.checks.find? fun c => decide (c.targetEntity = target) with
  | .null, some check => (.str check.expectedValue, tolerance.or check.tolerance)
  | _, _ => (given, tolerance)

/-- The key of the last observation of a target. -/
def writebackKey (target : String) : String := "probe:" ++ target ++ ":last_observed"

def severityText : Severity → String
  | .none => "NONE"
  | .low => "LOW"
  | .moderate => "MODERATE"
  | .critical => "CRITICAL"

def observationMeta (target : String) (expected : Json) (d : Discrepancy) (now : ℚ) :
    PyDict String Json :=
  let rt := coder.env.rt
  PyDict.ofEntries [("source_type", .str "sensor_observation"), ("target_entity", .str target),
    ("expected_value", expected), ("discrepancy_score", rt.jsonFloat (.finite d.score)),
    ("severity", .str (severityText d.severity)), ("timestamp", rt.jsonFloat (.finite now)),
    ("ttl", .number ⟨"3600", by decide⟩)]

def observationRequest (target : String) (observed : Json) (observation : PyDict String Json) :
    WriteRequest ρ where
  key := .str (writebackKey target)
  value := observed
  metadata := some observation
  reason := "active_sensing_writeback"

/-- What is set where the write path raises. -/
def fallbackArgs (target : String) (observed : Json) (observation : PyDict String Json) :
    SetArgs where
  key := writebackKey target
  value := observed
  metadata := some observation
  reason := "active_sensing_writeback"
  ttl := some 3600

/-- The observation is written back: no look is taken at the response of the write path. -/
def writeback (s : Stores ρ) (target : String) (observed : Json) (observation : PyDict String Json)
    (times : SensingTimes) : Stores ρ :=
  match WritePath.write coder.env s (observationRequest target observed observation) times.write with
  | (s', .ok _) => s'
  | (s', .error _) =>
    { s' with
      kv := s'.kv.call coder.env.rt
        (.setSync (fallbackArgs target observed observation) times.fallback) }

/-- The target of a sensing request, `""` where none is named. -/
def targetEntity (params : PyDict String Json) : String :=
  let rt := coder.env.rt
  let named := ["target_entity", "probe", "target"].findSome? fun name =>
    (params.get? name).filter rt.truthy
  (named.map rt.pyStr).getD ""

/-- The observed value of a sensing request. -/
def observedValue (params : PyDict String Json) : Json :=
  ((params.get? "observed_value").or (params.get? "observed")).getD .null

def discrepancy (params : PyDict String Json) : Discrepancy :=
  let expected := coder.expectation params (coder.targetEntity params)
  coder.computeDiscrepancy (observedValue params) expected.1 expected.2

/-- The stores after the annealing, which a discrepancy that is not small triggers. -/
def annealedStores (s : Stores ρ) (params : PyDict String Json) : Stores ρ :=
  let d := coder.discrepancy params
  if d.hasError &&
      (decide (d.severity = .moderate ∨ d.severity = .critical) || decide (1 / 10 ≤ d.score)) then
    { s with graph := coder.anneal s.graph (coder.targetEntity params) }
  else s

/-- The metadata of the observation of a sensing request. -/
def observation (params : PyDict String Json) (now : ℚ) : PyDict String Json :=
  coder.observationMeta (coder.targetEntity params)
    (coder.expectation params (coder.targetEntity params)).1 (coder.discrepancy params) now

/-- `execute_sensing`. -/
def executeSensing (s : Stores ρ) (params : PyDict String Json) (times : SensingTimes) :
    Stores ρ × Except PyError SensingReport :=
  let target := coder.targetEntity params
  let observed := observedValue params
  let expected := (coder.expectation params target).1
  let d := coder.discrepancy params
  if target = "" then
    (s, .error ⟨.valueError, "Target entity or probe name is required for active sensing"⟩)
  else if d.hasError ∧ (d.severity = .moderate ∨ d.severity = .critical) then
    let written := coder.writeback (coder.annealedStores s params) target observed
      (coder.observation params times.sensed) times
    let edge : Edge := ⟨target, "observed_state", coder.env.rt.pyStr observed⟩
    ({ written with graph := coder.commitRelation written.graph edge },
      .ok ⟨d, target, expected, observed, true, some (writebackKey target)⟩)
  else
    (coder.annealedStores s params, .ok ⟨d, target, expected, observed, false, none⟩)

/-! ## What an observation leaves -/

variable {coder}

/-- The key of an observation is not stripped any further. -/
lemma strip_writebackKey (target : String) :
    PyString.strip (writebackKey target) = writebackKey target := by
  have hprefix : ∀ c ∈ "probe:".toList, PyText.isPySpace c = false :=
    List.all_iff_forall_prop.mp (by decide)
  have hlist : (writebackKey target).toList =
      "probe:".toList ++ (target.toList ++ ":last_observed".toList) := by
    rw [writebackKey, String.toList_append, String.toList_append, List.append_assoc]
  have hsuffix : (target.toList ++ ":last_observed".toList).rdropWhile PyText.isPySpace =
      target.toList ++ ":last_observed".toList := by
    rw [List.rdropWhile_eq_self_iff]
    intro hne
    rw [List.getLast_append_of_right_ne_nil _ _ (by decide)]
    decide
  unfold PyString.strip PyString.stripWith
  rw [hlist, PyText.stripList_append_of_not _ hprefix (by decide), hsuffix, ← hlist,
    String.ofList_toList]

variable {s : Stores ρ} {params : PyDict String Json} {times : SensingTimes} {target : String}
  {observed : Json} {observation : PyDict String Json}

lemma plainWrite_observation :
    WritePath.PlainWrite (observationRequest target observed observation : WriteRequest ρ)
      (writebackKey target) := ⟨rfl, rfl, rfl⟩

lemma holdsOf_fallback (kv : VerifiedKVStore) (now : ℚ) :
    WritePath.HoldsOf (kv.call coder.env.rt (.setSync (fallbackArgs target observed observation)
      now)).db.stateVariables (writebackKey target) fun text _ => text = observed.dumps :=
  ⟨_, (WritePath.get?_call_setSync coder.env.rt kv (fallbackArgs target observed observation) now
    (writebackKey target)).trans (if_pos rfl), rfl⟩

/-- After a write back the observed value is the one stored, unless the write was turned away over
another one. -/
lemma holdsOf_writeback (hsound : WritePath.SoundStores coder.env)
    (hstr : ∀ t, coder.env.rt.pyStr (.str t) = t) :
    WritePath.HoldsOf (coder.writeback s target observed observation times).kv.db.stateVariables
        (writebackKey target) (fun text _ => text = observed.dumps) ↔
      (WritePath.TurnedAway coder.env s (observationRequest target observed observation) times.write →
        WritePath.HoldsOf s.kv.db.stateVariables (writebackKey target)
          fun text _ => text = observed.dumps) := by
  have hplain : WritePath.PlainWrite (observationRequest target observed observation :
    WriteRequest ρ) (writebackKey target) := plainWrite_observation
  have hending : WritePath.Ending coder.env s (observationRequest target observed observation)
      times.write (WritePath.write coder.env s (observationRequest target observed observation)
        times.write) :=
    WritePath.ending_of_write fun _ h => hplain.not_replay (hstr _) h
  have hkept : _ ↔ WritePath.Keeps coder.env s (observationRequest target observed observation)
      times.write _ (writebackKey target) fun text _ => text = observed.dumps :=
    WritePath.holdsOf_iff_keeps hsound hplain (hstr _) _ _
  unfold writeback
  generalize WritePath.write coder.env s (observationRequest target observed observation)
    times.write = w at hending hkept ⊢
  cases hending with
  | turnedAway resp haway hstanding hresp => exact ⟨fun h _ => h, fun h => h haway⟩
  | raised after err haway hnot hstanding =>
    exact ⟨fun _ h => absurd h haway, fun _ => holdsOf_fallback after.kv times.fallback⟩
  | persisted a haway hreaches hstanding =>
    have hholds := hkept.mpr (Or.inl ⟨⟨a, hreaches⟩, strip_writebackKey target, rfl⟩)
    refine ⟨fun _ h => absurd h haway, fun _ => ?_⟩
    generalize WritePath.persist coder.env s (WritePath.revisedStores coder.env s a
      times.write.revised) a (observationRequest target observed observation).vectorRecord
      times.write = outcome at hholds ⊢
    obtain ⟨after, result⟩ := outcome
    cases result with
    | error err => exact holdsOf_fallback after.kv times.fallback
    | ok resp => exact hholds

end PredictiveCoder

end AtlasMemory
