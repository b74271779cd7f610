import AtlasMemory.Cognitive.Lexicon
import AtlasMemory.Foundations.BoundedDeque
import AtlasMemory.Foundations.ExactMath
import AtlasMemory.Foundations.PyDict
import AtlasMemory.Runtime

/-!
# The active sensing engine

The model of `prediction_error.py`: expected states of the world, the comparison of an observation
with the expectation for its entity and predicate, the history of the errors that were found, and
the cognitive temperature that is computed from it.  The temperatures, the coolings and the scores
are exact numbers; the readings of an observation and of an expectation are floating point values,
which may be infinite or `nan`.

The comparison leaves by one of seven exits.  Three of them put the error into the history before
they return it, so that `processObservation`, which puts every error it gets into the history, puts
it there a second time.
-/

namespace PyFloat

def neg : PyFloat → PyFloat
  | .finite x => if x = 0 then .negZero else .finite (-x)
  | .negZero => .finite 0
  | .posInf => .negInf
  | .negInf => .posInf
  | .nan => .nan

/-- `x - y`. -/
def sub (x y : PyFloat) : PyFloat := x.add y.neg

/-- `abs(x)`. -/
def abs (x : PyFloat) : PyFloat := if x.isNegative then x.neg else x

/-- `x / y` for a divisor other than zero. -/
def div : PyFloat → PyFloat → PyFloat
  | .nan, _ | _, .nan => .nan
  | .posInf, .posInf | .posInf, .negInf | .negInf, .posInf | .negInf, .negInf => .nan
  | x, .posInf => signedZero x.isNegative
  | x, .negInf => signedZero !x.isNegative
  | .finite x, .finite y => if x = 0 then signedZero (decide (y < 0)) else .finite (x / y)
  | x, .finite y => if y < 0 then x.neg else x
  | x, .negZero => x

/-- `max(1.0, x)`. -/
def maxOne (x : PyFloat) : PyFloat := if (PyFloat.finite 1).lt x then x else .finite 1

end PyFloat

namespace AtlasMemory

namespace ActiveSensing

/-- The library functions that the engine calls.  A text that was lower-cased, and each part of it,
stays as it is when it is lower-cased again, and neither white space nor its absence changes. -/
structure SensingEnv where
  rt : Runtime
  /-- `s.lower()`. -/
  lower : String → String
  /-- `s.upper()`. -/
  upper : String → String
  /-- `re.search(pattern, s)` as a truth value; `none` for `re.error`. -/
  reSearch : String → String → Option Bool
  strip_lower : ∀ s, PyString.strip (lower s) = lower (PyString.strip s)
  lower_lower : ∀ s, lower (lower s) = lower s
  lower_part : ∀ s, ∀ p ∈ PyString.split ':' (lower s), lower p = p

inductive CheckType
  | exact
  | numericRange
  | regex
  deriving DecidableEq

/-- `PredictionCheck`. -/
structure PredictionCheck where
  checkId : String
  targetEntity : String
  expectedPredicate : String
  expectedValue : String
  tolerance : Option PyFloat := none
  checkType : CheckType := .exact
  metadata : PyDict String Json := ∅

/-- `PredictionError`; its score is validated when it is built. -/
structure PredictionError where
  checkId : String
  targetEntity : String
  predicate : String
  expectedValue : String
  observedValue : String
  discrepancyScore : ℚ
  severity : String := "WARNING"
  worldModelUpdated : Bool := false
  score_mem : 0 ≤ discrepancyScore ∧ discrepancyScore ≤ 1
  deriving DecidableEq

/-- `ActiveSensingEngine`. -/
structure Engine where
  expectations : PyDict String PredictionCheck := ∅
  errorHistory : BoundedDeque PredictionError 1000 := ∅
  entitySuccesses : PyDict String ℕ := ∅
  entityCoolings : PyDict String ℚ := ∅
  noiseFilter : PyDict String String := ∅

/-- The arguments of an observation: its value as text, and the clock in milliseconds. -/
structure Observation where
  entity : String
  predicate : String
  value : String
  now : ℕ

/-- `f"{entity}::{predicate}"`. -/
def expectationKey (entity predicate : String) : String := entity ++ "::" ++ predicate

def Observation.key (obs : Observation) : String := expectationKey obs.entity obs.predicate

/-- `register_expectation`. -/
def Engine.registerExpectation (engine : Engine) (check : PredictionCheck) : Engine :=
  { engine with
    expectations :=
      engine.expectations.set (expectationKey check.targetEntity check.expectedPredicate) check }

/-! ## The comparison with an expectation -/

/-- `round(min(1.0, max(0.0001, x)), 4)`. -/
def discScore : PyFloat → ℚ
  | .finite x => round4 (min 1 (max (1 / 10000) x))
  | .posInf => 1
  | .negZero | .negInf | .nan => 1 / 10000

lemma discScore_mem (x : PyFloat) : 0 ≤ discScore x ∧ discScore x ≤ 1 := by
  rcases x with x | _ | _ | _ | _
  · have hlow : (0 : ℚ) ≤ min 1 (max (1 / 10000) x) :=
      le_min zero_le_one (le_max_of_le_left (by norm_num))
    exact round4_mem_unit hlow (min_le_left _ _)
  all_goals exact ⟨by norm_num [discScore], by norm_num [discScore]⟩

/-- `s.split(sep, 1)`, if the separator occurs. -/
def splitOnce (sep : List Char) : List Char → Option (List Char × List Char)
  | [] => none
  | c :: cs =>
    if sep.isPrefixOf (c :: cs) then some ([], (c :: cs).drop sep.length)
    else (splitOnce sep cs).map fun parts => (c :: parts.1, parts.2)

section Comparison

variable (env : SensingEnv)

/-- `s.strip().lower()`. -/
def SensingEnv.fold (s : String) : String := env.lower (PyString.strip s)

def metadataBounds (check : PredictionCheck) : Option (PyFloat × PyFloat) := do
  let low ← env.rt.floatOfJson (← check.metadata.get? "min")
  let high ← env.rt.floatOfJson (← check.metadata.get? "max")
  pure (low, high)

/-- The bounds in the text of the expected value, as in `[10..20]`, `10, 20` or `10-20`. -/
def textBounds (expStr : String) : Option (PyFloat × PyFloat) := do
  let cleanExp := (PyString.stripWith (fun c => decide (c ∈ ['[', ']', '(', ')', ' '])) expStr).toList
  let parts ← (splitOnce ['.', '.'] cleanExp) <|> (splitOnce [','] cleanExp) <|>
    (if ['-'].isPrefixOf cleanExp then none else splitOnce ['-'] cleanExp)
  let low ← env.rt.parseFloat (PyString.strip (String.ofList parts.1))
  let high ← env.rt.parseFloat (PyString.strip (String.ofList parts.2))
  pure (low, high)

def toleranceBounds (check : PredictionCheck) (expStr : String) : Option (PyFloat × PyFloat) := do
  let tolerance ← check.tolerance
  let center ← env.rt.parseFloat expStr
  pure (center.sub tolerance, center.add tolerance)

/-- The bounds of a numeric range: a source that fails leaves at least one of them unset, and the
next one is tried. -/
def rangeBounds (check : PredictionCheck) (expStr : String) : Option (PyFloat × PyFloat) :=
  metadataBounds env check <|> textBounds env expStr <|> toleranceBounds env check expStr

/-- What an exit of `detect_discrepancy` returns, and whether it has put it into the history. -/
structure Finding where
  error : PredictionError
  recorded : Bool

def failedCheck (check : PredictionCheck) (obs : Observation) (score : ℚ)
    (hscore : 0 ≤ score ∧ score ≤ 1) (severity : String) : PredictionError where
  checkId := check.checkId
  targetEntity := obs.entity
  predicate := obs.predicate
  expectedValue := PyString.strip check.expectedValue
  observedValue := PyString.strip obs.value
  discrepancyScore := score
  severity := severity
  score_mem := hscore

/-- The error of a check that does not measure a distance. -/
def mismatch (check : PredictionCheck) (obs : Observation) : Finding where
  error := failedCheck check obs 1 ⟨zero_le_one, le_rfl⟩ "CRITICAL"
  recorded := true

/-- The comparison with a numeric range; `none` when the readings are missing. -/
def rangeCheck (check : PredictionCheck) (obs : Observation) : Option (Option Finding) := do
  let (low, high) ← rangeBounds env check (PyString.strip check.expectedValue)
  let obsNum ← env.rt.parseFloat (PyString.strip obs.value)
  if obsNum.ge low && high.ge obsNum then pure none
  else
    let diff := if obsNum.lt low then low.sub obsNum else obsNum.sub high
    let ratio := diff.div (high.sub low).maxOne
    let severity :=
      if 1 / 2 ≤ discScore ratio then "CRITICAL"
      else if 1 / 10 ≤ discScore ratio then "MODERATE"
      else "LOW"
    pure (some ⟨failedCheck check obs (discScore ratio) (discScore_mem ratio) severity, false⟩)

def continuousSeverity (tolerance : Option PyFloat) (diff : PyFloat) (score : ℚ) : String :=
  if tolerance.any fun tolerance => (PyFloat.mul (.finite 2) tolerance).lt diff then "CRITICAL"
  else if score < 1 / 10 then "LOW"
  else if score < 1 / 2 then "MODERATE"
  else "CRITICAL"

/-- The numeric comparison; `none` when one of the values is not a number. -/
def numericCheck (check : PredictionCheck) (obs : Observation) : Option (Option Finding) := do
  let obsNum ← env.rt.parseFloat (PyString.strip obs.value)
  let expNum ← env.rt.parseFloat (PyString.strip check.expectedValue)
  let diff := (obsNum.sub expNum).abs
  if diff.lt (.finite (1 / 10 ^ 9)) then pure none
  else if check.tolerance.any fun tolerance => tolerance.ge diff then pure none
  else
    let effDiff := match check.tolerance with
      | some tolerance => diff.sub tolerance
      | none => diff
    let slack := match check.tolerance with
      | some tolerance => if tolerance.isZero then .finite 0 else tolerance
      | none => .finite 0
    let ratio := effDiff.div (expNum.abs.add slack).maxOne
    let severity := continuousSeverity check.tolerance diff (discScore ratio)
    pure (some ⟨failedCheck check obs (discScore ratio) (discScore_mem ratio) severity, false⟩)

def textsDiffer (check : PredictionCheck) (obs : Observation) : Bool :=
  decide (env.lower (PyString.strip obs.value) ≠ env.lower (PyString.strip check.expectedValue))

def exactCheck (check : PredictionCheck) (obs : Observation) : Option Finding :=
  if textsDiffer env check obs then some (mismatch check obs) else none

/-- The observed value does not match the pattern; a pattern that is not one is compared as a
text. -/
def regexFails (check : PredictionCheck) (obs : Observation) : Bool :=
  match env.reSearch (PyString.strip check.expectedValue) (PyString.strip obs.value) with
  | some found => !found
  | none => textsDiffer env check obs

/-- An observation that nothing was expected of reports a failure. -/
def reportsFailure (obs : Observation) : Bool :=
  ["FAIL", "ERROR", "CRITICAL", "DRIFT", "OOD", "NOISE", "CORRUPT"].any fun marker =>
    PyString.hasInfix marker (env.upper (PyString.strip obs.value))

/-- The error for an observation that nothing was expected of. -/
def adhocError (obs : Observation) : PredictionError where
  checkId := "adhoc_" ++ obs.now.repr
  targetEntity := obs.entity
  predicate := obs.predicate
  expectedValue := "SUCCESS"
  observedValue := PyString.strip obs.value
  discrepancyScore := 1
  severity := "CRITICAL"
  score_mem := ⟨zero_le_one, le_rfl⟩

/-- The exits of `detect_discrepancy`. -/
def discrepancy (expectation : Option PredictionCheck) (obs : Observation) : Option Finding :=
  match expectation with
  | none => if reportsFailure env obs then some ⟨adhocError obs, true⟩ else none
  | some check =>
    let numeric := (numericCheck env check obs).getD (exactCheck env check obs)
    match check.checkType with
    | .regex => if regexFails env check obs then some (mismatch check obs) else none
    | .numericRange => (rangeCheck env check obs).getD numeric
    | .exact => numeric

/-- `detect_discrepancy`. -/
def Engine.detectDiscrepancy (engine : Engine) (obs : Observation) :
    Engine × Option PredictionError :=
  match discrepancy env (engine.expectations.get? obs.key) obs with
  | none => (engine, none)
  | some finding =>
    (if finding.recorded then
      { engine with errorHistory := engine.errorHistory.append finding.error } else engine,
      some finding.error)

/-- `mnemosyne_triple_add_fn`: not given, or what its call does. -/
inductive TripleAdd
  | absent
  | written
  | failed
  deriving DecidableEq

/-- The expectation for the observation takes its value. -/
def Engine.adapt (engine : Engine) (obs : Observation) : Engine :=
  match engine.expectations.get? obs.key with
  | some check =>
    { engine with
      expectations := engine.expectations.set obs.key { check with expectedValue := obs.value } }
  | none => engine

/-- What follows an error: the expectation is adapted when the world model was updated, or when the
same value is observed a second time and there is no world model. -/
def Engine.afterError (engine : Engine) (obs : Observation) : TripleAdd → Engine
  | .written => engine.adapt obs
  | .failed => engine
  | .absent =>
    if engine.noiseFilter.get? obs.key = some obs.value then engine.adapt obs
    else { engine with noiseFilter := engine.noiseFilter.set obs.key obs.value }

/-- `process_observation`.  The entry that `detect_discrepancy` has put into the history is the very
object whose `world_model_updated` is set here. -/
def Engine.processObservation (engine : Engine) (obs : Observation) (tripleAdd : TripleAdd) :
    Engine × Option PredictionError :=
  match discrepancy env (engine.expectations.get? obs.key) obs with
  | none => (engine, none)
  | some finding =>
    let error := { finding.error with worldModelUpdated := decide (tripleAdd = .written) }
    let entries := if finding.recorded then [error, error] else [error]
    ({ engine with errorHistory := engine.errorHistory.extend entries }.afterError obs tripleAdd,
      some error)

end Comparison

/-! ## Successes, coolings and temperatures -/

section Temperature

variable (env : SensingEnv)

/-- `entity.split(":")[-1]`. -/
def lastPart (entity : String) : String := (PyString.split ':' entity).getLastD ""

/-- One more success, and a cooling by `0.70`. -/
def Engine.coolBySuccess (engine : Engine) (entity : String) : Engine :=
  { engine with
    entitySuccesses :=
      engine.entitySuccesses.set entity (engine.entitySuccesses.getD entity 0 + 1)
    entityCoolings := engine.entityCoolings.set entity
      (max (1 / 100) (engine.entityCoolings.getD entity 1 * (7 / 10))) }

/-- `record_success`. -/
def Engine.recordSuccess (engine : Engine) (entity : String) : Engine :=
  let entity := env.fold entity
  if entity = "" then engine
  else if lastPart entity = entity then engine.coolBySuccess entity
  else (engine.coolBySuccess entity).coolBySuccess (lastPart entity)

/-- `cool_entity`. -/
def Engine.coolEntity (engine : Engine) (entity : String) (factor : ℚ) : Engine :=
  let entity := env.fold entity
  if entity = "" then engine
  else
    let val := max (1 / 100) (engine.entityCoolings.getD entity 1 * factor)
    let coolings := engine.entityCoolings.set entity val
    { engine with
      entityCoolings :=
        if lastPart entity = entity then coolings else coolings.set (lastPart entity) val }

/-- The target of an error concerns the entity. -/
def concerns (entity target : String) : Bool :=
  decide (target = entity) || PyString.hasInfix entity target || PyString.hasInfix target entity ||
    decide (target = lastPart entity)

/-- The greater of the success counts of the entity and of its last part. -/
def Engine.successes (engine : Engine) (entity : String) : ℕ :=
  max (engine.entitySuccesses.getD entity 0) (engine.entitySuccesses.getD (lastPart entity) 0)

/-- The factor by which successes and coolings lower a temperature. -/
def Engine.coolingMult (engine : Engine) (entity : String) : ℚ :=
  min (engine.entityCoolings.getD entity 1) (engine.entityCoolings.getD (lastPart entity) 1) *
    (3 / 4) ^ engine.successes entity

/-- `get_entity_temperature`. -/
def Engine.getEntityTemperature (engine : Engine) (entity : String) : ℚ :=
  let entity := env.fold entity
  if entity = "" then 0
  else
    let scores := (engine.errorHistory.items.filter fun err =>
      concerns entity (env.fold err.targetEntity)).map fun err => err.discrepancyScore ^ 2
    if scores = [] then 0
    else max 0 (scores.sum / scores.length * engine.coolingMult entity)

/-- `is_entity_critical`. -/
def Engine.isEntityCritical (engine : Engine) (entity : String) : Bool :=
  let entity := env.fold entity
  if entity = "" then false
  else if 3 ≤ engine.successes entity then false
  else if min (engine.getEntityTemperature env entity)
      (engine.getEntityTemperature env (lastPart entity)) < 15 / 100 then false
  else engine.errorHistory.items.reverse.any fun err =>
    concerns entity (env.fold err.targetEntity) &&
      (decide (env.upper err.severity = "CRITICAL") || decide (7 / 10 ≤ err.discrepancyScore))

end Temperature

/-- Lower-case texts, of which only `FAIL` and the like are written in capitals; no pattern is ever
found. -/
def SensingEnv.sample : SensingEnv where
  rt := Runtime.sample
  lower := id
  upper := id
  reSearch _ _ := some false
  strip_lower _ := rfl
  lower_lower _ := rfl
  lower_part _ _ _ := rfl

end ActiveSensing

end AtlasMemory
