import AtlasMemory.Cognitive.Calibration
import AtlasMemory.Foundations.JsonFiles
import AtlasMemory.Runtime

/-!
# Calibration artifacts

The model of the record `IsotonicCalibrator` of `calibration_engine.py` with all its fields: `fit`
and `fit_by_type` around the fit of the curve, the digest, and the way to a file and back.  A
calibrator that was loaded may hold any JSON value as its knots, its settings by type and its prior,
so these fields are JSON values here, and a number among them is its literal.

The numbers of the evaluation (areas under curves, Brier scores, confidence bounds) come from numpy
and are parameters.
-/

namespace AtlasMemory

namespace Calibration

/-! ## Reading dynamic values -/

namespace DynamicValue

/-- `members.get(name)`. -/
def get (name : String) (members : List (String × Json)) : Json :=
  (PyDict.find name members).getD .null

def isNull : Json → Bool
  | .null => true
  | _ => false

/-- `v == text`. -/
def isText (text : String) : Json → Bool
  | .str s => decide (s = text)
  | _ => false

/-- `float(v)`: an integer beyond the range raises. -/
def float (rt : Runtime) : Json → Option PyFloat
  | .number n =>
    (rt.parseFloat n.text).filter fun x =>
      n.text.toList.any (fun c => c = '.' || c = 'e' || c = 'E') || (x ≠ .posInf && x ≠ .negInf)
  | v => rt.floatOfJson v

/-- An element of `np.asarray(v, dtype=np.float64)`. -/
def element (rt : Runtime) : Json → Option PyFloat
  | .null => some .nan
  | v => float rt v

def numbers (read : Json → Option PyFloat) : Json → Option (List PyFloat)
  | .arr items => items.mapM read
  | _ => none

/-- The list of `iter(v)`. -/
def iterate : Json → Option (List Json)
  | .arr items => some items
  | .str s => some (s.toList.map fun c => .str (String.ofList [c]))
  | .obj members => some (members.map fun m => .str m.1)
  | _ => none

/-- A pair of `dict(v)`: its name, absent where it is no text, and its value. -/
def pair (v : Json) : Option (Option String × Json) :=
  (iterate v).bind fun
    | [.str name, w] => some (some name, w)
    | [.arr _, _] | [.obj _, _] => none
    | [_, w] => some (none, w)
    | _ => none

/-- `dict(v)`, as far as names are texts; `none` when it raises. -/
def dict : Json → Option (List (String × Json))
  | .obj members => some members
  | v =>
    ((iterate v).bind fun items => items.mapM pair).map fun pairs =>
      Json.dictOf (pairs.filterMap fun p => p.1.map fun name => (name, p.2))

/-- The JSON form of a value that may be absent. -/
def optional (rt : Runtime) : Option PyFloat → Json
  | none => .null
  | some x => rt.jsonFloat x

def floats (rt : Runtime) (xs : List ℚ) : Json := .arr (xs.map fun x => rt.jsonFloat (.finite x))

/-- `round(x, 4)`. -/
def rounded : PyFloat → PyFloat
  | .finite x => .finite (round4 x)
  | x => x

end DynamicValue

/-! ## The record -/

def SelectionReason.text : SelectionReason → String
  | .learned => "learned"
  | .noCandidateFallback => "no_candidate_fallback"

/-- `IsotonicCalibrator`, after `__post_init__`. -/
structure IsotonicCalibrator where
  knotsX : Json := .arr []
  knotsY : Json := .arr []
  referenceScoresSample : Json := .arr []
  optimalThreshold : Option PyFloat := none
  optimalMargin : Option PyFloat := none
  thresholdSelectionReason : SelectionReason
  marginSelectionReason : SelectionReason
  minPrecisionTarget : PyFloat := .finite (1 / 2)
  costFp : PyFloat := .finite 1
  costFn : PyFloat := .finite 1
  versionId : String := "pava"
  createdAt : PyFloat
  metrics : List (String × Json) := []
  byType : List (String × Json) := []
  multivariatePrior : Json := .null
  sha256 : String := ""

namespace IsotonicCalibrator

open DynamicValue

/-- The reason that `__post_init__` gives. -/
def derivedReason (x : Option PyFloat) : SelectionReason :=
  if x.isSome then .learned else .noCandidateFallback

/-- A call of the constructor without reasons. -/
def create (threshold margin : Option PyFloat) (minPrecisionTarget costFp costFn createdAt : PyFloat)
    (prior : Json) : IsotonicCalibrator where
  optimalThreshold := threshold
  optimalMargin := margin
  thresholdSelectionReason := derivedReason threshold
  marginSelectionReason := derivedReason margin
  minPrecisionTarget := minPrecisionTarget
  costFp := costFp
  costFn := costFn
  createdAt := createdAt
  multivariatePrior := prior

variable (rt : Runtime)

/-- `to_dict`. -/
def toDict (self : IsotonicCalibrator) : List (String × Json) :=
  [("knots_x", self.knotsX), ("knots_y", self.knotsY),
    ("reference_scores_sample", self.referenceScoresSample),
    ("optimal_threshold", optional rt self.optimalThreshold),
    ("optimal_margin", optional rt self.optimalMargin),
    ("threshold_selection_reason", .str self.thresholdSelectionReason.text),
    ("margin_selection_reason", .str self.marginSelectionReason.text),
    ("min_precision_target", rt.jsonFloat self.minPrecisionTarget),
    ("cost_fp", rt.jsonFloat self.costFp), ("cost_fn", rt.jsonFloat self.costFn),
    ("version_id", .str self.versionId), ("created_at", rt.jsonFloat self.createdAt),
    ("metrics", .obj self.metrics), ("by_type", .obj self.byType),
    ("multivariate_prior", self.multivariatePrior), ("sha256", .str self.sha256)]

/-- The digest of `_update_digest`. -/
def digest (self : IsotonicCalibrator) : String :=
  rt.hexdigest (Json.dumpsSorted (.obj
    [("knots_x", self.knotsX), ("knots_y", self.knotsY),
      ("optimal_threshold", optional rt self.optimalThreshold),
      ("optimal_margin", optional rt self.optimalMargin),
      ("threshold_selection_reason", .str self.thresholdSelectionReason.text),
      ("margin_selection_reason", .str self.marginSelectionReason.text),
      ("by_type", .obj self.byType), ("multivariate_prior", self.multivariatePrior),
      ("version_id", .str self.versionId)]))

/-- `_update_digest`. -/
def updateDigest (self : IsotonicCalibrator) : IsotonicCalibrator :=
  { self with sha256 := self.digest rt }

/-! ## The fit -/

/-- What numpy computes of a calibrator and the samples on which it is evaluated. -/
structure Evaluation where
  aucRaw : PyFloat
  aucCalibrated : PyFloat
  ciLow : PyFloat
  ciHigh : PyFloat
  brierRaw : PyFloat
  brierCalibrated : PyFloat
  eceRaw : PyFloat
  eceCalibrated : PyFloat
  negatives : ℕ
  positives : ℕ

/-- The training arrays of a query type. -/
structure TrainingData where
  samples : List Sample
  weighted : Bool := false

/-- What the fit of the curve uses of a calibrator. -/
def core (self : IsotonicCalibrator) : Calibrator where
  minPrecisionTarget := self.minPrecisionTarget
  costFp := self.costFp
  costFn := self.costFn

/-- `self.metrics` of `fit`. -/
def fitMetrics (data : TrainingData) (c : Calibrator) (e : Evaluation) : List (String × Json) :=
  [("n_train", .number (.ofInt data.samples.length)),
    ("brier_raw", rt.jsonFloat (rounded e.brierRaw)),
    ("brier_calibrated", rt.jsonFloat (rounded e.brierCalibrated)),
    ("ece_raw", rt.jsonFloat (rounded e.eceRaw)),
    ("ece_calibrated", rt.jsonFloat (rounded e.eceCalibrated)),
    ("auc_raw", rt.jsonFloat (rounded e.aucRaw)),
    ("auc_calibrated", rt.jsonFloat (rounded e.aucCalibrated)),
    ("optimal_threshold", optional rt (c.optimalThreshold.map .finite)),
    ("optimal_margin", optional rt (c.optimalMargin.map .finite))]

/-- `fit`, at the time `seconds`. -/
def fit (self : IsotonicCalibrator) (data : TrainingData) (evaluate : Calibrator → Evaluation)
    (nBins seconds : ℕ) : Option IsotonicCalibrator :=
  (self.core.fit data.samples data.weighted nBins).map fun c =>
    updateDigest rt { self with
      knotsX := floats rt c.knots.xs
      knotsY := floats rt c.knots.ys
      optimalThreshold := c.optimalThreshold.map .finite
      thresholdSelectionReason := c.thresholdSelectionReason
      optimalMargin := c.optimalMargin.map .finite
      marginSelectionReason := c.marginSelectionReason
      versionId := "pava_" ++ toString seconds
      referenceScoresSample := floats rt c.referenceScoresSample
      metrics := fitMetrics rt data c (evaluate c) }

/-- `can_publish`. -/
def canPublish (sub : Calibrator) (e : Evaluation) : Bool :=
  !(PyFloat.finite (1 / 2)).ge e.ciLow && decide (30 ≤ e.negatives) && sub.optimalThreshold.isSome

/-- `rejection_reason`. -/
def rejectionReason (sub : Calibrator) (e : Evaluation) : Json :=
  if sub.optimalThreshold.isNone then .str "no_candidate_fallback"
  else if e.negatives < 30 then .str "insufficient_negatives"
  else if (PyFloat.finite (1 / 2)).ge e.ciLow then
    if e.ciHigh.ge (.finite (1 / 2)) then .str "auc_ci_includes_0.5"
    else .str "auc_sub_random_below_0.5"
  else .null

def typeSettings (sub : Calibrator) (e : Evaluation) : List (String × Json) :=
  let threshold := sub.optimalThreshold.map PyFloat.finite
  let margin := sub.optimalMargin.map PyFloat.finite
  [("knots_x", floats rt sub.knots.xs), ("knots_y", floats rt sub.knots.ys),
    ("optimal_threshold", optional rt (if canPublish sub e then threshold else none)),
    ("candidate_threshold", optional rt threshold),
    ("optimal_margin", optional rt (if canPublish sub e then margin else none)),
    ("candidate_margin", optional rt margin),
    ("threshold_selection_reason", .str sub.thresholdSelectionReason.text),
    ("margin_selection_reason", .str sub.marginSelectionReason.text),
    ("is_published", .bool (canPublish sub e)), ("rejection_reason", rejectionReason sub e),
    ("auc_raw", rt.jsonFloat (rounded e.aucRaw)),
    ("auc_calibrated", rt.jsonFloat (rounded e.aucCalibrated)),
    ("auc_95ci_lower", rt.jsonFloat (rounded e.ciLow)),
    ("auc_95ci_upper", rt.jsonFloat (rounded e.ciHigh)),
    ("brier_raw", rt.jsonFloat (rounded e.brierRaw)),
    ("brier_calibrated", rt.jsonFloat (rounded e.brierCalibrated)),
    ("ece_raw", rt.jsonFloat (rounded e.eceRaw)),
    ("ece_calibrated", rt.jsonFloat (rounded e.eceCalibrated)),
    ("n_test_negatives", .number (.ofInt e.negatives)),
    ("n_test_positives", .number (.ofInt e.positives)),
    ("reference_scores_sample", floats rt sub.referenceScoresSample)]

/-- One round of `fit_by_type`: a type that was not given or has no scores, on which the fit
returns nothing, is passed over. -/
def typeEntry (self : IsotonicCalibrator) (train : String → Option TrainingData)
    (evaluate : String → Calibrator → Evaluation) (nBins : ℕ) (queryType : String) :
    Option (String × Json) :=
  (train queryType).bind fun data =>
    (({ minPrecisionTarget := self.minPrecisionTarget } : Calibrator).fit data.samples data.weighted
      nBins).map fun sub => (queryType, .obj (typeSettings rt sub (evaluate queryType sub)))

/-- `cfg.get("reference_scores_sample", [])`. -/
def sampleOf : Json → Json
  | .obj cfg => (PyDict.find "reference_scores_sample" cfg).getD (.arr [])
  | _ => .arr []

def commonSample (self : IsotonicCalibrator) (byType : List (String × Json)) : Json :=
  match ((PyDict.find "prose" byType).map sampleOf).filter rt.truthy with
  | some sample => sample
  | none =>
    match byType with
    | (_, cfg) :: _ => sampleOf cfg
    | [] => self.referenceScoresSample

/-- `fit_by_type`, at the time `seconds`. -/
def fitByType (self : IsotonicCalibrator) (train : String → Option TrainingData)
    (evaluate : String → Calibrator → Evaluation) (nBins seconds : ℕ) : IsotonicCalibrator :=
  let byType := ["symbolic", "prose"].filterMap (typeEntry rt self train evaluate nBins)
  updateDigest rt { self with
    byType := byType
    referenceScoresSample := commonSample rt self byType
    versionId := "pava_dual_" ++ toString seconds }

/-! ## From a file -/

/-- The value and the reason that `from_dict` takes. -/
def selected (raw reason : Json) : Option (Option PyFloat × SelectionReason) :=
  if isNull raw then
    some (none, if isText "learned" reason then .learned else .noCandidateFallback)
  else if isText "learned" reason then (float rt raw).map fun x => (some x, .learned)
  else some (none, .noCandidateFallback)

/-- The correction of one value of the settings of a type: a reason that is neither of the two is
replaced, and a value that was not learned is dropped. -/
def settle (value reason : String) (cfg : List (String × Json)) : List (String × Json) :=
  let cfg :=
    if isText "learned" (get reason cfg) || isText "no_candidate_fallback" (get reason cfg) then cfg
    else PyDict.assign reason (.str "no_candidate_fallback") cfg
  if isNull (get value cfg) || isText "learned" (get reason cfg) then cfg
  else PyDict.assign value .null cfg

/-- The correction of the settings of a type. -/
def settleType : Json → Json
  | .obj cfg => .obj (settle "optimal_margin" "margin_selection_reason"
      (settle "optimal_threshold" "threshold_selection_reason" cfg))
  | v => v

/-- `float(data.get(name, default))`. -/
def floatField (name : String) (default : PyFloat) (data : List (String × Json)) : Option PyFloat :=
  match PyDict.find name data with
  | none => some default
  | some v => float rt v

/-- `str(data.get(name, default))`. -/
def textField (name default : String) (data : List (String × Json)) : String :=
  ((PyDict.find name data).map rt.pyStr).getD default

/-- `dict(data.get(name, {}))`. -/
def dictField (name : String) (data : List (String × Json)) : Option (List (String × Json)) :=
  match PyDict.find name data with
  | none => some []
  | some v => dict v

/-- `from_dict`; `none` when it raises. -/
def fromDict (now : PyFloat) : Json → Option IsotonicCalibrator
  | .obj data => do
    let threshold ← selected rt (get "optimal_threshold" data)
      (get "threshold_selection_reason" data)
    let margin ← selected rt (get "optimal_margin" data) (get "margin_selection_reason" data)
    let byType ← dictField "by_type" data
    let minPrecisionTarget ← floatField rt "min_precision_target" (.finite (1 / 2)) data
    let costFp ← floatField rt "cost_fp" (.finite 1) data
    let costFn ← floatField rt "cost_fn" (.finite 1) data
    let createdAt ← floatField rt "created_at" now data
    let metrics ← dictField "metrics" data
    return {
      knotsX := (PyDict.find "knots_x" data).getD (.arr [])
      knotsY := (PyDict.find "knots_y" data).getD (.arr [])
      referenceScoresSample := (PyDict.find "reference_scores_sample" data).getD (.arr [])
      optimalThreshold := threshold.1
      optimalMargin := margin.1
      thresholdSelectionReason := threshold.2
      marginSelectionReason := margin.2
      minPrecisionTarget := minPrecisionTarget
      costFp := costFp
      costFn := costFn
      versionId := textField rt "version_id" "pava_loaded" data
      createdAt := createdAt
      metrics := metrics
      byType := byType.map fun m => (m.1, settleType m.2)
      multivariatePrior := get "multivariate_prior" data
      sha256 := textField rt "sha256" "" data }
  | _ => none

/-- The text that `save_artifact` writes. -/
def saveArtifact (self : IsotonicCalibrator) : PyText :=
  Json.fileText (.obj ((updateDigest rt self).toDict rt))

/-- `load_artifact` of a file with this text, at the time `now`; `none` when it raises. -/
def loadArtifact (now : PyFloat) (text : PyText) : Option IsotonicCalibrator :=
  (Json.loads text).bind (fromDict rt now)

/-! ## The decisions -/

/-- The settings of a query type: `query_type and query_type in self.by_type`. -/
def settingsOf (self : IsotonicCalibrator) (queryType : Option String) : Option Json :=
  (queryType.filter (· ≠ "")).bind fun queryType => PyDict.find queryType self.byType

/-- `get_threshold`; `none` when it raises. -/
def getThreshold (self : IsotonicCalibrator) (queryType : Option String)
    (default : Option PyFloat) : Option PyFloat :=
  let fallback :=
    default.getD (if queryType = some "symbolic" then .finite (70 / 100) else .finite (35 / 100))
  match self.settingsOf queryType with
  | some (.obj cfg) =>
    if rt.truthy (get "is_published" cfg) && !isNull (get "optimal_threshold" cfg) &&
        isText "learned" (get "threshold_selection_reason" cfg) then
      float rt (get "optimal_threshold" cfg)
    else some fallback
  | some _ => none
  | none =>
    some ((self.optimalThreshold.filter fun x =>
      (PyFloat.finite 0).lt x && self.thresholdSelectionReason = .learned).getD fallback)

/-- `should_accept`. -/
def shouldAccept (self : IsotonicCalibrator) (score : PyFloat) (margin : Option PyFloat)
    (useMargin : Bool) : Bool :=
  !(self.optimalThreshold.any fun x => score.lt x) &&
    !(useMargin && margin.any fun m => self.optimalMargin.any fun x => m.lt x)

/-- The knots that `predict_proba` takes for a query type, as numbers. -/
def curveOf (self : IsotonicCalibrator) (queryType : Option String) :
    Option (List PyFloat) × Option (List PyFloat) :=
  match self.settingsOf queryType with
  | some (.obj cfg) =>
    let orElse (name : String) (v : Json) := if rt.truthy (get name cfg) then get name cfg else v
    (numbers (float rt) (orElse "knots_x" self.knotsX),
      numbers (float rt) (orElse "knots_y" self.knotsY))
  | _ => (numbers (float rt) self.knotsX, numbers (float rt) self.knotsY)

/-- `alpha`, `weights` and `bias` of the prior; `none` when reading them raises, and the inner
`none` when there is no prior. -/
def priorTerms (self : IsotonicCalibrator) : Option (Option (PyFloat × List PyFloat × PyFloat)) :=
  if rt.truthy self.multivariatePrior then
    match self.multivariatePrior with
    | .obj prior => do
      let number (name : String) (default : PyFloat) := floatField rt name default prior
      let alpha ← number "alpha" (.finite (70 / 100))
      match PyDict.find "weights" prior with
      | some v => do
        let weights ← numbers (element rt) v
        let bias ← number "bias" (.finite 0)
        return some (alpha, weights, bias)
      | none => do
        let weights ← ["w_dense", "w_sparse", "w_margin", "w_len"].mapM fun name =>
          element rt ((PyDict.find name prior).getD (rt.jsonFloat (.finite 0)))
        let bias ← if (PyDict.find "b" prior).isSome then number "b" (.finite 0)
          else number "bias" (.finite 0)
        return some (alpha, weights, bias)
    | _ => none
  else some none

end IsotonicCalibrator

end Calibration

end AtlasMemory
