import AtlasMemory.Cognitive.CalibrationArtifacts

/-!
# Consistent calibrators

What every way to a calibrator keeps: a threshold or margin that it carries was learned, the settings
of its types are as `from_dict` corrects them, and its dictionaries have distinct names.  The
constructor without reasons, the two fits and the way from a file each keep it
(`consistent_create`, `consistent_fit`, `consistent_fitByType`, `consistent_fromDict`), so every
calibrator that a program builds is consistent (`consistent_of_built`).
-/

namespace AtlasMemory

namespace Calibration

namespace DynamicValue

/-! ## Sorted names -/

variable {rt : Runtime}

@[simp] lemma isNull_sortKeys (v : Json) : isNull v.sortKeys = isNull v := by
  cases v <;> rfl

@[simp] lemma isText_sortKeys (text : String) (v : Json) : isText text v.sortKeys = isText text v := by
  cases v <;> rfl

@[simp] lemma float_sortKeys (v : Json) : float rt v.sortKeys = float rt v := by
  cases v <;> rfl

@[simp] lemma element_sortKeys (v : Json) : element rt v.sortKeys = element rt v := by
  cases v <;> rfl

@[simp] lemma truthy_sortKeys (v : Json) : rt.truthy v.sortKeys = rt.truthy v := by
  cases v with
  | arr items =>
      cases items with
      | nil => rfl
      | cons v vs => rfl
  | obj members =>
      have hlength := (Json.perm_sortedMembers members).length_eq
      rw [List.length_map] at hlength
      have hempty : Json.sortedMembers members = [] ↔ members = [] := by
        rw [← List.length_eq_zero_iff, hlength, List.length_eq_zero_iff]
      show (!(Json.sortedMembers members).isEmpty) = !members.isEmpty
      rw [Bool.eq_iff_iff]
      simp only [Bool.not_eq_true', List.isEmpty_eq_false_iff, ne_eq, hempty]
  | _ => rfl

lemma numbers_sortKeys {read : Json → Option PyFloat} (hread : ∀ v, read v.sortKeys = read v)
    (v : Json) : numbers read v.sortKeys = numbers read v := by
  cases v with
  | arr items =>
      show (Json.sortKeysItems items).mapM read = items.mapM read
      induction items with
      | nil => rfl
      | cons v vs ih =>
          rw [Json.sortKeysItems, List.mapM_cons, List.mapM_cons, hread, ih]
  | _ => rfl

lemma get_sortedMembers {members : List (String × Json)} (h : (members.map Prod.fst).Nodup)
    (name : String) : get name (Json.sortedMembers members) = (get name members).sortKeys := by
  rw [get, get, Json.find_sortedMembers h]
  cases PyDict.find name members with
  | none => rfl
  | some v => rfl

lemma get_assign (name name' : String) (v : Json) (members : List (String × Json)) :
    get name' (PyDict.assign name v members) = if name = name' then v else get name' members := by
  rw [get, PyDict.find_assign]
  split_ifs <;> rfl

/-! ## Dictionaries -/

lemma distinct_get {name : String} {members : List (String × Json)}
    (h : (Json.obj members).Distinct) : (get name members).Distinct := by
  rw [get]
  cases hfind : PyDict.find name members with
  | none => trivial
  | some v => exact Json.distinctMembers_iff.mp h.2 _ (PyDict.mem_of_find hfind)

lemma distinct_iterate {v : Json} (hv : v.Distinct) {items : List Json}
    (h : iterate v = some items) : ∀ w ∈ items, w.Distinct := by
  cases v with
  | arr vs =>
      obtain rfl := Option.some.inj h
      exact Json.distinctItems_iff.mp hv
  | str s =>
      obtain rfl := Option.some.inj h
      intro w hw
      obtain ⟨c, -, rfl⟩ := List.mem_map.mp hw
      trivial
  | obj members =>
      obtain rfl := Option.some.inj h
      intro w hw
      obtain ⟨m, -, rfl⟩ := List.mem_map.mp hw
      trivial
  | _ => cases h

lemma distinct_pair {v : Json} (hv : v.Distinct) {p : Option String × Json}
    (h : pair v = some p) : p.2.Distinct := by
  obtain ⟨items, hitems, hp⟩ := Option.bind_eq_some_iff.mp h
  have hall := distinct_iterate hv hitems
  split at hp
  · obtain rfl := Option.some.inj hp
    exact hall _ (by simp)
  · cases hp
  · cases hp
  · obtain rfl := Option.some.inj hp
    exact hall _ (by simp)
  · cases hp

lemma exists_of_mem_mapM {f : Json → Option (Option String × Json)} {items : List Json}
    {pairs : List (Option String × Json)} (h : items.mapM f = some pairs) {p : Option String × Json}
    (hp : p ∈ pairs) : ∃ v ∈ items, f v = some p := by
  induction items generalizing pairs with
  | nil =>
      obtain rfl := Option.some.inj h
      exact absurd hp List.not_mem_nil
  | cons v vs ih =>
      rw [List.mapM_cons] at h
      obtain ⟨q, hq, h⟩ := Option.bind_eq_some_iff.mp h
      obtain ⟨qs, hqs, h⟩ := Option.bind_eq_some_iff.mp h
      obtain rfl := Option.some.inj h
      rcases List.mem_cons.mp hp with rfl | hp
      · exact ⟨v, List.mem_cons_self, hq⟩
      · obtain ⟨w, hw, hf⟩ := ih hqs hp
        exact ⟨w, List.mem_cons_of_mem v hw, hf⟩

lemma distinct_dict {v : Json} (hv : v.Distinct) {members : List (String × Json)}
    (h : dict v = some members) : (Json.obj members).Distinct := by
  have hpairs : ((iterate v).bind fun items => items.mapM pair).map (fun pairs =>
        Json.dictOf (pairs.filterMap fun p => p.1.map fun name => (name, p.2))) = some members →
      (Json.obj members).Distinct := by
    intro h
    obtain ⟨pairs, hpairs, rfl⟩ := Option.map_eq_some_iff.mp h
    obtain ⟨items, hitems, hpairs⟩ := Option.bind_eq_some_iff.mp hpairs
    refine Json.distinct_dictOf (Json.distinctMembers_iff.mpr fun m hm => ?_)
    obtain ⟨p, hp, hm⟩ := List.mem_filterMap.mp hm
    obtain ⟨name, -, rfl⟩ := Option.map_eq_some_iff.mp hm
    obtain ⟨w, hw, hpair⟩ := exists_of_mem_mapM hpairs hp
    exact distinct_pair (distinct_iterate hv hitems w hw) hpair
  cases v with
  | obj ms =>
      obtain rfl := Option.some.inj h
      exact hv
  | _ => exact hpairs h

end DynamicValue

namespace IsotonicCalibrator

open DynamicValue

variable {rt : Runtime}

/-! ## The settings of a type -/

/-- The reason is one of the two, and a value was learned. -/
def Kept (value reason : String) (cfg : List (String × Json)) : Prop :=
  (isText "learned" (get reason cfg) ∨ isText "no_candidate_fallback" (get reason cfg)) ∧
    (isNull (get value cfg) ∨ isText "learned" (get reason cfg))

lemma settle_of_kept {value reason : String} {cfg : List (String × Json)}
    (h : Kept value reason cfg) : settle value reason cfg = cfg := by
  have hreason : (isText "learned" (get reason cfg) ||
      isText "no_candidate_fallback" (get reason cfg)) = true := by simpa using h.1
  have hvalue : (isNull (get value cfg) || isText "learned" (get reason cfg)) = true := by
    simpa using h.2
  simp only [settle, hreason, if_true, hvalue]

/-- The first step of the correction leaves one of the two reasons. -/
lemma kept_settle {value reason : String} (hne : value ≠ reason) (cfg : List (String × Json)) :
    Kept value reason (settle value reason cfg) := by
  obtain ⟨cfg', hcfg', hreason⟩ : ∃ cfg', settle value reason cfg =
      (if isNull (get value cfg') || isText "learned" (get reason cfg') then cfg'
        else PyDict.assign value .null cfg') ∧
      (isText "learned" (get reason cfg') ∨ isText "no_candidate_fallback" (get reason cfg')) := by
    refine ⟨_, rfl, ?_⟩
    split_ifs with h
    · simpa using h
    · rw [get_assign, if_pos rfl]
      exact .inr rfl
  rw [hcfg']
  split_ifs with h
  · exact ⟨hreason, by simpa using h⟩
  · rw [Kept, get_assign, get_assign, if_neg hne, if_pos rfl]
    exact ⟨hreason, .inl rfl⟩

/-- The correction of one value leaves the names beside it. -/
lemma get_settle_of_ne {value reason name : String} (hvalue : value ≠ name) (hreason : reason ≠ name)
    (cfg : List (String × Json)) : get name (settle value reason cfg) = get name cfg := by
  have hassign : ∀ v, get name (PyDict.assign reason v cfg) = get name cfg := by
    intro v
    rw [get_assign, if_neg hreason]
  unfold settle
  dsimp only
  split_ifs
  · rfl
  · rw [get_assign, if_neg hvalue]
  · exact hassign _
  · rw [get_assign, if_neg hvalue]
    exact hassign _

lemma kept_settle_of_kept {value reason value' reason' : String} {cfg : List (String × Json)}
    (h : Kept value reason cfg) (hvalue : value' ≠ value ∧ reason' ≠ value)
    (hreason : value' ≠ reason ∧ reason' ≠ reason) :
    Kept value reason (settle value' reason' cfg) := by
  unfold Kept
  rw [get_settle_of_ne hvalue.1 hvalue.2, get_settle_of_ne hreason.1 hreason.2]
  exact h

lemma distinct_settle {value reason : String} {cfg : List (String × Json)}
    (h : (Json.obj cfg).Distinct) : (Json.obj (settle value reason cfg)).Distinct := by
  unfold settle
  dsimp only
  split_ifs
  · exact h
  · exact Json.distinct_assign h trivial
  · exact Json.distinct_assign h trivial
  · exact Json.distinct_assign (Json.distinct_assign h trivial) trivial

/-- The settings of a type are as `from_dict` corrects them. -/
def Settled : Json → Prop
  | .obj cfg => Kept "optimal_threshold" "threshold_selection_reason" cfg ∧
      Kept "optimal_margin" "margin_selection_reason" cfg
  | _ => True

lemma settleType_of_settled {v : Json} (h : Settled v) : settleType v = v := by
  cases v with
  | obj cfg => rw [settleType, settle_of_kept h.1, settle_of_kept h.2]
  | _ => rfl

lemma settled_settleType (v : Json) : Settled (settleType v) := by
  cases v with
  | obj cfg =>
      have hthreshold := @kept_settle "optimal_threshold" "threshold_selection_reason" (by decide) cfg
      exact ⟨kept_settle_of_kept hthreshold (by decide) (by decide), kept_settle (by decide) _⟩
  | _ => trivial

lemma distinct_settleType {v : Json} (h : v.Distinct) : (settleType v).Distinct := by
  cases v with
  | obj cfg => exact distinct_settle (distinct_settle h)
  | _ => exact h

lemma settled_sortKeys {v : Json} (hv : v.Distinct) (h : Settled v) : Settled v.sortKeys := by
  cases v with
  | obj cfg =>
      show Kept _ _ (Json.sortedMembers cfg) ∧ Kept _ _ (Json.sortedMembers cfg)
      unfold Kept
      simp only [get_sortedMembers hv.1, isText_sortKeys, isNull_sortKeys]
      exact h
  | _ => exact h

/-! ## Consistent calibrators -/

/-- A threshold or margin that the calibrator carries was learned, the settings of its types are
settled, and its dictionaries have distinct names. -/
structure Consistent (c : IsotonicCalibrator) : Prop where
  threshold : c.optimalThreshold.isSome → c.thresholdSelectionReason = .learned
  margin : c.optimalMargin.isSome → c.marginSelectionReason = .learned
  settled : ∀ m ∈ c.byType, Settled m.2
  knotsX : c.knotsX.Distinct
  knotsY : c.knotsY.Distinct
  sample : c.referenceScoresSample.Distinct
  metrics : (Json.obj c.metrics).Distinct
  byType : (Json.obj c.byType).Distinct
  prior : c.multivariatePrior.Distinct

variable {c : IsotonicCalibrator}

lemma consistent_updateDigest (h : Consistent c) : Consistent (c.updateDigest rt) := { h with }

lemma learned_of_derivedReason {x : Option PyFloat} (h : x.isSome) : derivedReason x = .learned := by
  rw [derivedReason, if_pos h]

lemma consistent_create {threshold margin : Option PyFloat}
    {minPrecisionTarget costFp costFn createdAt : PyFloat} {prior : Json} (hprior : prior.Distinct) :
    Consistent (create threshold margin minPrecisionTarget costFp costFn createdAt prior) where
  threshold := learned_of_derivedReason
  margin := learned_of_derivedReason
  settled _ hm := absurd hm List.not_mem_nil
  knotsX := trivial
  knotsY := trivial
  sample := trivial
  metrics := ⟨List.nodup_nil, trivial⟩
  byType := ⟨List.nodup_nil, trivial⟩
  prior := hprior

lemma distinct_jsonFloat (x : PyFloat) : (rt.jsonFloat x).Distinct := by
  cases x <;> trivial

lemma distinct_optional (x : Option PyFloat) : (optional rt x).Distinct := by
  cases x with
  | none => trivial
  | some x => exact distinct_jsonFloat x

lemma distinct_floats (xs : List ℚ) : (floats rt xs).Distinct := by
  refine Json.distinctItems_iff.mpr fun v hv => ?_
  obtain ⟨x, -, rfl⟩ := List.mem_map.mp hv
  exact distinct_jsonFloat _

lemma distinct_rejectionReason (sub : Calibrator) (e : Evaluation) :
    (rejectionReason sub e).Distinct := by
  unfold rejectionReason
  split_ifs <;> trivial

lemma distinct_fitMetrics (data : TrainingData) (sub : Calibrator) (e : Evaluation) :
    (Json.obj (fitMetrics rt data sub e)).Distinct := by
  refine ⟨?_, ?_⟩
  · show ["n_train", "brier_raw", "brier_calibrated", "ece_raw", "ece_calibrated", "auc_raw",
      "auc_calibrated", "optimal_threshold", "optimal_margin"].Nodup
    decide
  · simp only [fitMetrics, Json.DistinctMembers, distinct_jsonFloat, distinct_optional, and_true]
    trivial

lemma distinct_typeSettings (sub : Calibrator) (e : Evaluation) :
    (Json.obj (typeSettings rt sub e)).Distinct := by
  refine ⟨?_, ?_⟩
  · show ["knots_x", "knots_y", "optimal_threshold", "candidate_threshold", "optimal_margin",
      "candidate_margin", "threshold_selection_reason", "margin_selection_reason", "is_published",
      "rejection_reason", "auc_raw", "auc_calibrated", "auc_95ci_lower", "auc_95ci_upper",
      "brier_raw", "brier_calibrated", "ece_raw", "ece_calibrated", "n_test_negatives",
      "n_test_positives", "reference_scores_sample"].Nodup
    decide
  · simp only [typeSettings, Json.DistinctMembers, distinct_jsonFloat, distinct_optional,
      distinct_floats, distinct_rejectionReason, and_true, true_and]
    exact ⟨trivial, trivial, trivial, trivial, trivial⟩

/-- A fit gives the reason that belongs to what it found. -/
lemma reasons_of_fit {self sub : Calibrator} {samples : List Sample} {weighted : Bool} {nBins : ℕ}
    (h : self.fit samples weighted nBins = some sub) :
    sub.thresholdSelectionReason = reasonFor sub.optimalThreshold ∧
      sub.marginSelectionReason = reasonFor sub.optimalMargin := by
  unfold Calibrator.fit at h
  split_ifs at h
  obtain rfl := Option.some.inj h
  exact ⟨rfl, rfl⟩

lemma learned_of_reasonFor {x : Option ℚ} (h : (x.map PyFloat.finite).isSome) :
    reasonFor x = .learned := by
  rw [Option.isSome_map] at h
  rw [reasonFor, if_pos h]

lemma kept_of_reasonFor {value reason : String} {cfg : List (String × Json)} {x : Option ℚ}
    {b : Bool} (hreason : get reason cfg = .str (reasonFor x).text)
    (hvalue : get value cfg = optional rt (if b then x.map .finite else none)) :
    Kept value reason cfg := by
  rw [Kept, hreason, hvalue]
  cases x with
  | none =>
      refine ⟨.inr rfl, .inl ?_⟩
      rw [Option.map_none, ite_self]
      rfl
  | some x => exact ⟨.inl rfl, .inr rfl⟩

lemma settled_typeSettings {self sub : Calibrator} {samples : List Sample} {weighted : Bool}
    {nBins : ℕ} (h : self.fit samples weighted nBins = some sub) (e : Evaluation) :
    Settled (.obj (typeSettings rt sub e)) := by
  obtain ⟨hthreshold, hmargin⟩ := reasons_of_fit h
  have hthreshold' : get "threshold_selection_reason" (typeSettings rt sub e) =
      .str (reasonFor sub.optimalThreshold).text := by
    rw [← hthreshold]
    rfl
  have hmargin' : get "margin_selection_reason" (typeSettings rt sub e) =
      .str (reasonFor sub.optimalMargin).text := by
    rw [← hmargin]
    rfl
  exact ⟨@kept_of_reasonFor rt _ _ _ sub.optimalThreshold (canPublish sub e) hthreshold' rfl,
    @kept_of_reasonFor rt _ _ _ sub.optimalMargin (canPublish sub e) hmargin' rfl⟩

lemma consistent_fit {self c : IsotonicCalibrator} {data : TrainingData}
    {evaluate : Calibrator → Evaluation} {nBins seconds : ℕ} (hself : Consistent self)
    (h : self.fit rt data evaluate nBins seconds = some c) : Consistent c := by
  obtain ⟨sub, hsub, rfl⟩ := Option.map_eq_some_iff.mp h
  obtain ⟨hthreshold, hmargin⟩ := reasons_of_fit hsub
  exact consistent_updateDigest {
    threshold := fun hsome => hthreshold.trans (learned_of_reasonFor hsome)
    margin := fun hsome => hmargin.trans (learned_of_reasonFor hsome)
    settled := hself.settled
    knotsX := distinct_floats _
    knotsY := distinct_floats _
    sample := distinct_floats _
    metrics := distinct_fitMetrics _ _ _
    byType := hself.byType
    prior := hself.prior }

/-- The settings that `fit_by_type` enters for a type. -/
lemma typeEntry_spec {self : IsotonicCalibrator} {train : String → Option TrainingData}
    {evaluate : String → Calibrator → Evaluation} {nBins : ℕ} {queryType : String}
    {m : String × Json} (h : typeEntry rt self train evaluate nBins queryType = some m) :
    m.1 = queryType ∧ Settled m.2 ∧ m.2.Distinct := by
  obtain ⟨data, -, h⟩ := Option.bind_eq_some_iff.mp h
  obtain ⟨sub, hsub, rfl⟩ := Option.map_eq_some_iff.mp h
  exact ⟨rfl, settled_typeSettings hsub _, distinct_typeSettings _ _⟩

lemma distinct_sampleOf {v : Json} (h : v.Distinct) : (sampleOf v).Distinct := by
  cases v with
  | obj cfg =>
      show ((PyDict.find "reference_scores_sample" cfg).getD (.arr [])).Distinct
      cases hfind : PyDict.find "reference_scores_sample" cfg with
      | none => trivial
      | some w => exact Json.distinctMembers_iff.mp h.2 _ (PyDict.mem_of_find hfind)
  | _ => trivial

lemma distinct_commonSample {self : IsotonicCalibrator} {byType : List (String × Json)}
    (hself : self.referenceScoresSample.Distinct) (h : ∀ m ∈ byType, m.2.Distinct) :
    (commonSample rt self byType).Distinct := by
  unfold commonSample
  split
  · rename_i sample hsample
    obtain ⟨v, hv, rfl⟩ := Option.map_eq_some_iff.mp (Option.filter_eq_some_iff.mp hsample).1
    exact distinct_sampleOf (h _ (PyDict.mem_of_find hv))
  · split
    · rename_i name cfg rest
      exact distinct_sampleOf (h _ List.mem_cons_self)
    · exact hself

lemma consistent_fitByType {self : IsotonicCalibrator} {train : String → Option TrainingData}
    {evaluate : String → Calibrator → Evaluation} {nBins seconds : ℕ} (hself : Consistent self) :
    Consistent (self.fitByType rt train evaluate nBins seconds) := by
  set byType := ["symbolic", "prose"].filterMap (typeEntry rt self train evaluate nBins) with hbyType
  have hentry : ∀ m ∈ byType, Settled m.2 ∧ m.2.Distinct := by
    intro m hm
    obtain ⟨queryType, -, hm⟩ := List.mem_filterMap.mp hm
    exact (typeEntry_spec hm).2
  have hnames : (byType.map Prod.fst).Sublist ["symbolic", "prose"] := by
    have hname : ∀ (names : List String),
        ((names.filterMap (typeEntry rt self train evaluate nBins)).map Prod.fst).Sublist names := by
      intro names
      induction names with
      | nil => exact List.Sublist.refl []
      | cons name names ih =>
          rw [List.filterMap_cons]
          cases hm : typeEntry rt self train evaluate nBins name with
          | none => exact ih.cons name
          | some m =>
              rw [List.map_cons, (typeEntry_spec hm).1]
              exact ih.cons_cons name
    exact hname _
  have hdistinct : (Json.obj byType).Distinct :=
    ⟨hnames.nodup (by decide), Json.distinctMembers_iff.mpr fun m hm => (hentry m hm).2⟩
  exact consistent_updateDigest { hself with
    settled := fun m hm => (hentry m hm).1
    sample := distinct_commonSample hself.sample fun m hm => (hentry m hm).2
    byType := hdistinct }

/-! ## Loaded calibrators -/

lemma learned_of_selected {raw reason : Json} {p : Option PyFloat × SelectionReason}
    (h : selected rt raw reason = some p) (hp : p.1.isSome) : p.2 = .learned := by
  unfold selected at h
  split at h
  · obtain rfl := Option.some.inj h
    cases hp
  · split at h
    · obtain ⟨x, -, rfl⟩ := Option.map_eq_some_iff.mp h
      rfl
    · obtain rfl := Option.some.inj h
      cases hp

lemma distinct_dictField {name : String} {data members : List (String × Json)}
    (hdata : (Json.obj data).Distinct) (h : dictField name data = some members) :
    (Json.obj members).Distinct := by
  unfold dictField at h
  split at h
  · obtain rfl := Option.some.inj h
    exact ⟨List.nodup_nil, trivial⟩
  · rename_i v hfind
    exact distinct_dict (Json.distinctMembers_iff.mp hdata.2 _ (PyDict.mem_of_find hfind)) h

lemma distinct_listField {name : String} {data : List (String × Json)}
    (h : (Json.obj data).Distinct) : ((PyDict.find name data).getD (.arr [])).Distinct := by
  cases hfind : PyDict.find name data with
  | none => trivial
  | some v => exact Json.distinctMembers_iff.mp h.2 _ (PyDict.mem_of_find hfind)

lemma consistent_fromDict {now : PyFloat} {v : Json} (hv : v.Distinct)
    (h : fromDict rt now v = some c) : Consistent c := by
  unfold fromDict at h
  split at h
  · rename_i data
    obtain ⟨threshold, hthreshold, h⟩ := Option.bind_eq_some_iff.mp h
    obtain ⟨margin, hmargin, h⟩ := Option.bind_eq_some_iff.mp h
    obtain ⟨byType, hbyType, h⟩ := Option.bind_eq_some_iff.mp h
    obtain ⟨minPrecisionTarget, -, h⟩ := Option.bind_eq_some_iff.mp h
    obtain ⟨costFp, -, h⟩ := Option.bind_eq_some_iff.mp h
    obtain ⟨costFn, -, h⟩ := Option.bind_eq_some_iff.mp h
    obtain ⟨createdAt, -, h⟩ := Option.bind_eq_some_iff.mp h
    obtain ⟨metrics, hmetrics, h⟩ := Option.bind_eq_some_iff.mp h
    obtain rfl := Option.some.inj h
    have hdistinct := distinct_dictField hv hbyType
    refine
      { threshold := learned_of_selected hthreshold
        margin := learned_of_selected hmargin
        settled := fun m hm => ?_
        knotsX := distinct_listField hv
        knotsY := distinct_listField hv
        sample := distinct_listField hv
        metrics := distinct_dictField hv hmetrics
        byType := ⟨?_, Json.distinctMembers_iff.mpr fun m hm => ?_⟩
        prior := distinct_get hv }
    · obtain ⟨m', -, rfl⟩ := List.mem_map.mp hm
      exact settled_settleType m'.2
    · rw [List.map_map]
      exact hdistinct.1
    · obtain ⟨m', hm', rfl⟩ := List.mem_map.mp hm
      exact distinct_settleType (Json.distinctMembers_iff.mp hdistinct.2 m' hm')
  · cases h

/-- The calibrators that a program builds: by the constructor without reasons, from a file, by the
two fits, and with another prior. -/
inductive Built (rt : Runtime) : IsotonicCalibrator → Prop
  | create (threshold margin : Option PyFloat)
      (minPrecisionTarget costFp costFn createdAt : PyFloat) (prior : Json)
      (hprior : prior.Distinct) :
      Built rt (create threshold margin minPrecisionTarget costFp costFn createdAt prior)
  | load (now : PyFloat) (text : PyText) (c : IsotonicCalibrator)
      (h : loadArtifact rt now text = some c) : Built rt c
  | fit {self : IsotonicCalibrator} (hself : Built rt self) (data : TrainingData)
      (evaluate : Calibrator → Evaluation) (nBins seconds : ℕ) (c : IsotonicCalibrator)
      (h : self.fit rt data evaluate nBins seconds = some c) : Built rt c
  | fitByType {self : IsotonicCalibrator} (hself : Built rt self)
      (train : String → Option TrainingData) (evaluate : String → Calibrator → Evaluation)
      (nBins seconds : ℕ) : Built rt (self.fitByType rt train evaluate nBins seconds)
  | setPrior {self : IsotonicCalibrator} (hself : Built rt self) (prior : Json)
      (hprior : prior.Distinct) : Built rt { self with multivariatePrior := prior }

/-- **Every calibrator that a program builds is consistent.** -/
theorem consistent_of_built (h : Built rt c) : Consistent c := by
  induction h with
  | create threshold margin minPrecisionTarget costFp costFn createdAt prior hprior =>
      exact consistent_create hprior
  | load now text c h =>
      obtain ⟨v, hv, hc⟩ := Option.bind_eq_some_iff.mp h
      exact consistent_fromDict (Json.distinct_of_loads hv) hc
  | fit hself data evaluate nBins seconds c h ih => exact consistent_fit ih h
  | fitByType hself train evaluate nBins seconds ih => exact consistent_fitByType ih
  | setPrior hself prior hprior ih => exact { ih with prior := hprior }

end IsotonicCalibrator

end Calibration

end AtlasMemory
