import AtlasMemory.Cognitive.ConsistentCalibrators

/-!
# The integrity of calibration artifacts

A calibrator that was built is read back from its file with the same decisions: the file differs from
it only in the order of names, which no decision depends on, and the corrections of `from_dict` change
nothing in a consistent calibrator.

The digest in the file is never compared.  A file whose fields do not have the stored digest is
refused only where one of the conversions of `from_dict` raises (`Convertible`), so a plain edit of a
threshold is taken.
-/

namespace AtlasMemory

namespace Calibration

namespace IsotonicCalibrator

open DynamicValue

variable {rt : Runtime} {c c' : IsotonicCalibrator}

/-! ## The round trip -/

def stored (rt : Runtime) (c : IsotonicCalibrator) : IsotonicCalibrator :=
  { c with
    knotsX := c.knotsX.sortKeys
    knotsY := c.knotsY.sortKeys
    referenceScoresSample := c.referenceScoresSample.sortKeys
    metrics := Json.sortedMembers c.metrics
    byType := Json.sortedMembers c.byType
    multivariatePrior := c.multivariatePrior.sortKeys
    versionId := rt.pyStr (.str c.versionId)
    sha256 := rt.pyStr (.str c.sha256) }

/-- The numbers that the file holds and that `from_dict` converts. -/
def convertedNumbers (c : IsotonicCalibrator) : List PyFloat :=
  [c.minPrecisionTarget, c.costFp, c.costFn, c.createdAt] ++ c.optimalThreshold.toList ++
    c.optimalMargin.toList

lemma distinct_toDict (h : Consistent c) : (Json.obj (c.toDict rt)).Distinct := by
  refine ⟨?_, Json.distinctMembers_iff.mpr fun m hm => ?_⟩
  · show ["knots_x", "knots_y", "reference_scores_sample", "optimal_threshold", "optimal_margin",
      "threshold_selection_reason", "margin_selection_reason", "min_precision_target", "cost_fp",
      "cost_fn", "version_id", "created_at", "metrics", "by_type", "multivariate_prior",
      "sha256"].Nodup
    decide
  · simp only [toDict, List.mem_cons, List.not_mem_nil, or_false] at hm
    rcases hm with rfl | rfl | rfl | rfl | rfl | rfl | rfl | rfl | rfl | rfl | rfl | rfl | rfl | rfl |
      rfl | rfl
    · exact h.knotsX
    · exact h.knotsY
    · exact h.sample
    · exact distinct_optional _
    · exact distinct_optional _
    · trivial
    · trivial
    · exact distinct_jsonFloat _
    · exact distinct_jsonFloat _
    · exact distinct_jsonFloat _
    · trivial
    · exact distinct_jsonFloat _
    · exact h.metrics
    · exact h.byType
    · exact h.prior
    · trivial

/-- A value and its reason are read back where the value was learned. -/
lemma selected_optional {x : Option PyFloat} {reason : SelectionReason}
    (hlearned : x.isSome → reason = .learned)
    (hread : ∀ y ∈ x.toList, float rt (rt.jsonFloat y) = some y) :
    selected rt (optional rt x).sortKeys (Json.str reason.text).sortKeys = some (x, reason) := by
  cases x with
  | none => cases reason <;> rfl
  | some y =>
      obtain rfl := hlearned rfl
      have hnull : isNull (rt.jsonFloat y) = false := by cases y <;> rfl
      show selected rt (rt.jsonFloat y).sortKeys (.str "learned") = _
      rw [selected, isNull_sortKeys, hnull, if_neg (by decide), float_sortKeys,
        hread y List.mem_cons_self]
      rfl

lemma map_settleType_sortedMembers {byType : List (String × Json)}
    (hdistinct : (Json.obj byType).Distinct) (hsettled : ∀ m ∈ byType, Settled m.2) :
    (Json.sortedMembers byType).map (fun m => (m.1, settleType m.2)) = Json.sortedMembers byType := by
  refine (List.map_congr_left fun m hm => ?_).trans (List.map_id _)
  obtain ⟨m', hm', rfl⟩ := List.mem_map.mp ((Json.perm_sortedMembers byType).mem_iff.mp hm)
  have hv := Json.distinctMembers_iff.mp hdistinct.2 m' hm'
  exact Prod.ext rfl (settleType_of_settled (settled_sortKeys hv (hsettled m' hm')))

/-- **What is saved is read back.** -/
lemma fromDict_toDict (h : Consistent c)
    (hread : ∀ x ∈ c.convertedNumbers, float rt (rt.jsonFloat x) = some x) (now : PyFloat) :
    fromDict rt now (Json.obj (c.toDict rt)).sortKeys = some (c.stored rt) := by
  have hfind : ∀ name, PyDict.find name (Json.sortedMembers (c.toDict rt)) =
      (PyDict.find name (c.toDict rt)).map Json.sortKeys :=
    Json.find_sortedMembers (distinct_toDict h).1
  have hfloat : ∀ name default x, PyDict.find name (c.toDict rt) = some (rt.jsonFloat x) →
      x ∈ c.convertedNumbers →
      floatField rt name default (Json.sortedMembers (c.toDict rt)) = some x := by
    intro name default x hname hx
    rw [floatField, hfind, hname]
    show float rt (rt.jsonFloat x).sortKeys = some x
    rw [float_sortKeys, hread x hx]
  have hdict : ∀ name members, PyDict.find name (c.toDict rt) = some (.obj members) →
      dictField name (Json.sortedMembers (c.toDict rt)) = some (Json.sortedMembers members) := by
    intro name members hname
    rw [dictField, hfind, hname]
    rfl
  have hget : ∀ name v, PyDict.find name (c.toDict rt) = some v →
      get name (Json.sortedMembers (c.toDict rt)) = v.sortKeys := by
    intro name v hname
    rw [DynamicValue.get, hfind, hname]
    rfl
  have hthreshold := @selected_optional rt _ _ h.threshold fun y hy => hread y (by
    rw [convertedNumbers]
    exact List.mem_append_left _ (List.mem_append_right _ hy))
  have hmargin := @selected_optional rt _ _ h.margin fun y hy => hread y (by
    rw [convertedNumbers]
    exact List.mem_append_right _ hy)
  have hnumber : ∀ x ∈ [c.minPrecisionTarget, c.costFp, c.costFn, c.createdAt],
      x ∈ c.convertedNumbers := fun x hx =>
    List.mem_append_left _ (List.mem_append_left _ hx)
  rw [Json.sortKeys_obj, fromDict, hget "optimal_threshold" _ rfl,
    hget "threshold_selection_reason" _ rfl, hget "optimal_margin" _ rfl,
    hget "margin_selection_reason" _ rfl, hget "multivariate_prior" _ rfl, hthreshold, hmargin,
    hdict "by_type" _ rfl, hdict "metrics" _ rfl,
    hfloat "min_precision_target" _ _ rfl (hnumber _ (by simp)),
    hfloat "cost_fp" _ _ rfl (hnumber _ (by simp)), hfloat "cost_fn" _ _ rfl (hnumber _ (by simp)),
    hfloat "created_at" _ _ rfl (hnumber _ (by simp))]
  simp only [textField, hfind]
  show some _ = some _
  rw [map_settleType_sortedMembers h.byType h.settled]
  rfl

/-! ## The same decisions -/

/-- Two calibrators decide alike: the thresholds, the acceptance, the curves, the prior and, up to the
order of names, the settings of every type. -/
structure SameDecisions (rt : Runtime) (c c' : IsotonicCalibrator) : Prop where
  getThreshold : ∀ queryType default,
    c'.getThreshold rt queryType default = c.getThreshold rt queryType default
  shouldAccept : ∀ score margin useMargin,
    c'.shouldAccept score margin useMargin = c.shouldAccept score margin useMargin
  curveOf : ∀ queryType, c'.curveOf rt queryType = c.curveOf rt queryType
  priorTerms : c'.priorTerms rt = c.priorTerms rt
  settings : ∀ queryType, PyDict.find queryType c'.byType =
    (PyDict.find queryType c.byType).map Json.sortKeys

lemma settingsOf_stored (h : Consistent c) (queryType : Option String) :
    (c.stored rt).settingsOf queryType = (c.settingsOf queryType).map Json.sortKeys := by
  rw [settingsOf, settingsOf, Option.map_bind]
  congr 1
  funext queryType
  exact Json.find_sortedMembers h.byType.1 queryType

lemma distinct_settingsOf (h : Consistent c) {queryType : Option String} {v : Json}
    (hv : c.settingsOf queryType = some v) : v.Distinct := by
  obtain ⟨name, -, hfind⟩ := Option.bind_eq_some_iff.mp hv
  exact Json.distinctMembers_iff.mp h.byType.2 _ (PyDict.mem_of_find hfind)

lemma getThreshold_stored (h : Consistent c) (queryType : Option String)
    (default : Option PyFloat) :
    (c.stored rt).getThreshold rt queryType default = c.getThreshold rt queryType default := by
  unfold getThreshold
  rw [settingsOf_stored h]
  cases hv : c.settingsOf queryType with
  | none => rfl
  | some v =>
      have hdistinct := distinct_settingsOf h hv
      cases v with
      | obj cfg =>
          rw [Option.map_some, Json.sortKeys_obj]
          simp only [get_sortedMembers hdistinct.1, truthy_sortKeys, isNull_sortKeys,
            isText_sortKeys, float_sortKeys]
      | _ => rfl

lemma numbers_float_sortKeys (v : Json) : numbers (float rt) v.sortKeys = numbers (float rt) v :=
  numbers_sortKeys float_sortKeys v

lemma curveOf_stored (h : Consistent c) (queryType : Option String) :
    (c.stored rt).curveOf rt queryType = c.curveOf rt queryType := by
  have hcommon : (numbers (float rt) (c.stored rt).knotsX, numbers (float rt) (c.stored rt).knotsY) =
      (numbers (float rt) c.knotsX, numbers (float rt) c.knotsY) :=
    Prod.ext (numbers_float_sortKeys c.knotsX) (numbers_float_sortKeys c.knotsY)
  unfold curveOf
  rw [settingsOf_stored h]
  cases hv : c.settingsOf queryType with
  | none => exact hcommon
  | some v =>
      have hdistinct := distinct_settingsOf h hv
      cases v with
      | obj cfg =>
          have hchoice : ∀ (name : String) (w : Json),
              numbers (float rt) (if rt.truthy (get name (Json.sortedMembers cfg)) then
                get name (Json.sortedMembers cfg) else w.sortKeys) =
              numbers (float rt) (if rt.truthy (get name cfg) then get name cfg else w) := by
            intro name w
            rw [get_sortedMembers hdistinct.1, truthy_sortKeys]
            split_ifs
            · exact numbers_float_sortKeys _
            · exact numbers_float_sortKeys _
          exact Prod.ext (hchoice "knots_x" c.knotsX) (hchoice "knots_y" c.knotsY)
      | _ => exact hcommon

lemma priorTerms_stored (h : Consistent c) : (c.stored rt).priorTerms rt = c.priorTerms rt := by
  unfold priorTerms
  rw [show (c.stored rt).multivariatePrior = c.multivariatePrior.sortKeys from rfl, truthy_sortKeys]
  by_cases htruthy : rt.truthy c.multivariatePrior
  · rw [if_pos htruthy, if_pos htruthy]
    have hprior := h.prior
    cases hv : c.multivariatePrior with
    | obj prior =>
        rw [hv] at hprior
        have hfind := @Json.find_sortedMembers prior hprior.1
        have hfield : ∀ name default, floatField rt name default (Json.sortedMembers prior) =
            floatField rt name default prior := by
          intro name default
          rw [floatField, floatField, hfind]
          cases PyDict.find name prior with
          | none => rfl
          | some v => exact float_sortKeys v
        have helement : ∀ name : String,
            element rt ((PyDict.find name (Json.sortedMembers prior)).getD
              (rt.jsonFloat (.finite 0))) =
            element rt ((PyDict.find name prior).getD (rt.jsonFloat (.finite 0))) := by
          intro name
          rw [hfind]
          cases PyDict.find name prior with
          | none => rfl
          | some v => exact element_sortKeys v
        rw [Json.sortKeys_obj]
        simp only [hfield, helement]
        simp only [hfind, Option.isSome_map]
        cases PyDict.find "weights" prior with
        | none => rfl
        | some v => simp only [Option.map_some, numbers_sortKeys element_sortKeys]
    | _ => rfl
  · rw [if_neg htruthy, if_neg htruthy]

lemma sameDecisions_stored (h : Consistent c) : SameDecisions rt c (c.stored rt) where
  getThreshold := getThreshold_stored h
  shouldAccept _ _ _ := rfl
  curveOf := curveOf_stored h
  priorTerms := priorTerms_stored h
  settings := Json.find_sortedMembers h.byType.1

/-! ## The digest -/

def coveredFields : List String :=
  ["knots_x", "knots_y", "optimal_threshold", "optimal_margin", "threshold_selection_reason",
    "margin_selection_reason", "by_type", "multivariate_prior", "version_id"]

/-- The digest that belongs to the covered fields of a file. -/
def contentDigest (rt : Runtime) (data : List (String × Json)) : String :=
  rt.hexdigest (Json.dumpsSorted (.obj (coveredFields.map fun name => (name, get name data))))

/-- The covered fields of a file have the digest that it stores. -/
def intact (rt : Runtime) : Json → Bool
  | .obj data => isText (contentDigest rt data) (get "sha256" data)
  | _ => false

lemma intact_obj (data : List (String × Json)) :
    intact rt (.obj data) = isText (contentDigest rt data) (get "sha256" data) := rfl

/-- **A saved file has its digest.** -/
lemma intact_toDict (h : Consistent c) :
    intact rt (Json.obj ((c.updateDigest rt).toDict rt)).sortKeys = true := by
  have hget := get_sortedMembers (@distinct_toDict rt _ (@consistent_updateDigest rt _ h)).1
  have hdigest : contentDigest rt (Json.sortedMembers ((c.updateDigest rt).toDict rt)) =
      c.digest rt := by
    have hsorted := Json.sortKeys_obj_map_sortKeys
      (coveredFields.map fun name => (name, get name ((c.updateDigest rt).toDict rt)))
    rw [List.map_map] at hsorted
    unfold contentDigest
    simp only [hget]
    exact congrArg (fun v : Json => rt.hexdigest v.dumps) hsorted
  have hstored : get "sha256" ((c.updateDigest rt).toDict rt) = .str (c.digest rt) := rfl
  rw [Json.sortKeys_obj, intact_obj, hdigest, hget, hstored]
  exact decide_eq_true rfl

/-- What `from_dict` converts can be converted. -/
def Convertible (rt : Runtime) : Json → Prop
  | .obj data =>
    (∀ p ∈ [("optimal_threshold", "threshold_selection_reason"),
        ("optimal_margin", "margin_selection_reason")],
      isNull (get p.1 data) ∨ isText "learned" (get p.2 data) = false ∨
        (float rt (get p.1 data)).isSome) ∧
    (∀ name ∈ ["min_precision_target", "cost_fp", "cost_fn", "created_at"],
      ∀ v, PyDict.find name data = some v → (float rt v).isSome) ∧
    ∀ name ∈ ["by_type", "metrics"], ∀ v, PyDict.find name data = some v → (dict v).isSome
  | _ => False

lemma isSome_selected_iff {raw reason : Json} : (selected rt raw reason).isSome ↔
    (isNull raw ∨ isText "learned" reason = false ∨ (float rt raw).isSome) := by
  unfold selected
  by_cases hnull : isNull raw
  · rw [if_pos hnull]
    exact iff_of_true rfl (.inl hnull)
  · rw [if_neg hnull]
    by_cases hlearned : isText "learned" reason
    · rw [if_pos hlearned, Option.isSome_map, hlearned]
      simp [hnull]
    · rw [if_neg hlearned]
      exact iff_of_true rfl (.inr (.inl (Bool.eq_false_iff.mpr hlearned)))

lemma isSome_floatField_iff {name : String} {default : PyFloat} {data : List (String × Json)} :
    (floatField rt name default data).isSome ↔
      ∀ v, PyDict.find name data = some v → (float rt v).isSome := by
  unfold floatField
  cases PyDict.find name data with
  | none => exact iff_of_true rfl nofun
  | some v => simp

lemma isSome_dictField_iff {name : String} {data : List (String × Json)} :
    (dictField name data).isSome ↔
      ∀ v, PyDict.find name data = some v → (dict v).isSome := by
  unfold dictField
  cases PyDict.find name data with
  | none => exact iff_of_true rfl nofun
  | some v => simp

lemma isSome_bind_iff {α β : Type} {o : Option α} {f : α → Option β} {p : Prop}
    (hf : ∀ a, (f a).isSome ↔ p) : (o.bind f).isSome ↔ o.isSome ∧ p := by
  cases o with
  | none => simp
  | some a => simp [hf]

/-- **Loading raises** exactly where a conversion does. -/
lemma isSome_fromDict_iff {now : PyFloat} {v : Json} :
    (fromDict rt now v).isSome ↔ Convertible rt v := by
  cases v with
  | obj data =>
      have hchain : (fromDict rt now (.obj data)).isSome ↔
          (selected rt (get "optimal_threshold" data) (get "threshold_selection_reason" data)).isSome ∧
          (selected rt (get "optimal_margin" data) (get "margin_selection_reason" data)).isSome ∧
          (dictField "by_type" data).isSome ∧
          (floatField rt "min_precision_target" (.finite (1 / 2)) data).isSome ∧
          (floatField rt "cost_fp" (.finite 1) data).isSome ∧
          (floatField rt "cost_fn" (.finite 1) data).isSome ∧
          (floatField rt "created_at" now data).isSome ∧
          (dictField "metrics" data).isSome ∧ True := by
        refine isSome_bind_iff fun _ => isSome_bind_iff fun _ => isSome_bind_iff fun _ =>
          isSome_bind_iff fun _ => isSome_bind_iff fun _ => isSome_bind_iff fun _ =>
          isSome_bind_iff fun _ => isSome_bind_iff fun _ => ?_
        exact iff_of_true rfl trivial
      rw [hchain]
      simp only [isSome_selected_iff, isSome_floatField_iff, isSome_dictField_iff, Convertible,
        List.forall_mem_cons, List.not_mem_nil, false_imp_iff, implies_true, and_true]
      grind
  | _ => exact iff_of_false Bool.false_ne_true id

lemma loadArtifact_eq_none_iff {now : PyFloat} {text : PyText} {data : Json}
    (h : Json.loads text = some data) :
    loadArtifact rt now text = none ↔ ¬ Convertible rt data := by
  rw [loadArtifact, h, ← @isSome_fromDict_iff rt now, Option.not_isSome_iff_eq_none]
  rfl

/-- **Calibration artifacts.**  A saved calibrator has its digest and is loaded with the same
decisions; a file is refused for a wrong digest if and only if one of its values cannot be
converted. -/
theorem artifact_refused_iff (hbuilt : Built rt c)
    (hread : ∀ x ∈ c.convertedNumbers, float rt (rt.jsonFloat x) = some x) (now : PyFloat)
    {text : PyText} {data : Json} (hdata : Json.loads text = some data) :
    (∃ saved c', Json.loads (saveArtifact rt c) = some saved ∧ intact rt saved = true ∧
      loadArtifact rt now (saveArtifact rt c) = some c' ∧ SameDecisions rt c c') ∧
    ((intact rt data = false → loadArtifact rt now text = none) ↔
      intact rt data = true ∨ ¬ Convertible rt data) := by
  have hconsistent := consistent_of_built hbuilt
  have hupdated := @consistent_updateDigest rt _ hconsistent
  have hsaved : Json.loads (saveArtifact rt c) =
      some (Json.obj ((c.updateDigest rt).toDict rt)).sortKeys :=
    Json.loads_fileText (distinct_toDict hupdated)
  have hload : loadArtifact rt now (saveArtifact rt c) = some ((c.updateDigest rt).stored rt) := by
    rw [loadArtifact, hsaved, Option.bind_some]
    exact fromDict_toDict hupdated hread now
  have hsame := @sameDecisions_stored rt _ hupdated
  refine ⟨⟨_, _, hsaved, intact_toDict hconsistent, hload,
    ⟨hsame.getThreshold, hsame.shouldAccept, hsame.curveOf, hsame.priorTerms, hsame.settings⟩⟩, ?_⟩
  rw [loadArtifact_eq_none_iff hdata]
  cases intact rt data with
  | false => simp
  | true => simp

/-- A calibrator with the threshold `1.0`, and the file of an edited one. -/
theorem artifact_refused_iff_edited :
    ∃ text data, Json.loads text = some data ∧
      ((intact .sample data = false → loadArtifact .sample (.finite 0) text = none) ↔
        intact .sample data = true ∨ ¬ Convertible .sample data) := by
  have hbuilt : Built .sample (create (some (.finite 1)) none (.finite 0) (.finite 1) (.finite 1)
      (.finite 0) .null) := .create _ _ _ _ _ _ _ trivial
  have hdata : (Json.obj [("sha256", .str "0")]).Distinct := ⟨by decide, trivial, trivial⟩
  refine ⟨_, _, Json.loads_fileText hdata,
    (artifact_refused_iff hbuilt (fun x hx => ?_) (.finite 0) (Json.loads_fileText hdata)).2⟩
  simp only [convertedNumbers, create, Option.toList, List.append_nil, List.mem_append,
    List.mem_cons, List.not_mem_nil, or_false] at hx
  rcases hx with (rfl | rfl | rfl | rfl) | rfl <;> decide +kernel

/-- With a digest without collisions, a file with the threshold `1.0` and a wrong digest is loaded. -/
theorem edited_artifact_loaded : Function.Injective Runtime.sample.hexdigest ∧
    ∃ text data, Json.loads text = some data ∧ intact .sample data = false ∧
      (loadArtifact .sample (.finite 0) text).map optimalThreshold = some (some (.finite 1)) := by
  have hdata : (Json.obj [("optimal_threshold", .number ⟨"1.0", by decide⟩), ("sha256", .str "0"),
      ("threshold_selection_reason", .str "learned")]).Distinct :=
    ⟨by decide, trivial, trivial, trivial, trivial⟩
  refine ⟨Runtime.sample_injective, _, _, Json.loads_fileText hdata, ?_, ?_⟩
  · decide +kernel
  · rw [loadArtifact, Json.loads_fileText hdata]
    decide +kernel

end IsotonicCalibrator

end Calibration

end AtlasMemory
