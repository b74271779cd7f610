import AtlasMemory.Cognitive.Pava
import AtlasMemory.Foundations.ExactMath
import AtlasMemory.Foundations.PiecewiseLinear
import AtlasMemory.Foundations.PyFloat
import Mathlib.Algebra.Order.BigOperators.Group.List
import Mathlib.Data.List.Dedup
import Mathlib.Data.List.MinMax
import Mathlib.Data.List.Sort

/-!
# The isotonic calibrator

The model of `IsotonicCalibrator.fit` and `predict_proba` of `calibration_engine.py`, without the
multivariate prior and the metrics.  The scores are put into quantile bins; the means of the bins,
their labels pooled by `pava` and both rounded to four places, are the knots of a piecewise linear
curve.  A single score takes it by binary search, an array by `numpy.interp`.

Two knots may stand at one position after the rounding.  At the position of the first knot a single
score gets the value of the first knot that stands there and an array that of the last one; nowhere
else do the two differ.
-/

namespace AtlasMemory

namespace Calibration

open PiecewiseLinear

/-- One row of the training arrays. -/
structure Sample where
  score : ℚ
  label : ℚ
  margin : ℚ := 0
  weight : ℚ := 1
  deriving DecidableEq

inductive SelectionReason
  | learned
  | noCandidateFallback
  deriving DecidableEq

/-- `knots_x` and `knots_y`. -/
structure Knots where
  xs : List ℚ
  ys : List ℚ
  length_eq : xs.length = ys.length
  sorted_xs : xs.Pairwise (· ≤ ·)
  sorted_ys : ys.Pairwise (· ≤ ·)

/-- A calibrator, as far as the fit and the prediction use it. -/
structure Calibrator where
  knots : Knots := ⟨[], [], rfl, .nil, .nil⟩
  referenceScoresSample : List ℚ := []
  optimalThreshold : Option ℚ := none
  optimalMargin : Option ℚ := none
  thresholdSelectionReason : SelectionReason := .noCandidateFallback
  marginSelectionReason : SelectionReason := .noCandidateFallback
  minPrecisionTarget : PyFloat := .finite (1 / 2)
  costFp : PyFloat := .finite 1
  costFn : PyFloat := .finite 1
  byType : List (String × Knots) := []

/-! ## The bins -/

/-- `np.mean`. -/
def mean (xs : List ℚ) : ℚ := xs.sum / xs.length

/-- `np.linspace(0.0, 1.0, n)`. -/
def linspace (n : ℕ) : List ℚ := (List.range n).map fun i => (i : ℚ) / (n - 1 : ℕ)

/-- `np.quantile(scores, q)`: linear interpolation between the two nearest ranks. -/
def quantile (scores : List ℚ) (q : ℚ) : ℚ :=
  let sorted := scores.insertionSort (· ≤ ·)
  let rank := q * (scores.length - 1 : ℕ)
  let low := sorted.getD ⌊rank⌋.toNat 0
  let high := sorted.getD (min (⌊rank⌋.toNat + 1) (scores.length - 1)) 0
  low + (high - low) * Int.fract rank

/-- `np.unique`. -/
def unique (xs : List ℚ) : List ℚ := (xs.insertionSort (· ≤ ·)).dedup

/-- The samples between neighbouring edges; the last bin contains its upper edge. -/
def binsOf (samples : List Sample) : List ℚ → List (List Sample)
  | low :: high :: rest =>
    (samples.filter fun s => low ≤ s.score ∧ if rest = [] then s.score ≤ high else s.score < high) ::
      binsOf samples (high :: rest)
  | _ => []

def bins (samples : List Sample) (nBins : ℕ) : List (List Sample) :=
  (binsOf samples (unique ((linspace (nBins + 1)).map (quantile (samples.map Sample.score))))).filter
    (· ≠ [])

/-- The entry of `bin_w` for a bin. -/
def binWeight (weighted : Bool) (bin : List Sample) : ℚ :=
  if weighted ∧ 0 < (bin.map Sample.weight).sum then (bin.map Sample.weight).sum else bin.length

/-- The entry of `bin_y` for a bin. -/
def binLabel (weighted : Bool) (bin : List Sample) : ℚ :=
  if weighted ∧ 0 < (bin.map Sample.weight).sum then
    (bin.map fun s => s.weight * s.label).sum / (bin.map Sample.weight).sum
  else mean (bin.map Sample.label)

/-- Of two bins the later one has no smaller score. -/
def Before (bin bin' : List Sample) : Prop := ∀ s ∈ bin, ∀ t ∈ bin', s.score ≤ t.score

lemma edge_le_of_mem_binsOf {samples : List Sample} {low : ℚ} {edges : List ℚ}
    (hedges : (low :: edges).Pairwise (· ≤ ·)) {bin : List Sample}
    (hbin : bin ∈ binsOf samples (low :: edges)) {s : Sample} (hs : s ∈ bin) : low ≤ s.score := by
  induction edges generalizing low with
  | nil => exact absurd hbin List.not_mem_nil
  | cons high rest ih =>
    obtain ⟨hfirst, hrest⟩ := List.pairwise_cons.mp hedges
    rcases List.mem_cons.mp hbin with rfl | hbin
    · exact (of_decide_eq_true (List.mem_filter.mp hs).2).1
    · exact (hfirst high List.mem_cons_self).trans (ih hrest hbin)

lemma pairwise_binsOf (samples : List Sample) {edges : List ℚ} (hedges : edges.Pairwise (· ≤ ·)) :
    (binsOf samples edges).Pairwise Before := by
  induction edges with
  | nil => exact List.Pairwise.nil
  | cons low edges ih =>
    obtain ⟨hfirst, hrest⟩ := List.pairwise_cons.mp hedges
    rcases edges with _ | ⟨high, rest⟩
    · exact List.Pairwise.nil
    · refine List.pairwise_cons.mpr ⟨fun bin hbin s hs t ht => ?_, ih hrest⟩
      have hhigh : high ≤ t.score := edge_le_of_mem_binsOf hrest hbin ht
      have hupper := (of_decide_eq_true (List.mem_filter.mp hs).2).2
      have hle : s.score ≤ high := by
        split_ifs at hupper
        · exact hupper
        · exact hupper.le
      exact hle.trans hhigh

lemma pairwise_unique (xs : List ℚ) : (unique xs).Pairwise (· ≤ ·) :=
  (List.pairwise_insertionSort _ xs).sublist (List.dedup_sublist _)

lemma pairwise_bins (samples : List Sample) (nBins : ℕ) : (bins samples nBins).Pairwise Before :=
  (pairwise_binsOf samples (pairwise_unique _)).filter _

lemma ne_nil_of_mem_bins {samples : List Sample} {nBins : ℕ} {bin : List Sample}
    (h : bin ∈ bins samples nBins) : bin ≠ [] :=
  of_decide_eq_true (List.mem_filter.mp h).2

lemma mean_le {xs : List ℚ} (hne : xs ≠ []) {c : ℚ} (h : ∀ x ∈ xs, x ≤ c) : mean xs ≤ c := by
  have hpos : (0 : ℚ) < xs.length := by exact_mod_cast List.length_pos_of_ne_nil hne
  have hsum := List.sum_le_card_nsmul xs c h
  rw [nsmul_eq_mul] at hsum
  exact (div_le_iff₀ hpos).mpr (by rwa [mul_comm] at hsum)

lemma le_mean {xs : List ℚ} (hne : xs ≠ []) {c : ℚ} (h : ∀ x ∈ xs, c ≤ x) : c ≤ mean xs := by
  have hpos : (0 : ℚ) < xs.length := by exact_mod_cast List.length_pos_of_ne_nil hne
  have hsum := List.card_nsmul_le_sum xs c h
  rw [nsmul_eq_mul] at hsum
  exact (le_div_iff₀ hpos).mpr (by rwa [mul_comm] at hsum)

lemma mean_le_mean {bin bin' : List Sample} (hne : bin ≠ []) (hne' : bin' ≠ [])
    (h : Before bin bin') : mean (bin.map Sample.score) ≤ mean (bin'.map Sample.score) := by
  refine mean_le (by simpa using hne) fun x hx => le_mean (by simpa using hne') fun y hy => ?_
  obtain ⟨s, hs, rfl⟩ := List.mem_map.mp hx
  obtain ⟨t, ht, rfl⟩ := List.mem_map.mp hy
  exact h s hs t ht

/-! ## The fit -/

/-- The curve of `fit`. -/
def fitKnots (samples : List Sample) (weighted : Bool) (nBins : ℕ) : Knots where
  xs := (bins samples nBins).map fun bin => round4 (mean (bin.map Sample.score))
  ys := (Pava.pava ((bins samples nBins).map (binLabel weighted))
    (some ((bins samples nBins).map (binWeight weighted)))).map round4
  length_eq := by
    rw [List.length_map, List.length_map, Pava.length_pava, Pava.pointsOf, Option.getD_some,
      List.length_zip, List.length_map, List.length_map, min_self]
  sorted_xs := by
    refine List.pairwise_map.mpr ((pairwise_bins samples nBins).imp_of_mem ?_)
    intro bin bin' hbin hbin' h
    exact round4_mono (mean_le_mean (ne_nil_of_mem_bins hbin) (ne_nil_of_mem_bins hbin') h)
  sorted_ys := List.pairwise_map.mpr ((Pava.pairwise_pava _ _).imp fun h => round4_mono h)

/-- What an acceptance rule does on the samples. -/
structure Confusion where
  tp : ℕ
  fp : ℕ
  fn : ℕ

def confusion (samples : List Sample) (accepted : Sample → Bool) : Confusion where
  tp := samples.countP fun s => accepted s && decide (1 / 2 ≤ s.label)
  fp := samples.countP fun s => accepted s && decide (s.label < 1 / 2)
  fn := samples.countP fun s => !accepted s && decide (1 / 2 ≤ s.label)

def Confusion.precision (c : Confusion) : ℚ :=
  if 0 < c.tp + c.fp then (c.tp : ℚ) / max 1 (c.tp + c.fp : ℕ) else 0

def Confusion.recall (c : Confusion) : ℚ := (c.tp : ℚ) / max 1 (c.tp + c.fn : ℕ)

/-- `best_thresh`, `min_cost` and `best_recall`. -/
structure ThresholdSearch where
  best : Option ℚ := none
  minCost : PyFloat := .posInf
  bestRecall : ℚ := 0

/-- The round of the first loop for the threshold `t`. -/
def ThresholdSearch.round (self : Calibrator) (samples : List Sample) (state : ThresholdSearch)
    (t : ℚ) : ThresholdSearch :=
  let c := confusion samples fun s => t ≤ s.score
  let cost := ((PyFloat.finite c.fp).mul self.costFp).add ((PyFloat.finite c.fn).mul self.costFn)
  if 0 < c.tp ∧ self.minPrecisionTarget.lt (.finite c.precision) then
    if cost.lt state.minCost ∨ (cost.eq state.minCost ∧ state.bestRecall < c.recall) then
      ⟨some t, cost, c.recall⟩
    else state
  else state

/-- The round of the second loop for the margin `m`; the state is `best_m` and `best_f1`. -/
def marginRound (self : Calibrator) (samples : List Sample) (state : Option ℚ × ℚ) (m : ℚ) :
    Option ℚ × ℚ :=
  let c := confusion samples fun s => m ≤ s.margin
  let f1 := 2 * c.precision * c.recall / max (1 / 10 ^ 6) (c.precision + c.recall)
  if 0 < c.tp ∧ self.minPrecisionTarget.lt (.finite c.precision) ∧ state.2 < f1 then (some m, f1)
  else state

/-- The learned value or the reason why there is none. -/
def reasonFor (best : Option ℚ) : SelectionReason :=
  if best.isSome then .learned else .noCandidateFallback

/-- `IsotonicCalibrator.fit`: the quantiles of no scores raise. -/
def Calibrator.fit (self : Calibrator) (samples : List Sample) (weighted : Bool) (nBins : ℕ) :
    Option Calibrator :=
  if samples = [] then none
  else
    -- `np.arange(0.05, 1.105, 0.01)` and `np.arange(0.01, 0.25, 0.01)`
    let threshold := (((List.range 106).map fun i => ((5 + i : ℕ) : ℚ) / 100).foldl
      (ThresholdSearch.round self samples) {}).best
    let margin := (((List.range 24).map fun i => ((1 + i : ℕ) : ℚ) / 100).foldl
      (marginRound self samples) (none, 0)).1
    some { self with
      knots := fitKnots samples weighted nBins
      optimalThreshold := threshold
      thresholdSelectionReason := reasonFor threshold
      optimalMargin := margin
      marginSelectionReason := reasonFor margin
      referenceScoresSample :=
        (linspace 50).map fun q => round4 (quantile (samples.map Sample.score) q) }

/-! ### What the loops select -/

section Selection

variable {self : Calibrator} {samples : List Sample}

/-- What the threshold `t` accepts. -/
def atThreshold (samples : List Sample) (t : ℚ) : Confusion := confusion samples fun s => t ≤ s.score

/-- What the margin `m` accepts. -/
def atMargin (samples : List Sample) (m : ℚ) : Confusion := confusion samples fun s => m ≤ s.margin

/-- A candidate that finds a positive sample, with a precision above the target. -/
def Calibrator.Admits (self : Calibrator) (c : Confusion) : Prop :=
  0 < c.tp ∧ self.minPrecisionTarget.lt (.finite c.precision) = true

instance (self : Calibrator) (c : Confusion) : Decidable (self.Admits c) :=
  inferInstanceAs (Decidable (_ ∧ _))

def Calibrator.cost (self : Calibrator) (c : Confusion) : ℚ :=
  c.fp * self.costFp.toRat + c.fn * self.costFn.toRat

def Confusion.f1 (c : Confusion) : ℚ :=
  2 * c.precision * c.recall / max (1 / 10 ^ 6) (c.precision + c.recall)

/-- The rank of a threshold: a lower cost, and then a higher recall. -/
def Calibrator.rank (self : Calibrator) (samples : List Sample) (t : ℚ) : ℚ ×ₗ ℚ :=
  toLex (-self.cost (atThreshold samples t), (atThreshold samples t).recall)

/-- The first of the best thresholds that are admitted. -/
def Calibrator.bestThreshold (self : Calibrator) (samples : List Sample) (ts : List ℚ) : Option ℚ :=
  (ts.filter fun t => self.Admits (atThreshold samples t)).argmax (self.rank samples)

/-- The first of the best margins that are admitted. -/
def Calibrator.bestMargin (self : Calibrator) (samples : List Sample) (ms : List ℚ) : Option ℚ :=
  (ms.filter fun m => self.Admits (atMargin samples m)).argmax fun m => (atMargin samples m).f1

/-- The state of the first loop when a threshold is selected. -/
def ThresholdSearch.Holds (state : ThresholdSearch) (self : Calibrator) (samples : List Sample) :
    Option ℚ → Prop
  | none => state = {}
  | some t => state.best = some t ∧ state.minCost.IsNumber ∧
      toLex (-state.minCost.toRat, state.bestRecall) = self.rank samples t

/-- The decision cost, as the loop computes it. -/
def Calibrator.floatCost (self : Calibrator) (c : Confusion) : PyFloat :=
  ((PyFloat.finite c.fp).mul self.costFp).add ((PyFloat.finite c.fn).mul self.costFn)

lemma number_floatCost (hfp : self.costFp.IsNumber) (hfn : self.costFn.IsNumber) (c : Confusion) :
    (self.floatCost c).IsNumber ∧ (self.floatCost c).toRat = self.cost c := by
  have hfps := PyFloat.number_mul (x := .finite c.fp) trivial hfp
  have hfns := PyFloat.number_mul (x := .finite c.fn) trivial hfn
  obtain ⟨hnumber, hcost⟩ := PyFloat.number_add hfps.1 hfns.1
  exact ⟨hnumber, by rw [Calibrator.floatCost, hcost, hfps.2, hfns.2]; rfl⟩

lemma round_of_admits (state : ThresholdSearch) {t : ℚ}
    (ht : self.Admits (atThreshold samples t)) :
    state.round self samples t =
      let c := atThreshold samples t
      if (self.floatCost c).lt state.minCost ∨
          ((self.floatCost c).eq state.minCost ∧ state.bestRecall < c.recall) then
        ⟨some t, self.floatCost c, c.recall⟩
      else state :=
  if_pos ht

lemma holds_round (hfp : self.costFp.IsNumber) (hfn : self.costFn.IsNumber) {state : ThresholdSearch}
    {best : Option ℚ} (h : state.Holds self samples best) {t : ℚ}
    (ht : self.Admits (atThreshold samples t)) :
    (state.round self samples t).Holds self samples
      (best.elim (some t) fun b => if self.rank samples b < self.rank samples t then some t
        else some b) := by
  obtain ⟨hnumber, hcost⟩ := number_floatCost hfp hfn (atThreshold samples t)
  have htaken : toLex (-(self.floatCost (atThreshold samples t)).toRat,
      (atThreshold samples t).recall) = self.rank samples t := by rw [hcost]; rfl
  rw [round_of_admits state ht]
  dsimp only
  cases best with
  | none =>
      obtain rfl : state = {} := h
      have hlt : (self.floatCost (atThreshold samples t)).lt .posInf = true := by
        cases hx : self.floatCost (atThreshold samples t) <;> simp_all [PyFloat.IsNumber, PyFloat.lt]
      rw [if_pos (Or.inl hlt)]
      exact ⟨rfl, hnumber, htaken⟩
  | some b =>
      obtain ⟨hbest, hmin, hrank⟩ := h
      have hbetter : ((self.floatCost (atThreshold samples t)).lt state.minCost = true ∨
          (self.floatCost (atThreshold samples t)).eq state.minCost = true ∧
            state.bestRecall < (atThreshold samples t).recall) ↔
          self.rank samples b < self.rank samples t := by
        rw [PyFloat.lt_iff_toRat hnumber hmin, PyFloat.eq_iff_toRat hnumber hmin, ← hrank, ← htaken,
          Prod.Lex.toLex_lt_toLex, neg_lt_neg_iff, neg_inj, eq_comm]
      rw [Option.elim_some]
      by_cases hlt : self.rank samples b < self.rank samples t
      · rw [if_pos (hbetter.mpr hlt), if_pos hlt]
        exact ⟨rfl, hnumber, htaken⟩
      · rw [if_neg (hbetter.not.mpr hlt), if_neg hlt]
        exact ⟨hbest, hmin, hrank⟩

/-- The first loop goes through the admitted thresholds, and keeps the best one. -/
lemma holds_foldl_round (hfp : self.costFp.IsNumber) (hfn : self.costFn.IsNumber) (ts : List ℚ) :
    (ts.foldl (ThresholdSearch.round self samples) {}).Holds self samples
      (self.bestThreshold samples ts) := by
  induction ts using List.reverseRecOn with
  | nil => rfl
  | append_singleton ts t ih =>
      rw [List.foldl_concat, Calibrator.bestThreshold, List.filter_append]
      by_cases ht : self.Admits (atThreshold samples t)
      · rw [List.filter_singleton, decide_eq_true ht, cond_true, List.argmax_concat]
        have hnext := holds_round hfp hfn ih ht
        unfold Calibrator.bestThreshold at hnext
        cases hbest : (ts.filter fun t => self.Admits (atThreshold samples t)).argmax
          (self.rank samples) <;> rw [hbest] at hnext <;> exact hnext
      · rw [List.filter_singleton, decide_eq_false ht, cond_false, List.append_nil]
        have hskip : ∀ state : ThresholdSearch, state.round self samples t = state :=
          fun state => if_neg ht
        rw [hskip]
        exact ih

lemma f1_pos {c : Confusion} (h : self.Admits c) : 0 < c.f1 := by
  have htp : (0 : ℚ) < c.tp := Nat.cast_pos.mpr h.1
  have hshare : ∀ n : ℕ, 0 < (c.tp : ℚ) / max 1 n := fun n =>
    div_pos htp (Nat.cast_pos.mpr (lt_max_of_lt_left one_pos))
  have hprecision : 0 < c.precision := by
    unfold Confusion.precision
    rw [if_pos (Nat.add_pos_left h.1 _)]
    exact hshare _
  have hrecall : 0 < c.recall := hshare _
  unfold Confusion.f1
  positivity

lemma foldl_marginRound (ms : List ℚ) :
    ms.foldl (marginRound self samples) (none, 0) =
      (self.bestMargin samples ms, (self.bestMargin samples ms).elim 0 fun m =>
        (atMargin samples m).f1) := by
  induction ms using List.reverseRecOn with
  | nil => rfl
  | append_singleton ms m ih =>
      rw [List.foldl_concat, ih]
      unfold Calibrator.bestMargin
      rw [List.filter_append, List.filter_singleton]
      by_cases hm : self.Admits (atMargin samples m)
      · rw [decide_eq_true hm, cond_true, List.argmax_concat]
        cases (ms.filter fun m => self.Admits (atMargin samples m)).argmax
            fun m => (atMargin samples m).f1 with
        | none => exact if_pos ⟨hm.1, hm.2, f1_pos hm⟩
        | some b =>
            dsimp only
            by_cases hlt : (atMargin samples b).f1 < (atMargin samples m).f1
            · rw [if_pos hlt]
              exact if_pos ⟨hm.1, hm.2, hlt⟩
            · rw [if_neg hlt]
              exact if_neg fun h => hlt h.2.2
      · rw [decide_eq_false hm, cond_false, List.append_nil]
        exact if_neg fun h => hm ⟨h.1, h.2.1⟩

end Selection

/-! ## The prediction -/

/-- `max(0.0, min(1.0, p))`. -/
def clip (p : ℚ) : ℚ := max 0 (min 1 p)

/-- `np.clip(p, 0.0, 1.0)`. -/
def npClip (p : ℚ) : ℚ := min (max p 0) 1

/-- The curve that was fitted for the query type. -/
def Calibrator.typed (self : Calibrator) (queryType : Option String) : Option Knots :=
  (queryType.filter (· ≠ "")).bind fun queryType =>
    (self.byType.lookup queryType).filter fun knots => knots.xs ≠ []

def Calibrator.knotsFor (self : Calibrator) (queryType : Option String) : Knots :=
  (self.typed queryType).getD self.knots

def Knots.bisected (k : Knots) (val : ℚ) : ℚ :=
  let idx := bisectRight k.xs val k.xs.length 0 k.xs.length
  let x₀ := k.xs.getD (idx - 1) 0
  let x₁ := k.xs.getD idx 0
  let y₀ := k.ys.getD (idx - 1) 0
  let y₁ := k.ys.getD idx 0
  if x₁ = x₀ then y₀ else y₀ + (val - x₀) * (y₁ - y₀) / (x₁ - x₀)

/-- `predict_proba` for a single score. -/
def Calibrator.predictScalar (self : Calibrator) (queryType : Option String) (score : ℚ) : ℚ :=
  let k := self.knotsFor queryType
  if k.xs = [] ∨ k.ys = [] then clip score
  else if score ≤ k.xs.headD 0 then clip (k.ys.headD 0)
  else if k.xs.getLastD 0 ≤ score then clip (k.ys.getLastD 0)
  else clip (k.bisected score)

/-- `np.interp(x, xp, fp, left, right)`. -/
def interp (x : ℚ) (xp fp : List ℚ) (left right : ℚ) : ℚ :=
  match (List.range (xp.length - 1)).reverse.find? fun j =>
      xp.getD j 0 ≤ x ∧ x < xp.getD (j + 1) 0 with
  | some j => segment (xp.getD j 0, fp.getD j 0) (xp.getD (j + 1) 0, fp.getD (j + 1) 0) x
  | none => if x < xp.headD 0 then left else right

/-- `predict_proba` for an array. -/
def Calibrator.predictArray (self : Calibrator) (queryType : Option String) (scores : List ℚ) :
    List ℚ :=
  let k := self.knotsFor queryType
  if k.xs = [] ∨ k.ys = [] then scores.map npClip
  else scores.map fun x => npClip (interp x k.xs k.ys (k.ys.headD 0) (k.ys.getLastD 0))

lemma npClip_eq_clip : npClip = clip := by
  funext p
  rw [npClip, clip, max_comm, max_min_distrib_left, max_eq_right zero_le_one, min_comm]

lemma clip_mono : Monotone clip := fun _ _ h => max_le_max le_rfl (min_le_min le_rfl h)

lemma clip_mem (p : ℚ) : 0 ≤ clip p ∧ clip p ≤ 1 :=
  ⟨le_max_left _ _, max_le zero_le_one (min_le_left _ _)⟩

/-! ## The curve behind both interpolations -/

lemma getElem?_eq_getD {xs : List ℚ} {i : ℕ} (h : i < xs.length) :
    xs[i]? = some (xs.getD i 0) := by
  rw [List.getD_eq_getElem?_getD, List.getElem?_eq_getElem h, Option.getD_some]

namespace Knots

variable (k : Knots)

lemma ys_ne_nil (h : k.xs ≠ []) : k.ys ≠ [] := by
  intro hys
  have hlength := k.length_eq
  rw [hys] at hlength
  exact h (List.length_eq_zero_iff.mp hlength)

def points : List (ℚ × ℚ) := k.xs.zip k.ys

lemma getElem?_points {i : ℕ} (h : i < k.xs.length) :
    k.points[i]? = some (k.xs.getD i 0, k.ys.getD i 0) := by
  have hy : i < k.ys.length := k.length_eq ▸ h
  exact List.getElem?_zip_eq_some.mpr ⟨getElem?_eq_getD h, getElem?_eq_getD hy⟩

lemma rising_points : Rising k.points := by
  refine List.pairwise_iff_getElem.mpr fun i j hi hj hij => ?_
  simp only [points, List.getElem_zip]
  exact ⟨List.pairwise_iff_getElem.mp k.sorted_xs i j _ _ hij,
    List.pairwise_iff_getElem.mp k.sorted_ys i j _ _ hij⟩

/-- The first and the last knot of a curve that has one. -/
lemma exists_ends (h : k.xs ≠ []) : ∃ p rest a, k.points = p :: rest ∧ (p :: rest).getLast? = some a ∧
    (k.xs.headD 0, k.ys.headD 0) = p ∧ (k.xs.getLastD 0, k.ys.getLastD 0) = a := by
  have hlength := List.length_pos_of_ne_nil h
  have hsize : k.points.length = k.xs.length := by
    rw [points, List.length_zip, ← k.length_eq, min_self]
  obtain ⟨p, rest, hpoints⟩ := List.exists_cons_of_length_pos (hsize ▸ hlength)
  have hfirst := k.getElem?_points hlength
  have hlast := k.getElem?_points (i := k.xs.length - 1) (by omega)
  refine ⟨p, rest, (k.xs.getLastD 0, k.ys.getLastD 0), hpoints, ?_, ?_, rfl⟩
  · rw [← hpoints, List.getLast?_eq_getElem?, hsize, hlast, List.getLastD_eq_getLast?,
      List.getLastD_eq_getLast?, List.getLast?_eq_getElem?, List.getLast?_eq_getElem?,
      ← k.length_eq, List.getD_eq_getElem?_getD, List.getD_eq_getElem?_getD]
  · rw [hpoints] at hfirst
    have hp := Option.some.inj hfirst
    rw [hp, List.headD_eq_head?_getD, List.headD_eq_head?_getD, List.head?_eq_getElem?,
      List.head?_eq_getElem?, List.getD_eq_getElem?_getD, List.getD_eq_getElem?_getD]

variable {k}

/-- The binary search for a score between the first and the last knot finds its two neighbours. -/
lemma between (hne : k.xs ≠ []) {v : ℚ} (hfirst : k.xs.headD 0 ≤ v)
    (hlast : v < k.xs.getLastD 0) :
    ∃ j, bisectRight k.xs v k.xs.length 0 k.xs.length = j + 1 ∧ j + 1 < k.xs.length ∧
      k.xs.getD j 0 ≤ v ∧ v < k.xs.getD (j + 1) 0 := by
  have hlength := List.length_pos_of_ne_nil hne
  have hsplits : Splits k.xs v (bisectRight k.xs v k.xs.length 0 k.xs.length) := by
    refine splits_bisectRight k.sorted_xs (by omega) (by omega) le_rfl ?_ fun j x hj hx => ?_
    · intro j x hj
      exact absurd hj (Nat.not_lt_zero j)
    · rw [List.getElem?_eq_none hj] at hx
      exact nomatch hx
  rw [List.headD_eq_head?_getD, List.head?_eq_getElem?, ← List.getD_eq_getElem?_getD] at hfirst
  rw [List.getLastD_eq_getLast?, List.getLast?_eq_getElem?, ← List.getD_eq_getElem?_getD] at hlast
  generalize bisectRight k.xs v k.xs.length 0 k.xs.length = i at hsplits ⊢
  have hpos : i ≠ 0 := by
    rintro rfl
    exact absurd (hsplits.after 0 _ le_rfl (getElem?_eq_getD hlength)) (not_lt.mpr hfirst)
  have hlt : i < k.xs.length := by
    by_contra hge
    have hle := hsplits.before (k.xs.length - 1) _ (by omega) (getElem?_eq_getD (by omega))
    exact absurd hlast (not_lt.mpr hle)
  obtain ⟨j, rfl⟩ := Nat.exists_eq_succ_of_ne_zero hpos
  exact ⟨j, rfl, hlt, hsplits.before j _ (by omega) (getElem?_eq_getD (by omega)),
    hsplits.after (j + 1) _ le_rfl (getElem?_eq_getD hlt)⟩

variable {p : ℚ × ℚ} {rest : List (ℚ × ℚ)}

/-- Between two neighbours the curve is the line through them. -/
lemma curve_between (hpoints : k.points = p :: rest) {j : ℕ} (hj : j + 1 < k.xs.length) {v : ℚ}
    (hlow : k.xs.getD j 0 ≤ v) (hhigh : v < k.xs.getD (j + 1) 0) :
    curve p rest v = segment (k.xs.getD j 0, k.ys.getD j 0)
      (k.xs.getD (j + 1) 0, k.ys.getD (j + 1) 0) v := by
  have hrising := k.rising_points
  have ha := k.getElem?_points (i := j) (by omega)
  have hb := k.getElem?_points hj
  rw [hpoints] at hrising ha hb
  exact curve_eq_segment hrising ha hb hlow hhigh

lemma bisected_eq_curve (hne : k.xs ≠ []) (hpoints : k.points = p :: rest) {v : ℚ}
    (hfirst : k.xs.headD 0 ≤ v) (hlast : v < k.xs.getLastD 0) :
    k.bisected v = curve p rest v := by
  obtain ⟨j, hidx, hj, hlow, hhigh⟩ := between hne hfirst hlast
  rw [curve_between hpoints hj hlow hhigh, bisected, hidx, Nat.add_sub_cancel,
    if_neg (lt_of_le_of_lt hlow hhigh).ne']
  rfl

/-- `np.interp` follows the curve from the first knot on. -/
lemma interp_eq_curve (hne : k.xs ≠ []) (hpoints : k.points = p :: rest) (v : ℚ) :
    interp v k.xs k.ys (k.ys.headD 0) (k.ys.getLastD 0) =
      if v < p.1 then p.2 else curve p rest v := by
  obtain ⟨p', rest', a, hpoints', ha, hp, hlast⟩ := k.exists_ends hne
  obtain ⟨rfl, rfl⟩ := List.cons.inj (hpoints.symm.trans hpoints')
  have hrising := k.rising_points
  rw [hpoints] at hrising
  unfold interp
  split
  · rename_i j hfind
    have hmem := List.mem_of_find?_eq_some hfind
    have hj := List.mem_range.mp (List.mem_reverse.mp hmem)
    have hfound := List.find?_some hfind
    obtain ⟨hlow, hhigh⟩ := of_decide_eq_true hfound
    have hfirst : ¬ v < p.1 := by
      have hmem : (k.xs.getD j 0, k.ys.getD j 0) ∈ p :: rest := by
        rw [← hpoints]
        exact List.mem_of_getElem? (k.getElem?_points (by omega))
      refine not_lt.mpr (le_trans ?_ hlow)
      rcases List.mem_cons.mp hmem with heq | hmem
      · exact le_of_eq (congrArg Prod.fst heq.symm)
      · exact ((List.pairwise_cons.mp hrising).1 _ hmem).1
    rw [if_neg hfirst]
    exact (curve_between hpoints (by omega) hlow hhigh).symm
  · rename_i hfind
    have hhead : k.xs.headD 0 = p.1 := congrArg Prod.fst hp
    have hheadY : k.ys.headD 0 = p.2 := congrArg Prod.snd hp
    rw [hhead, hheadY]
    split_ifs with hv
    · rfl
    · have hpast : k.xs.getLastD 0 ≤ v := by
        by_contra hlt
        obtain ⟨j, -, hj, hlow, hhigh⟩ := between hne (hhead ▸ not_lt.mp hv) (not_le.mp hlt)
        refine List.find?_eq_none.mp hfind j ?_ (decide_eq_true ⟨hlow, hhigh⟩)
        exact List.mem_reverse.mpr (List.mem_range.mpr (by omega))
      rw [curve_eq_last hrising ha (by rw [← hlast]; exact hpast), ← hlast]

end Knots

/-! ## Single scores and arrays -/

/-- The knots that stand at the position of the first one have its value inside the unit
interval. -/
def Knots.Plain (k : Knots) : Prop :=
  ∀ p ∈ k.points, p.1 = k.xs.headD 0 → clip p.2 = clip (k.ys.headD 0)

instance (k : Knots) : Decidable k.Plain :=
  inferInstanceAs (Decidable (∀ p ∈ k.points, _ → _))

section Prediction

variable {self : Calibrator} {queryType : Option String}

lemma predictScalar_eq_curve {p : ℚ × ℚ} {rest : List (ℚ × ℚ)}
    (hne : (self.knotsFor queryType).xs ≠ [])
    (hpoints : (self.knotsFor queryType).points = p :: rest) (v : ℚ) :
    self.predictScalar queryType v = clip (if v ≤ p.1 then p.2 else curve p rest v) := by
  obtain ⟨p', rest', a, hpoints', ha, hp, hlast⟩ := (self.knotsFor queryType).exists_ends hne
  obtain ⟨rfl, rfl⟩ := List.cons.inj (hpoints.symm.trans hpoints')
  have hrising := (self.knotsFor queryType).rising_points
  rw [hpoints] at hrising
  have hneY := (self.knotsFor queryType).ys_ne_nil hne
  have hhead : (self.knotsFor queryType).xs.headD 0 = p.1 := congrArg Prod.fst hp
  have hheadY : (self.knotsFor queryType).ys.headD 0 = p.2 := congrArg Prod.snd hp
  unfold Calibrator.predictScalar
  simp only [hne, hneY, or_self, if_false, hhead, hheadY]
  by_cases hv : v ≤ p.1
  · rw [if_pos hv, if_pos hv]
  · rw [if_neg hv, if_neg hv]
    split_ifs with hpast
    · rw [curve_eq_last hrising ha (by rw [← hlast]; exact hpast), ← hlast]
    · rw [Knots.bisected_eq_curve hne hpoints (hhead ▸ (not_le.mp hv).le) (not_le.mp hpast)]

lemma predictArray_eq_curve {p : ℚ × ℚ} {rest : List (ℚ × ℚ)}
    (hne : (self.knotsFor queryType).xs ≠ [])
    (hpoints : (self.knotsFor queryType).points = p :: rest) (scores : List ℚ) :
    self.predictArray queryType scores =
      scores.map fun v => clip (if v < p.1 then p.2 else curve p rest v) := by
  have hneY := (self.knotsFor queryType).ys_ne_nil hne
  unfold Calibrator.predictArray
  simp only [hne, hneY, or_self, if_false, Knots.interp_eq_curve hne hpoints, npClip_eq_clip]

/-- The value of the first knot, and the curve later on. -/
lemma monotone_before {p : ℚ × ℚ} {rest : List (ℚ × ℚ)} (h : Rising (p :: rest))
    {early : ℚ → Prop} [DecidablePred early] (hearly : ∀ u v, u ≤ v → early v → early u)
    (hlate : ∀ v, ¬ early v → p.1 ≤ v) :
    Monotone fun v => if early v then p.2 else curve p rest v := by
  intro u v huv
  by_cases hv : early v
  · show (if early u then p.2 else curve p rest u) ≤ if early v then p.2 else curve p rest v
    rw [if_pos hv, if_pos (hearly u v huv hv)]
  · have hpv := hlate v hv
    show (if early u then p.2 else curve p rest u) ≤ if early v then p.2 else curve p rest v
    rw [if_neg hv]
    split_ifs with hu
    · exact le_curve_of_mem h hpv List.mem_cons_self hpv
    · exact curve_mono h (hlate u hu) huv

lemma predictScalar_of_empty (h : (self.knotsFor queryType).xs = []) :
    self.predictScalar queryType = clip := by
  funext v
  simp only [Calibrator.predictScalar, h, true_or, if_true]

lemma predictArray_of_empty (h : (self.knotsFor queryType).xs = []) (scores : List ℚ) :
    self.predictArray queryType scores = scores.map clip := by
  simp only [Calibrator.predictArray, h, true_or, if_true, npClip_eq_clip]

/-- A single score gets a probability that does not decrease. -/
lemma monotone_predictScalar : Monotone (self.predictScalar queryType) := by
  by_cases hne : (self.knotsFor queryType).xs = []
  · rw [predictScalar_of_empty hne]
    exact clip_mono
  · obtain ⟨p, rest, a, hpoints, -, -, -⟩ := (self.knotsFor queryType).exists_ends hne
    have hrising := (self.knotsFor queryType).rising_points
    rw [hpoints] at hrising
    have hcurve : self.predictScalar queryType =
        clip ∘ fun v => if v ≤ p.1 then p.2 else curve p rest v :=
      funext (predictScalar_eq_curve hne hpoints)
    rw [hcurve]
    exact clip_mono.comp (monotone_before hrising (fun u v huv hv => huv.trans hv)
      fun v hv => (not_le.mp hv).le)

lemma predictScalar_mem (v : ℚ) :
    0 ≤ self.predictScalar queryType v ∧ self.predictScalar queryType v ≤ 1 := by
  by_cases hne : (self.knotsFor queryType).xs = []
  · rw [predictScalar_of_empty hne]
    exact clip_mem v
  · obtain ⟨p, rest, a, hpoints, -, -, -⟩ := (self.knotsFor queryType).exists_ends hne
    rw [predictScalar_eq_curve hne hpoints]
    exact clip_mem _

/-- An array of scores in order gets probabilities in order. -/
lemma pairwise_predictArray {scores : List ℚ} (h : scores.Pairwise (· ≤ ·)) :
    (self.predictArray queryType scores).Pairwise (· ≤ ·) := by
  by_cases hne : (self.knotsFor queryType).xs = []
  · rw [predictArray_of_empty hne]
    exact List.pairwise_map.mpr (h.imp fun huv => clip_mono huv)
  · obtain ⟨p, rest, a, hpoints, -, -, -⟩ := (self.knotsFor queryType).exists_ends hne
    have hrising := (self.knotsFor queryType).rising_points
    rw [hpoints] at hrising
    rw [predictArray_eq_curve hne hpoints]
    have hmono := @monotone_before p rest hrising (· < p.1) _
      (fun u v huv hv => lt_of_le_of_lt huv hv) fun v hv => not_lt.mp hv
    exact List.pairwise_map.mpr (h.imp fun huv => clip_mono (hmono huv))

lemma mem_predictArray {scores : List ℚ} {q : ℚ} (h : q ∈ self.predictArray queryType scores) :
    0 ≤ q ∧ q ≤ 1 := by
  by_cases hne : (self.knotsFor queryType).xs = []
  · rw [predictArray_of_empty hne] at h
    obtain ⟨x, -, rfl⟩ := List.mem_map.mp h
    exact clip_mem x
  · obtain ⟨p, rest, a, hpoints, -, -, -⟩ := (self.knotsFor queryType).exists_ends hne
    rw [predictArray_eq_curve hne hpoints] at h
    obtain ⟨x, -, rfl⟩ := List.mem_map.mp h
    exact clip_mem _

/-- The two branches differ at most at the position of the first knot. -/
lemma agree_iff_plain : (∀ scores, self.predictArray queryType scores =
    scores.map (self.predictScalar queryType)) ↔ (self.knotsFor queryType).Plain := by
  by_cases hne : (self.knotsFor queryType).xs = []
  · refine iff_of_true (fun scores => ?_) fun p hp => ?_
    · rw [predictArray_of_empty hne, predictScalar_of_empty hne]
    · rw [Knots.points, hne] at hp
      exact absurd hp List.not_mem_nil
  · obtain ⟨p, rest, a, hpoints, -, hp, -⟩ := (self.knotsFor queryType).exists_ends hne
    have hrising := (self.knotsFor queryType).rising_points
    have hhead : (self.knotsFor queryType).xs.headD 0 = p.1 := congrArg Prod.fst hp
    have hheadY : (self.knotsFor queryType).ys.headD 0 = p.2 := congrArg Prod.snd hp
    rw [hpoints] at hrising
    have hscalar := predictScalar_eq_curve hne hpoints
    unfold Knots.Plain
    rw [hpoints, hhead, hheadY]
    constructor
    · intro hagree q hq hx
      have hat := hagree [p.1]
      rw [predictArray_eq_curve hne hpoints, List.map_singleton, List.map_singleton, hscalar,
        if_neg (lt_irrefl p.1), if_pos le_rfl] at hat
      have hfirst : clip (curve p rest p.1) = clip p.2 := (List.cons.inj hat).1
      refine le_antisymm ?_ ?_
      · rw [← hfirst]
        exact clip_mono (le_curve_of_mem hrising le_rfl hq hx.le)
      · rcases List.mem_cons.mp hq with rfl | hq
        · exact le_rfl
        · exact clip_mono ((List.pairwise_cons.mp hrising).1 q hq).2
    · intro hplain scores
      rw [predictArray_eq_curve hne hpoints]
      refine List.map_congr_left fun v _ => ?_
      rw [hscalar]
      rcases lt_trichotomy v p.1 with hv | rfl | hv
      · rw [if_pos hv, if_pos hv.le]
      · obtain ⟨q, hq, hx, hy⟩ := exists_mem_curve_left hrising
        rw [if_neg (lt_irrefl _), if_pos le_rfl, hy]
        exact hplain q hq hx
      · rw [if_neg hv.not_gt, if_neg hv.not_ge]

end Prediction

/-- **Monotone probabilities.**  After a fit both branches give probabilities of the unit interval
in the order of the scores; they agree on every score if and only if the knots that stand at the
position of the first one have its value. -/
theorem predict_path_independent {self c : Calibrator} {samples : List Sample} {weighted : Bool}
    {nBins : ℕ} (hfit : self.fit samples weighted nBins = some c) (queryType : Option String) :
    (Monotone (c.predictScalar queryType) ∧
      (∀ v, 0 ≤ c.predictScalar queryType v ∧ c.predictScalar queryType v ≤ 1) ∧
        ∀ scores : List ℚ, (∀ q ∈ c.predictArray queryType scores, 0 ≤ q ∧ q ≤ 1) ∧
          (scores.Pairwise (· ≤ ·) → (c.predictArray queryType scores).Pairwise (· ≤ ·))) ∧
    ((∀ scores, c.predictArray queryType scores = scores.map (c.predictScalar queryType)) ↔
      ((self.typed queryType).getD (fitKnots samples weighted nBins)).Plain) := by
  have hknots : c.knotsFor queryType =
      (self.typed queryType).getD (fitKnots samples weighted nBins) := by
    unfold Calibrator.fit at hfit
    split_ifs at hfit
    obtain rfl := Option.some.inj hfit
    rfl
  rw [← hknots]
  exact ⟨⟨monotone_predictScalar, predictScalar_mem, fun scores =>
    ⟨fun q hq => mem_predictArray hq, pairwise_predictArray⟩⟩, agree_iff_plain⟩

/-- Three bins with different mean scores. -/
theorem predict_path_independent_apart :
    ∃ c, ({} : Calibrator).fit [⟨1 / 5, 0, 0, 1⟩, ⟨1 / 2, 1, 0, 1⟩, ⟨4 / 5, 1, 0, 1⟩] false 3 =
        some c ∧
      ∀ scores, c.predictArray none scores = scores.map (c.predictScalar none) := by
  obtain ⟨c, hc⟩ : ∃ c, ({} : Calibrator).fit
      [⟨1 / 5, 0, 0, 1⟩, ⟨1 / 2, 1, 0, 1⟩, ⟨4 / 5, 1, 0, 1⟩] false 3 = some c := ⟨_, rfl⟩
  refine ⟨c, hc, (predict_path_independent hc none).2.mpr ?_⟩
  show (fitKnots _ _ _).Plain
  decide +kernel

/-- Two bins whose mean scores are rounded to one position: the single score there gets the value of
the first knot, the array that of the second one. -/
theorem predict_paths_differ :
    (({} : Calibrator).fit [⟨50001 / 100000, 0, 0, 1⟩, ⟨50002 / 100000, 1, 0, 1⟩] false 12).map
        (fun c => (c.predictScalar none (1 / 2), c.predictArray none [1 / 2])) =
      some (0, [1]) := by
  decide +kernel

end Calibration

end AtlasMemory
