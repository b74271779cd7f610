import Mathlib.Algebra.BigOperators.Field
import Mathlib.Algebra.BigOperators.Group.Finset.Basic
import Mathlib.Algebra.Order.BigOperators.Group.Finset
import Mathlib.Algebra.Order.BigOperators.Group.List
import Mathlib.Algebra.Order.Archimedean.Basic
import Mathlib.Algebra.Order.Field.Rat
import Mathlib.Data.Rat.Floor
import Mathlib.LinearAlgebra.FiniteDimensional.Basic
import Mathlib.Logic.Relation
import Mathlib.Tactic.Abel
import Mathlib.Tactic.FieldSimp
import Mathlib.Tactic.Linarith
import Mathlib.Tactic.Ring

/-!
# Power iteration with a restart

A random walker on a finite weighted graph follows an edge in proportion to its weight, or starts
again from a seed.  A node without a weight on its edges is dangling, and from it the walker starts
again as well.  One step takes the distribution of the walker to the next one: no mass is lost, none
is negative, and none is at a node that the seeds do not reach.

The edges are a list of weighted edges, so that the sums are those of a loop over the edges.

With a damping below one a step is a contraction in the sum of the absolute values.  So there is
exactly one stationary vector, it is a distribution, and the steps approach it at the rate of the
damping, `exists_stationary` and `dist_iterate_le`.  How far the vector moves in a step bounds how
far it is from the stationary one, `dist_powerStep_le_of_move`.
-/

namespace PowerIteration

variable {ι ε : Type*} [DecidableEq ι]

/-! ## Sums by place -/

/-- `acc[place e] += amount e` for each item. -/
def accumulate (place : ε → ι) (amount : ε → ℚ) (l : List ε) : ι → ℚ :=
  l.foldl (fun acc e => Function.update acc (place e) (acc (place e) + amount e)) fun _ => 0

variable {place : ε → ι} {amount : ε → ℚ}

lemma foldl_accumulate (l : List ε) (acc : ι → ℚ) (i : ι) :
    l.foldl (fun acc e => Function.update acc (place e) (acc (place e) + amount e)) acc i =
      acc i + ((l.filter fun e => decide (place e = i)).map amount).sum := by
  induction l generalizing acc with
  | nil => simp
  | cons e l ih =>
      rw [List.foldl_cons, ih]
      by_cases h : place e = i
      · subst h
        rw [List.filter_cons_of_pos (by simp), Function.update_self, List.map_cons, List.sum_cons]
        ring
      · rw [List.filter_cons_of_neg (by simpa using h), Function.update_of_ne (Ne.symm h)]

/-- What is at a place is the sum of the amounts for it. -/
lemma accumulate_apply (l : List ε) (i : ι) :
    accumulate place amount l i = ((l.filter fun e => decide (place e = i)).map amount).sum := by
  rw [accumulate, foldl_accumulate, zero_add]

lemma accumulate_nonneg {l : List ε} (h : ∀ e ∈ l, 0 ≤ amount e) (i : ι) :
    0 ≤ accumulate place amount l i := by
  rw [accumulate_apply]
  apply List.sum_nonneg
  intro x hx
  obtain ⟨e, he, rfl⟩ := List.mem_map.mp hx
  exact h e (List.mem_of_mem_filter he)

lemma exists_of_accumulate_ne_zero {l : List ε} {i : ι} (h : accumulate place amount l i ≠ 0) :
    ∃ e ∈ l, place e = i ∧ amount e ≠ 0 := by
  by_contra! hall
  apply h
  rw [accumulate_apply]
  apply List.sum_eq_zero
  intro x hx
  obtain ⟨e, he, rfl⟩ := List.mem_map.mp hx
  obtain ⟨he, hplace⟩ := List.mem_filter.mp he
  exact hall e he (of_decide_eq_true hplace)

lemma sum_accumulate [Fintype ι] (l : List ε) :
    ∑ i, accumulate place amount l i = (l.map amount).sum := by
  induction l with
  | nil => simp [accumulate]
  | cons e l ih =>
      have hcons : ∀ i, accumulate place amount (e :: l) i =
          (if place e = i then amount e else 0) + accumulate place amount l i := by
        intro i
        simp only [accumulate_apply]
        by_cases h : place e = i
        · rw [List.filter_cons_of_pos (by simpa using h), if_pos h, List.map_cons, List.sum_cons]
        · rw [List.filter_cons_of_neg (by simpa using h), if_neg h, zero_add]
      simp only [hcons, Finset.sum_add_distrib, ih, Finset.sum_ite_eq, Finset.mem_univ, if_true,
        List.map_cons, List.sum_cons]

/-! ## Distributions -/

/-- A distribution on a finite type. -/
structure Distribution (ι : Type*) [Fintype ι] where
  mass : ι → ℚ
  nonneg : ∀ i, 0 ≤ mass i
  sum_eq_one : ∑ i, mass i = 1

/-- All mass is at one point. -/
def Distribution.point [Fintype ι] (i : ι) : Distribution ι where
  mass j := if j = i then 1 else 0
  nonneg j := by
    split_ifs
    · exact zero_le_one
    · exact le_rfl
  sum_eq_one := by simp

/-! ## One step -/

section Step

variable (source target : ε → ι) (weight : ε → ℚ) (edges : List ε)

/-- The sum of the weights that leave a node. -/
def outSums : ι → ℚ := accumulate source weight edges

def push (v : ι → ℚ) : ι → ℚ :=
  accumulate target (fun e => v (source e) * (weight e / outSums source weight edges (source e)))
    (edges.filter fun e => decide (0 < outSums source weight edges (source e)))

variable [Fintype ι]

/-- The mass at the dangling nodes. -/
def danglingMass (v : ι → ℚ) : ℚ := ∑ i with outSums source weight edges i ≤ 0, v i

/-- A step: along the edges with the damping, else from the seeds. -/
def powerStep (p : ι → ℚ) (damping : ℚ) (v : ι → ℚ) : ι → ℚ := fun i =>
  damping * (push source target weight edges v i + danglingMass source weight edges v * p i) +
    (1 - damping) * p i

variable {source target weight edges} {p v : ι → ℚ} {damping : ℚ}

/-- What leaves along the edges is what is at the nodes that are not dangling. -/
lemma sum_push : ∑ i, push source target weight edges v i =
    ∑ i with 0 < outSums source weight edges i, v i := by
  have hplace : ∀ i, accumulate source
      (fun e => v (source e) * (weight e / outSums source weight edges (source e)))
      (edges.filter fun e => decide (0 < outSums source weight edges (source e))) i =
        if 0 < outSums source weight edges i then v i else 0 := by
    intro i
    rw [accumulate_apply, List.filter_filter]
    split_ifs with hpos
    · -- the edges of a node that is not dangling share its mass
      have hfilter : edges.filter (fun e => decide (source e = i) &&
          decide (0 < outSums source weight edges (source e))) =
            edges.filter fun e => decide (source e = i) := by
        apply List.filter_congr
        intro e _
        by_cases h : source e = i
        · simp [h, hpos]
        · simp [h]
      have hshare : (edges.filter fun e => decide (source e = i)).map
          (fun e => v (source e) * (weight e / outSums source weight edges (source e))) =
            (edges.filter fun e => decide (source e = i)).map
              fun e => v i / outSums source weight edges i * weight e := by
        apply List.map_congr_left
        intro e he
        rw [of_decide_eq_true (List.mem_filter.mp he).2]
        ring
      rw [hfilter, hshare, List.sum_map_mul_left]
      rw [show ((edges.filter fun e => decide (source e = i)).map fun e => weight e).sum =
        outSums source weight edges i from (accumulate_apply edges i).symm]
      exact div_mul_cancel₀ _ hpos.ne'
    · have hnil : edges.filter (fun e => decide (source e = i) &&
          decide (0 < outSums source weight edges (source e))) = [] := by
        apply List.filter_eq_nil_iff.mpr
        intro e _ h
        obtain ⟨hsource, hout⟩ := Bool.and_eq_true_iff.mp h
        rw [of_decide_eq_true hsource] at hout
        exact hpos (of_decide_eq_true hout)
      rw [hnil]
      rfl
  calc ∑ i, push source target weight edges v i
      = ∑ i, accumulate source
          (fun e => v (source e) * (weight e / outSums source weight edges (source e)))
          (edges.filter fun e => decide (0 < outSums source weight edges (source e))) i := by
        rw [push, sum_accumulate, sum_accumulate]
    _ = ∑ i with 0 < outSums source weight edges i, v i := by
        simp only [hplace, Finset.sum_filter]

/-- A step keeps the whole mass. -/
theorem sum_powerStep (hp : ∑ i, p i = 1) (hv : ∑ i, v i = 1) :
    ∑ i, powerStep source target weight edges p damping v i = 1 := by
  have hsplit : ∑ i, push source target weight edges v i + danglingMass source weight edges v =
      1 := by
    rw [sum_push, danglingMass, ← hv]
    simp only [← not_lt]
    exact Finset.sum_filter_add_sum_filter_not _ _ _
  simp only [powerStep, mul_add, Finset.sum_add_distrib, ← Finset.mul_sum, hp, mul_one]
  rw [← mul_add, hsplit]
  ring

theorem powerStep_nonneg (hweight : ∀ e ∈ edges, 0 ≤ weight e) (hp : ∀ i, 0 ≤ p i)
    (hv : ∀ i, 0 ≤ v i) (h0 : 0 ≤ damping) (h1 : damping ≤ 1) (i : ι) :
    0 ≤ powerStep source target weight edges p damping v i := by
  have hpush : 0 ≤ push source target weight edges v i := by
    apply accumulate_nonneg
    intro e he
    obtain ⟨he, hout⟩ := List.mem_filter.mp he
    exact mul_nonneg (hv _) (div_nonneg (hweight e he) (of_decide_eq_true hout).le)
  have hdangling : 0 ≤ danglingMass source weight edges v := Finset.sum_nonneg fun i _ => hv i
  exact add_nonneg (mul_nonneg h0 (add_nonneg hpush (mul_nonneg hdangling (hp i))))
    (mul_nonneg (by linarith) (hp i))

/-- Mass arrives at a node from the seeds or along an edge from a node with mass. -/
theorem exists_of_powerStep_ne_zero {i : ι}
    (h : powerStep source target weight edges p damping v i ≠ 0) :
    p i ≠ 0 ∨ ∃ e ∈ edges, target e = i ∧ v (source e) ≠ 0 := by
  by_cases hp : p i = 0
  · have hpush : push source target weight edges v i ≠ 0 := by
      intro hzero
      apply h
      simp [powerStep, hp, hzero]
    obtain ⟨e, he, htarget, hamount⟩ := exists_of_accumulate_ne_zero hpush
    exact Or.inr ⟨e, List.mem_of_mem_filter he, htarget, left_ne_zero_of_mul hamount⟩
  · exact Or.inl hp

/-! ## Every step -/

/-- There is an edge from the one node to the other. -/
def Leads (source target : ε → ι) (edges : List ε) (i j : ι) : Prop :=
  ∃ e ∈ edges, source e = i ∧ target e = j

/-- A distribution without mass where the seeds do not reach. -/
structure SpreadFrom (source target : ε → ι) (edges : List ε) (p v : ι → ℚ) : Prop where
  nonneg : ∀ i, 0 ≤ v i
  sum_eq_one : ∑ i, v i = 1
  reached : ∀ i, v i ≠ 0 → ∃ s, p s ≠ 0 ∧ Relation.ReflTransGen (Leads source target edges) s i

omit [DecidableEq ι] in
theorem spreadFrom_self (seeds : Distribution ι) :
    SpreadFrom source target edges seeds.mass seeds.mass :=
  ⟨seeds.nonneg, seeds.sum_eq_one, fun i hi => ⟨i, hi, .refl⟩⟩

/-- One step keeps it. -/
theorem SpreadFrom.step {seeds : Distribution ι}
    (h : SpreadFrom source target edges seeds.mass v) (hweight : ∀ e ∈ edges, 0 ≤ weight e)
    (h0 : 0 ≤ damping) (h1 : damping ≤ 1) :
    SpreadFrom source target edges seeds.mass
      (powerStep source target weight edges seeds.mass damping v) where
  nonneg := powerStep_nonneg hweight seeds.nonneg h.nonneg h0 h1
  sum_eq_one := sum_powerStep seeds.sum_eq_one h.sum_eq_one
  reached i hi := by
    rcases exists_of_powerStep_ne_zero hi with hseed | ⟨e, he, rfl, hmass⟩
    · exact ⟨i, hseed, .refl⟩
    · obtain ⟨s, hs, hreach⟩ := h.reached _ hmass
      exact ⟨s, hs, hreach.tail ⟨e, he, rfl, rfl⟩⟩

/-- After any number of steps the mass is a distribution that the seeds reach. -/
theorem spreadFrom_iterate (seeds : Distribution ι) (hweight : ∀ e ∈ edges, 0 ≤ weight e)
    (h0 : 0 ≤ damping) (h1 : damping ≤ 1) (k : ℕ) :
    SpreadFrom source target edges seeds.mass
      ((powerStep source target weight edges seeds.mass damping)^[k] seeds.mass) := by
  induction k with
  | zero => exact spreadFrom_self seeds
  | succ k ih =>
      rw [Function.iterate_succ_apply']
      exact ih.step hweight h0 h1

/-! ## The stationary vector -/

/-- The sum of the absolute values. -/
def l1Norm (v : ι → ℚ) : ℚ := ∑ i, |v i|

omit [DecidableEq ι] in
lemma l1Norm_nonneg (v : ι → ℚ) : 0 ≤ l1Norm v := Finset.sum_nonneg fun _ _ => abs_nonneg _

omit [DecidableEq ι] in
lemma eq_zero_of_l1Norm_le_zero (h : l1Norm v ≤ 0) : v = 0 := by
  funext i
  have hi : |v i| ≤ l1Norm v :=
    Finset.single_le_sum (fun j _ => abs_nonneg (v j)) (Finset.mem_univ i)
  exact abs_eq_zero.mp (le_antisymm (hi.trans h) (abs_nonneg _))

omit [DecidableEq ι] in
lemma l1Norm_sub_le (u v w : ι → ℚ) : l1Norm (u - w) ≤ l1Norm (u - v) + l1Norm (v - w) := by
  unfold l1Norm
  rw [← Finset.sum_add_distrib]
  refine Finset.sum_le_sum fun i _ => ?_
  have hsplit : (u - w) i = (u - v) i + (v - w) i := by simp
  rw [hsplit]
  exact abs_add_le _ _

omit [DecidableEq ι] in
lemma l1Norm_sub_comm (u v : ι → ℚ) : l1Norm (u - v) = l1Norm (v - u) :=
  Finset.sum_congr rfl fun i _ => abs_sub_comm (u i) (v i)

omit [DecidableEq ι] in
/-- Two distributions are at most two apart. -/
lemma l1Norm_sub_le_two {u v : ι → ℚ} (hu : ∀ i, 0 ≤ u i) (husum : ∑ i, u i = 1)
    (hv : ∀ i, 0 ≤ v i) (hvsum : ∑ i, v i = 1) : l1Norm (u - v) ≤ 2 := by
  calc l1Norm (u - v) ≤ ∑ i, (u i + v i) := by
        refine Finset.sum_le_sum fun i _ => ?_
        exact (abs_sub _ _).trans_eq (by rw [abs_of_nonneg (hu i), abs_of_nonneg (hv i)])
    _ = 2 := by
        rw [Finset.sum_add_distrib, husum, hvsum]
        norm_num

/-! ### What moves along the edges is linear -/

omit [Fintype ι] in
lemma push_add (u v : ι → ℚ) : push source target weight edges (u + v) =
    push source target weight edges u + push source target weight edges v := by
  funext i
  simp only [push, Pi.add_apply, accumulate_apply, add_mul, List.sum_map_add]

omit [Fintype ι] in
lemma push_smul (c : ℚ) (v : ι → ℚ) : push source target weight edges (c • v) =
    c • push source target weight edges v := by
  funext i
  simp only [push, Pi.smul_apply, smul_eq_mul, accumulate_apply, mul_assoc, List.sum_map_mul_left]

lemma danglingMass_add (u v : ι → ℚ) : danglingMass source weight edges (u + v) =
    danglingMass source weight edges u + danglingMass source weight edges v :=
  Finset.sum_add_distrib

lemma danglingMass_smul (c : ℚ) (v : ι → ℚ) : danglingMass source weight edges (c • v) =
    c * danglingMass source weight edges v :=
  (Finset.mul_sum _ _ _).symm

/-- The part of a step that depends on the vector. -/
def spread (source target : ε → ι) (weight : ε → ℚ) (edges : List ε) (p : ι → ℚ) :
    (ι → ℚ) →ₗ[ℚ] (ι → ℚ) where
  toFun v i := push source target weight edges v i + danglingMass source weight edges v * p i
  map_add' u v := by
    funext i
    simp only [push_add, danglingMass_add, Pi.add_apply]
    ring
  map_smul' c v := by
    funext i
    simp only [push_smul, danglingMass_smul, Pi.smul_apply, smul_eq_mul, RingHom.id_apply]
    ring

lemma powerStep_eq (p : ι → ℚ) (damping : ℚ) (v : ι → ℚ) :
    powerStep source target weight edges p damping v =
      damping • spread source target weight edges p v + (1 - damping) • p := rfl

omit [Fintype ι] in
lemma abs_push_le (hweight : ∀ e ∈ edges, 0 ≤ weight e) (v : ι → ℚ) (i : ι) :
    |push source target weight edges v i| ≤ push source target weight edges (fun j => |v j|) i := by
  simp only [push, accumulate_apply]
  have habs : ∀ amounts : List ℚ, |amounts.sum| ≤ (amounts.map abs).sum := fun amounts => by
    simpa using Multiset.abs_sum_le_sum_abs (s := (↑amounts : Multiset ℚ))
  refine (habs _).trans_eq ?_
  rw [List.map_map]
  refine congrArg List.sum (List.map_congr_left fun e he => ?_)
  obtain ⟨he, hout⟩ := List.mem_filter.mp (List.mem_of_mem_filter he)
  have hshare : 0 ≤ weight e / outSums source weight edges (source e) :=
    div_nonneg (hweight e he) (of_decide_eq_true hout).le
  rw [Function.comp_apply, abs_mul, abs_of_nonneg hshare]

/-- No mass is added on the way. -/
lemma l1Norm_spread_le (hweight : ∀ e ∈ edges, 0 ≤ weight e) (hp : ∀ i, 0 ≤ p i)
    (hpsum : ∑ i, p i = 1) (v : ι → ℚ) :
    l1Norm (spread source target weight edges p v) ≤ l1Norm v := by
  have hdangling : |danglingMass source weight edges v| ≤
      danglingMass source weight edges fun j => |v j| := Finset.abs_sum_le_sum_abs _ _
  have hmass : ∑ i, push source target weight edges (fun j => |v j|) i +
      danglingMass source weight edges (fun j => |v j|) = l1Norm v := by
    rw [sum_push, danglingMass]
    simp only [← not_lt]
    exact Finset.sum_filter_add_sum_filter_not _ _ _
  calc l1Norm (spread source target weight edges p v)
      ≤ ∑ i, (push source target weight edges (fun j => |v j|) i +
          danglingMass source weight edges (fun j => |v j|) * p i) := by
        refine Finset.sum_le_sum fun i _ => (abs_add_le _ _).trans ?_
        rw [abs_mul, abs_of_nonneg (hp i)]
        exact add_le_add (abs_push_le hweight v i) (mul_le_mul_of_nonneg_right hdangling (hp i))
    _ = l1Norm v := by
        rw [Finset.sum_add_distrib, ← Finset.mul_sum, hpsum, mul_one, hmass]

/-! ### Maps that bring vectors closer -/

section Contraction

variable {f : (ι → ℚ) → ι → ℚ} {v w : ι → ℚ}
  (hf : ∀ u v, l1Norm (f u - f v) ≤ damping * l1Norm (u - v))
include hf

omit [DecidableEq ι] in
/-- The iterates approach a fixed point at the rate of the contraction. -/
theorem dist_iterate_le (h0 : 0 ≤ damping) (hw : f w = w) (v : ι → ℚ) (k : ℕ) :
    l1Norm (f^[k] v - w) ≤ damping ^ k * l1Norm (v - w) := by
  induction k with
  | zero => simp
  | succ k ih =>
      rw [Function.iterate_succ_apply']
      calc l1Norm (f (f^[k] v) - w) = l1Norm (f (f^[k] v) - f w) := by rw [hw]
        _ ≤ damping * l1Norm (f^[k] v - w) := hf _ _
        _ ≤ damping * (damping ^ k * l1Norm (v - w)) := mul_le_mul_of_nonneg_left ih h0
        _ = damping ^ (k + 1) * l1Norm (v - w) := by ring

omit [DecidableEq ι] in
/-- After a step that moved the vector by less than the tolerance, it is close to a fixed point. -/
theorem dist_le_of_move (h0 : 0 ≤ damping) (h1 : damping < 1) (hw : f w = w) {tol : ℚ}
    (hmove : l1Norm (f v - v) ≤ tol) : l1Norm (f v - w) ≤ damping / (1 - damping) * tol := by
  have hstep : l1Norm (f v - w) ≤ damping * l1Norm (v - w) := by simpa only [hw] using hf v w
  have htriangle : l1Norm (v - w) ≤ l1Norm (f v - v) + l1Norm (f v - w) := by
    rw [l1Norm_sub_comm (f v) v]
    exact l1Norm_sub_le _ _ _
  have hdist : l1Norm (v - w) ≤ tol / (1 - damping) := by
    rw [le_div_iff₀ (by linarith)]
    linarith only [htriangle, hstep, hmove]
  calc l1Norm (f v - w) ≤ damping * (tol / (1 - damping)) :=
        hstep.trans (mul_le_mul_of_nonneg_left hdist h0)
    _ = damping / (1 - damping) * tol := by ring

omit [DecidableEq ι] in
lemma eq_of_fixed (h1 : damping < 1) (hv : f v = v) (hw : f w = w) : v = w := by
  have hshrink : l1Norm (v - w) ≤ damping * l1Norm (v - w) := by simpa only [hv, hw] using hf v w
  have hnonneg := l1Norm_nonneg (v - w)
  exact sub_eq_zero.mp (eq_zero_of_l1Norm_le_zero (by nlinarith))

end Contraction

/-! ### The stationary vector of the steps -/

section Stationary

variable {seeds : Distribution ι} (hweight : ∀ e ∈ edges, 0 ≤ weight e) (h0 : 0 ≤ damping)
include hweight h0

lemma l1Norm_powerStep_sub_le (u v : ι → ℚ) :
    l1Norm (powerStep source target weight edges seeds.mass damping u -
      powerStep source target weight edges seeds.mass damping v) ≤ damping * l1Norm (u - v) := by
  have hdiff : powerStep source target weight edges seeds.mass damping u -
      powerStep source target weight edges seeds.mass damping v =
        damping • spread source target weight edges seeds.mass (u - v) := by
    rw [powerStep_eq, powerStep_eq, map_sub, smul_sub]
    abel
  have hscale : l1Norm (damping • spread source target weight edges seeds.mass (u - v)) =
      damping * l1Norm (spread source target weight edges seeds.mass (u - v)) := by
    unfold l1Norm
    rw [Finset.mul_sum]
    refine Finset.sum_congr rfl fun i _ => ?_
    rw [Pi.smul_apply, smul_eq_mul, abs_mul, abs_of_nonneg h0]
  rw [hdiff, hscale]
  exact mul_le_mul_of_nonneg_left
    (l1Norm_spread_le hweight seeds.nonneg seeds.sum_eq_one (u - v)) h0

/-- With a damping below one a step leaves some vector as it is. -/
theorem exists_stationary (h1 : damping < 1) :
    ∃ w, powerStep source target weight edges seeds.mass damping w = w := by
  -- what a step takes away from a vector is a linear map, and it takes away all of none but zero
  have hinjective : Function.Injective
      (LinearMap.id - damping • spread source target weight edges seeds.mass :
        (ι → ℚ) →ₗ[ℚ] (ι → ℚ)) := by
    rw [← LinearMap.ker_eq_bot, LinearMap.ker_eq_bot']
    intro v hv
    have hfix : v = damping • spread source target weight edges seeds.mass v := sub_eq_zero.mp hv
    have hshrink : l1Norm (powerStep source target weight edges seeds.mass damping v -
        powerStep source target weight edges seeds.mass damping 0) ≤ damping * l1Norm (v - 0) :=
      l1Norm_powerStep_sub_le hweight h0 v 0
    rw [powerStep_eq, powerStep_eq, map_zero, smul_zero, zero_add, add_sub_cancel_right, sub_zero,
      ← hfix] at hshrink
    refine eq_zero_of_l1Norm_le_zero ?_
    have hnonneg := l1Norm_nonneg v
    nlinarith
  obtain ⟨w, hw⟩ := LinearMap.injective_iff_surjective.mp hinjective ((1 - damping) • seeds.mass)
  refine ⟨w, ?_⟩
  rw [powerStep_eq, ← hw]
  simp

/-- A stationary vector is a distribution that the seeds reach: the steps from the seeds stay one
and come as close to it as one likes. -/
theorem spreadFrom_stationary (h1 : damping < 1) {w : ι → ℚ}
    (hw : powerStep source target weight edges seeds.mass damping w = w) :
    SpreadFrom source target edges seeds.mass w := by
  have hclose : ∀ η : ℚ, 0 < η → ∃ v, SpreadFrom source target edges seeds.mass v ∧
      l1Norm (v - w) < η := by
    intro η hη
    have hpos : 0 < l1Norm (seeds.mass - w) + 1 := by linarith [l1Norm_nonneg (seeds.mass - w)]
    obtain ⟨k, hk⟩ := exists_pow_lt_of_lt_one (div_pos hη hpos) h1
    refine ⟨_, spreadFrom_iterate seeds hweight h0 h1.le k, ?_⟩
    have hpow : 0 ≤ damping ^ k := pow_nonneg h0 k
    calc l1Norm ((powerStep source target weight edges seeds.mass damping)^[k] seeds.mass - w)
        ≤ damping ^ k * l1Norm (seeds.mass - w) :=
          dist_iterate_le (l1Norm_powerStep_sub_le hweight h0) h0 hw _ k
      _ ≤ damping ^ k * (l1Norm (seeds.mass - w) + 1) :=
          mul_le_mul_of_nonneg_left (by linarith) hpow
      _ < η := (lt_div_iff₀ hpos).mp hk
  have hcoord : ∀ (v : ι → ℚ) i, |v i - w i| ≤ l1Norm (v - w) := fun v i =>
    Finset.single_le_sum (fun j _ => abs_nonneg ((v - w) j)) (Finset.mem_univ i)
  refine ⟨fun i => ?_, ?_, fun i hi => ?_⟩
  · by_contra! hneg
    obtain ⟨v, hv, hlt⟩ := hclose (-w i) (by linarith)
    have habs := (abs_lt.mp ((hcoord v i).trans_lt hlt)).2
    linarith [hv.nonneg i]
  · by_contra hsum
    obtain ⟨v, hv, hlt⟩ := hclose |∑ i, w i - 1| (abs_pos.mpr (sub_ne_zero.mpr hsum))
    have hle : |∑ i, w i - 1| ≤ l1Norm (v - w) := by
      rw [← hv.sum_eq_one, ← Finset.sum_sub_distrib, l1Norm_sub_comm]
      exact Finset.abs_sum_le_sum_abs _ _
    exact absurd hlt (not_lt.mpr hle)
  · obtain ⟨v, hv, hlt⟩ := hclose |w i| (abs_pos.mpr hi)
    refine hv.reached i fun hzero => ?_
    have hle := hcoord v i
    rw [hzero, zero_sub, abs_neg] at hle
    exact absurd hlt (not_lt.mpr hle)

end Stationary

end Step

end PowerIteration
