import Mathlib.Algebra.BigOperators.Group.List.Basic
import Mathlib.Algebra.Order.BigOperators.Group.List
import Mathlib.Algebra.Order.Field.Basic
import Mathlib.Tactic.LinearCombination
import Mathlib.Tactic.Linarith
import Mathlib.Tactic.Ring

/-!
# Isotonic regression

The weighted squared error of a list of fitted values, and when a fit that is constant on blocks has
the least error among the non-decreasing ones.  A block is pooled to a value if its weighted
residuals sum to zero and no prefix of them sums to a negative number.  Two pooled blocks whose
values are in the wrong order are pooled again at any value between the two at which the residuals
sum to zero; and a list of pooled blocks has the least error, by summation by parts over each block.
-/

namespace IsotonicRegression

variable {K : Type*} [Field K]

/-! ## Residuals -/

/-- The weight of a list of points, each a weight and a value. -/
def weight (points : List (K × K)) : K := (points.map Prod.fst).sum

/-- The weighted residuals at a value. -/
def residual (v : K) (points : List (K × K)) : K :=
  (points.map fun p => p.1 * (p.2 - v)).sum

/-- The weighted squared error of the fitted values. -/
def squaredError (points : List (K × K)) (fit : List K) : K :=
  (List.zipWith (fun p z => p.1 * (p.2 - z) ^ 2) points fit).sum

@[simp] lemma weight_nil : weight ([] : List (K × K)) = 0 := rfl

@[simp] lemma weight_cons (p : K × K) (l : List (K × K)) :
    weight (p :: l) = p.1 + weight l := by
  simp [weight]

lemma weight_append (l l' : List (K × K)) : weight (l ++ l') = weight l + weight l' := by
  simp [weight]

@[simp] lemma residual_nil (v : K) : residual v ([] : List (K × K)) = 0 := rfl

@[simp] lemma residual_cons (v : K) (p : K × K) (l : List (K × K)) :
    residual v (p :: l) = p.1 * (p.2 - v) + residual v l := by
  simp [residual]

lemma residual_append (v : K) (l l' : List (K × K)) :
    residual v (l ++ l') = residual v l + residual v l' := by
  simp [residual]

lemma residual_shift (v v' : K) (l : List (K × K)) :
    residual v' l = residual v l + weight l * (v - v') := by
  induction l with
  | nil => simp
  | cons p l ih =>
    rw [residual_cons, residual_cons, weight_cons, ih]
    ring

lemma squaredError_append {l l' : List (K × K)} {zs zs' : List K} (h : zs.length = l.length) :
    squaredError (l ++ l') (zs ++ zs') = squaredError l zs + squaredError l' zs' := by
  unfold squaredError
  rw [List.zipWith_append h.symm, List.sum_append]

/-- The fit of a list of blocks: each value as often as the block has points. -/
def blockFit (blocks : List (K × List (K × K))) : List K :=
  blocks.flatMap fun b => List.replicate b.2.length b.1

omit [Field K] in
lemma length_blockFit (blocks : List (K × List (K × K))) :
    (blockFit blocks).length = (blocks.flatMap Prod.snd).length := by
  simp [blockFit, List.length_flatMap]

lemma residual_of_weight_zero {l : List (K × K)} (h : ∀ p ∈ l, p.1 = 0) (v : K) :
    residual v l = 0 := by
  induction l with
  | nil => rfl
  | cons p l ih =>
    rw [residual_cons, h p List.mem_cons_self, ih fun q hq => h q (List.mem_cons_of_mem p hq)]
    ring

variable [LinearOrder K] [IsStrictOrderedRing K]

lemma weight_nonneg {l : List (K × K)} (h : ∀ p ∈ l, 0 ≤ p.1) : 0 ≤ weight l := by
  unfold weight
  refine List.sum_nonneg fun w hw => ?_
  obtain ⟨p, hp, rfl⟩ := List.mem_map.mp hw
  exact h p hp

lemma weight_le_of_prefix {l l' : List (K × K)} (h : ∀ p ∈ l', 0 ≤ p.1) (hpre : l <+: l') :
    weight l ≤ weight l' := by
  obtain ⟨t, rfl⟩ := hpre
  rw [weight_append]
  have ht : 0 ≤ weight t := weight_nonneg fun p hp => h p (List.mem_append_right l hp)
  linarith

lemma eq_zero_of_weight_zero {l : List (K × K)} (hnonneg : ∀ p ∈ l, 0 ≤ p.1)
    (h : weight l = 0) : ∀ p ∈ l, p.1 = 0 := by
  induction l with
  | nil => exact fun p hp => nomatch hp
  | cons p l ih =>
    have hp := hnonneg p List.mem_cons_self
    have hl : 0 ≤ weight l := weight_nonneg fun q hq => hnonneg q (List.mem_cons_of_mem p hq)
    rw [weight_cons] at h
    intro q hq
    rcases List.mem_cons.mp hq with rfl | hq
    · linarith
    · exact ih (fun r hr => hnonneg r (List.mem_cons_of_mem p hr)) (by linarith) q hq

/-! ## Pooled blocks -/

/-- The points are pooled to a value: their residuals sum to zero, and those of no prefix sum to a
negative number. -/
structure Pooled (v : K) (points : List (K × K)) : Prop where
  balanced : residual v points = 0
  prefix_nonneg : ∀ l, l <+: points → 0 ≤ residual v l

omit [IsStrictOrderedRing K] in
lemma pooled_singleton (p : K × K) : Pooled p.2 [p] where
  balanced := by simp
  prefix_nonneg l hl := by
    rcases List.prefix_cons_iff.mp hl with rfl | ⟨t, rfl, ht⟩
    · exact le_of_eq rfl
    · rw [List.prefix_nil.mp ht]
      simp

omit [IsStrictOrderedRing K] in
lemma pooled_of_weight_zero {points : List (K × K)} (h : ∀ p ∈ points, p.1 = 0) (v : K) :
    Pooled v points where
  balanced := residual_of_weight_zero h v
  prefix_nonneg l hl := by
    rw [residual_of_weight_zero fun p hp => h p (hl.subset hp)]

/-- Two pooled blocks in the wrong order are pooled to a value between theirs. -/
lemma Pooled.append {v₁ v₂ v : K} {l₁ l₂ : List (K × K)} (h₁ : Pooled v₁ l₁) (h₂ : Pooled v₂ l₂)
    (hnonneg₁ : ∀ p ∈ l₁, 0 ≤ p.1) (hnonneg₂ : ∀ p ∈ l₂, 0 ≤ p.1) (hle₁ : v ≤ v₁)
    (hle₂ : v₂ ≤ v) (hv : weight l₁ * (v₁ - v) + weight l₂ * (v₂ - v) = 0) :
    Pooled v (l₁ ++ l₂) where
  balanced := by
    rw [residual_append, residual_shift v₁ v, residual_shift v₂ v, h₁.balanced, h₂.balanced]
    linear_combination hv
  prefix_nonneg l hl := by
    obtain ⟨t, ht⟩ := hl
    rcases List.append_eq_append_iff.mp ht with ⟨s, hs, -⟩ | ⟨s, rfl, hs⟩
    · -- the prefix ends within the first block
      have hl : l <+: l₁ := ⟨s, hs.symm⟩
      have hweight : 0 ≤ weight l := weight_nonneg fun p hp => hnonneg₁ p (hl.subset hp)
      rw [residual_shift v₁ v]
      have hpre := h₁.prefix_nonneg l hl
      have hshift : 0 ≤ weight l * (v₁ - v) := mul_nonneg hweight (by linarith)
      linarith
    · have hpre : s <+: l₂ := ⟨t, hs.symm⟩
      have hweight := weight_le_of_prefix hnonneg₂ hpre
      rw [residual_append, residual_shift v₁ v, residual_shift v₂ v, h₁.balanced]
      have hs := h₂.prefix_nonneg s hpre
      have hshift : weight l₂ * (v₂ - v) ≤ weight s * (v₂ - v) :=
        mul_le_mul_of_nonpos_right hweight (by linarith)
      linarith

/-! ## The least error -/

/-- Summation by parts: residuals with non-negative partial sums that end at zero, weighed by the
distance to non-decreasing values. -/
lemma sum_parts_nonneg (v : K) (points : List (K × K)) (d b : K) (zs : List K)
    (hlen : zs.length = points.length) (hsorted : (b :: zs).Pairwise (· ≤ ·))
    (hpre : ∀ l, l <+: points → 0 ≤ d + residual v l) (hzero : d + residual v points = 0) :
    0 ≤ d * (v - b) + (List.zipWith (fun p z => p.1 * (p.2 - v) * (v - z)) points zs).sum := by
  induction points generalizing d b zs with
  | nil =>
    have hd : d = 0 := by simpa using hzero
    simp [hd]
  | cons p points ih =>
    obtain ⟨z, zs, rfl⟩ := List.exists_cons_of_length_eq_add_one hlen
    obtain ⟨hb, hsorted⟩ := List.pairwise_cons.mp hsorted
    have hbz : b ≤ z := hb z List.mem_cons_self
    have hd : 0 ≤ d := by simpa using hpre [] (List.nil_prefix)
    have hrest := ih (d + p.1 * (p.2 - v)) z zs (by simpa using hlen) hsorted
      (fun l hl => by
        have hcons := hpre (p :: l) (List.cons_prefix_cons.mpr ⟨rfl, hl⟩)
        rw [residual_cons] at hcons
        linarith)
      (by
        rw [residual_cons] at hzero
        linarith)
    rw [List.zipWith_cons_cons, List.sum_cons]
    have hstep : 0 ≤ d * (z - b) := mul_nonneg hd (by linarith)
    linarith

/-- Within a pooled block the value has the least error among non-decreasing values. -/
lemma squaredError_pooled_le {v : K} {points : List (K × K)} (h : Pooled v points)
    (hnonneg : ∀ p ∈ points, 0 ≤ p.1) {zs : List K} (hlen : zs.length = points.length)
    (hsorted : zs.Pairwise (· ≤ ·)) :
    squaredError points (List.replicate points.length v) ≤ squaredError points zs := by
  have hparts : 0 ≤ (List.zipWith (fun p z => p.1 * (p.2 - v) * (v - z)) points zs).sum := by
    cases zs with
    | nil => simp
    | cons z zs =>
      have hpairs : (z :: z :: zs).Pairwise (· ≤ ·) := by
        refine List.pairwise_cons.mpr ⟨fun y hy => ?_, hsorted⟩
        rcases List.mem_cons.mp hy with rfl | hy
        · exact le_rfl
        · exact (List.pairwise_cons.mp hsorted).1 y hy
      have hsum := sum_parts_nonneg v points 0 z (z :: zs) hlen hpairs
        (fun l hl => by simpa using h.prefix_nonneg l hl) (by simpa using h.balanced)
      simpa using hsum
  have hexpand : ∀ (points : List (K × K)) (zs : List K), zs.length = points.length →
      (∀ p ∈ points, 0 ≤ p.1) →
      squaredError points (List.replicate points.length v) +
        2 * (List.zipWith (fun p z => p.1 * (p.2 - v) * (v - z)) points zs).sum ≤
          squaredError points zs := by
    intro points
    induction points with
    | nil =>
      intro zs _ _
      simp [squaredError]
    | cons p points ih =>
      intro zs hlen hnonneg
      obtain ⟨z, zs, rfl⟩ := List.exists_cons_of_length_eq_add_one hlen
      have hrest := ih zs (by simpa using hlen) fun q hq => hnonneg q (List.mem_cons_of_mem p hq)
      have hsquare : 0 ≤ p.1 * (v - z) ^ 2 :=
        mul_nonneg (hnonneg p List.mem_cons_self) (sq_nonneg _)
      unfold squaredError at hrest ⊢
      rw [List.length_cons, List.replicate_succ, List.zipWith_cons_cons, List.zipWith_cons_cons,
        List.zipWith_cons_cons, List.sum_cons, List.sum_cons, List.sum_cons]
      have hpoint : p.1 * (p.2 - z) ^ 2 = p.1 * (p.2 - v) ^ 2 +
          2 * (p.1 * (p.2 - v) * (v - z)) + p.1 * (v - z) ^ 2 := by ring
      linarith
  have hall := hexpand points zs hlen hnonneg
  linarith

/-- **The least error.**  Pooled blocks have the least error among all non-decreasing values. -/
theorem squaredError_blockFit_le {blocks : List (K × List (K × K))}
    (hpooled : ∀ b ∈ blocks, Pooled b.1 b.2) (hnonneg : ∀ b ∈ blocks, ∀ p ∈ b.2, 0 ≤ p.1)
    {zs : List K} (hlen : zs.length = (blocks.flatMap Prod.snd).length)
    (hsorted : zs.Pairwise (· ≤ ·)) :
    squaredError (blocks.flatMap Prod.snd) (blockFit blocks) ≤
      squaredError (blocks.flatMap Prod.snd) zs := by
  induction blocks generalizing zs with
  | nil =>
    have hnil : zs = [] := List.length_eq_zero_iff.mp hlen
    rw [hnil]
    exact le_rfl
  | cons b blocks ih =>
    rw [List.flatMap_cons, List.length_append] at hlen
    have hsplit := List.take_append_drop b.2.length zs
    have htake : (zs.take b.2.length).length = b.2.length := by
      rw [List.length_take]
      omega
    have hdrop : (zs.drop b.2.length).length = (blocks.flatMap Prod.snd).length := by
      rw [List.length_drop]
      omega
    rw [← hsplit] at hsorted
    obtain ⟨hsorted₁, hsorted₂, -⟩ := List.pairwise_append.mp hsorted
    have hhead := squaredError_pooled_le (hpooled b List.mem_cons_self)
      (hnonneg b List.mem_cons_self) htake hsorted₁
    have htail := ih (fun c hc => hpooled c (List.mem_cons_of_mem b hc))
      (fun c hc => hnonneg c (List.mem_cons_of_mem b hc)) hdrop hsorted₂
    rw [← hsplit]
    unfold blockFit at htail ⊢
    rw [List.flatMap_cons, List.flatMap_cons, squaredError_append htake,
      squaredError_append List.length_replicate]
    linarith

end IsotonicRegression
