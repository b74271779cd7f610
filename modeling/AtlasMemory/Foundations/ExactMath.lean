import Mathlib.Algebra.Order.Floor.Ring
import Mathlib.Algebra.Order.Field.Basic
import Mathlib.Data.Rat.Floor
import Mathlib.Tactic.Linarith
import Mathlib.Tactic.FieldSimp

/-!
# Exact numbers

Programs that compute with floating point numbers are read here over an ordered field: the rounding
to decimal places, which takes the even neighbour of a midpoint, and the square root and the
exponential as two functions of which only the sign facts are known.
-/

/-- The square root and the exponential of exact numbers. -/
structure ExactMath (K : Type*) [Field K] [LinearOrder K] where
  sqrt : K → K
  exp : K → K
  one_le_sqrt : ∀ x, 1 ≤ x → 1 ≤ sqrt x
  exp_pos : ∀ x, 0 < exp x

/-- The numerals of the kernels have instances of their own, made local where they are used. -/
lemma atLeastTwo_two : Nat.AtLeastTwo 2 := inferInstance

lemma atLeastTwo_four : Nat.AtLeastTwo 4 := inferInstance

lemma atLeastTwo_ten : Nat.AtLeastTwo 10 := inferInstance

section Rounding

variable {K : Type*} [Field K] [LinearOrder K] [FloorRing K]

/-- The nearest integer, the even one at a midpoint. -/
def roundHalfEven (x : K) : ℤ :=
  if Int.fract x < 1 / 2 then ⌊x⌋
  else if 1 / 2 < Int.fract x then ⌊x⌋ + 1
  else if Even ⌊x⌋ then ⌊x⌋ else ⌊x⌋ + 1

/-- `round(x, 6)`. -/
def round6 (x : K) : K := roundHalfEven (x * 10 ^ 6) / 10 ^ 6

/-- `round(x, 4)`. -/
def round4 (x : K) : K := roundHalfEven (x * 10 ^ 4) / 10 ^ 4

lemma roundHalfEven_bounds (x : K) : ⌊x⌋ ≤ roundHalfEven x ∧ roundHalfEven x ≤ ⌊x⌋ + 1 := by
  unfold roundHalfEven
  split_ifs <;> constructor <;> omega

variable [IsStrictOrderedRing K]

@[simp] lemma roundHalfEven_intCast (n : ℤ) : roundHalfEven (n : K) = n := by
  simp [roundHalfEven]

/-- Between two points of one unit interval the later one is rounded up if the earlier one is. -/
lemma roundHalfEven_le_of_floor_eq {x y : K} (hxy : x ≤ y) (hfloor : ⌊x⌋ = ⌊y⌋) :
    roundHalfEven x ≤ roundHalfEven y := by
  have hfract : Int.fract x ≤ Int.fract y := by
    rw [Int.fract, Int.fract, hfloor]
    linarith
  have hupper := (roundHalfEven_bounds x).2
  have hlower := (roundHalfEven_bounds y).1
  by_cases hx : Int.fract x < 1 / 2
  · have hround : roundHalfEven x = ⌊x⌋ := by rw [roundHalfEven, if_pos hx]
    omega
  · have hy : ¬ Int.fract y < 1 / 2 := fun h => hx (lt_of_le_of_lt hfract h)
    by_cases hy' : 1 / 2 < Int.fract y
    · have hround : roundHalfEven y = ⌊y⌋ + 1 := by rw [roundHalfEven, if_neg hy, if_pos hy']
      omega
    · have hx' : ¬ 1 / 2 < Int.fract x := fun h => hy' (lt_of_lt_of_le h hfract)
      rw [roundHalfEven, roundHalfEven, if_neg hx, if_neg hx', if_neg hy, if_neg hy', hfloor]

lemma roundHalfEven_mono {x y : K} (hxy : x ≤ y) : roundHalfEven x ≤ roundHalfEven y := by
  have hfloor : ⌊x⌋ ≤ ⌊y⌋ := Int.floor_mono hxy
  rcases hfloor.eq_or_lt with heq | hlt
  · exact roundHalfEven_le_of_floor_eq hxy heq
  · have hx := (roundHalfEven_bounds x).2
    have hy := (roundHalfEven_bounds y).1
    omega

/-- Rounding to a multiple of a unit fraction does not change the order. -/
lemma roundHalfEven_scaled_mono {c : K} (hc : 0 ≤ c) :
    Monotone fun x : K => (roundHalfEven (x * c) : K) / c := by
  intro x y hxy
  have hscaled : x * c ≤ y * c := mul_le_mul_of_nonneg_right hxy hc
  have hround : (roundHalfEven (x * c) : K) ≤ roundHalfEven (y * c) := by
    exact_mod_cast roundHalfEven_mono hscaled
  exact div_le_div_of_nonneg_right hround hc

lemma round6_mono : Monotone (round6 : K → K) := roundHalfEven_scaled_mono (by positivity)

lemma round4_mono : Monotone (round4 : K → K) := roundHalfEven_scaled_mono (by positivity)

@[simp] lemma round6_zero : round6 (0 : K) = 0 := by
  have h : roundHalfEven (0 : K) = 0 := by exact_mod_cast roundHalfEven_intCast (K := K) 0
  simp [round6, h]

@[simp] lemma round6_one : round6 (1 : K) = 1 := by
  have hcast : ((10 ^ 6 : ℤ) : K) = (10 : K) ^ 6 := by norm_num
  have hne : (10 : K) ^ 6 ≠ 0 := by positivity
  rw [round6, one_mul, ← hcast, roundHalfEven_intCast, hcast]
  exact div_self hne

lemma round6_mem_unit {x : K} (h0 : 0 ≤ x) (h1 : x ≤ 1) : 0 ≤ round6 x ∧ round6 x ≤ 1 :=
  ⟨round6_zero (K := K) ▸ round6_mono h0, round6_one (K := K) ▸ round6_mono h1⟩

lemma round4_mem_unit {x : K} (h0 : 0 ≤ x) (h1 : x ≤ 1) : 0 ≤ round4 x ∧ round4 x ≤ 1 := by
  have hzero : roundHalfEven (0 : K) = 0 := by exact_mod_cast roundHalfEven_intCast (K := K) 0
  have hcast : ((10 ^ 4 : ℤ) : K) = (10 : K) ^ 4 := by norm_num
  have hne : (10 : K) ^ 4 ≠ 0 := by positivity
  have hlow : round4 (0 : K) = 0 := by simp [round4, hzero]
  have hhigh : round4 (1 : K) = 1 := by
    rw [round4, one_mul, ← hcast, roundHalfEven_intCast, hcast]
    exact div_self hne
  exact ⟨hlow ▸ round4_mono h0, hhigh ▸ round4_mono h1⟩

end Rounding
