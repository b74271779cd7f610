import Mathlib.Algebra.Order.Ring.Rat
import Mathlib.Algebra.Order.Ring.Unbundled.Rat
import Mathlib.Data.Prod.Lex
import Mathlib.Data.Rat.Init
import Mathlib.Tactic.Common
import Mathlib.Tactic.Linarith

/-!
# Floating point values

The values of a binary floating point type, up to rounding: a finite number is the rational it
stands for, and beside the finite numbers there are negative zero, the two infinities and `nan`.
Arithmetic on finite numbers is exact.  The special values are kept because two things depend on
them: a database column may not give back what was stored in it, and a comparison with `nan` is
false.
-/

/-- A floating point value; `finite 0` is positive zero. -/
inductive PyFloat
  | finite (x : ℚ)
  | negZero
  | posInf
  | negInf
  | nan
  deriving DecidableEq, Inhabited

namespace PyFloat

/-- What a database column of real type gives back: integral values are stored as integers, which
loses the sign of zero, and `nan` is stored as `NULL`. -/
def sqlReal : PyFloat → Option PyFloat
  | .negZero => some (.finite 0)
  | .nan => none
  | x => some x

/-- `x < y`. -/
def lt : PyFloat → PyFloat → Bool
  | .nan, _ | _, .nan => false
  | .negInf, .negInf => false
  | .negInf, _ => true
  | _, .negInf => false
  | .posInf, _ => false
  | _, .posInf => true
  | .finite x, .finite y => decide (x < y)
  | .finite x, .negZero => decide (x < 0)
  | .negZero, .finite y => decide (0 < y)
  | .negZero, .negZero => false

/-- The sign of a non-zero value or of a signed zero: whether it is negative. -/
def isNegative : PyFloat → Bool
  | .finite x => decide (x < 0)
  | .negZero | .negInf => true
  | .posInf | .nan => false

def signedZero (negative : Bool) : PyFloat := if negative then .negZero else .finite 0

def signedInf (negative : Bool) : PyFloat := if negative then .negInf else .posInf

/-- Whether the value is one of the two zeros. -/
def isZero : PyFloat → Bool
  | .finite x => decide (x = 0)
  | .negZero => true
  | _ => false

/-- `x * y`. -/
def mul (x y : PyFloat) : PyFloat :=
  match x, y with
  | .nan, _ | _, .nan => .nan
  | .finite a, .finite b =>
    if a * b = 0 then signedZero (decide (a < 0) != decide (b < 0)) else .finite (a * b)
  | .negZero, .finite b => signedZero !decide (b < 0)
  | .finite a, .negZero => signedZero !decide (a < 0)
  | .negZero, .negZero => .finite 0
  | a, b => if a.isZero || b.isZero then .nan else signedInf (a.isNegative != b.isNegative)

/-- `x - c` for a finite number `c` other than zero. -/
def subRat : PyFloat → ℚ → PyFloat
  | .finite x, c => .finite (x - c)
  | .negZero, c => .finite (-c)
  | x, _ => x

/-- `x + y`. -/
def add : PyFloat → PyFloat → PyFloat
  | .nan, _ | _, .nan => .nan
  | .posInf, .negInf | .negInf, .posInf => .nan
  | .posInf, _ | _, .posInf => .posInf
  | .negInf, _ | _, .negInf => .negInf
  | .negZero, .negZero => .negZero
  | .finite x, .negZero | .negZero, .finite x => .finite x
  | .finite x, .finite y => .finite (x + y)

/-- `x >= y`. -/
def ge (x y : PyFloat) : Bool := x ≠ .nan && y ≠ .nan && !x.lt y

/-- `x == y`. -/
def eq (x y : PyFloat) : Bool := x.ge y && y.ge x

/-- `(x₁, x₂) < (y₁, y₂)`: the second components decide when the first ones are equal. -/
def pairLt (x y : PyFloat × PyFloat) : Bool :=
  if x.1.eq y.1 then x.2.lt y.2 else x.1.lt y.1

/-- `max(0.0, min(1.0, raw))`, with `1.0` for a missing value and for `nan`. -/
def clampUnit : Option PyFloat → ℚ
  | none | some .nan | some .posInf => 1
  | some .negInf | some .negZero => 0
  | some (.finite x) => max 0 (min 1 x)

lemma clampUnit_nonneg (x : Option PyFloat) : 0 ≤ clampUnit x := by
  rcases x with _ | (x | _ | _ | _ | _) <;> simp [clampUnit]

lemma clampUnit_le_one (x : Option PyFloat) : clampUnit x ≤ 1 := by
  rcases x with _ | (x | _ | _ | _ | _) <;> simp [clampUnit]

@[simp] lemma clampUnit_finite_of_mem {x : ℚ} (h₀ : 0 ≤ x) (h₁ : x ≤ 1) :
    clampUnit (some (.finite x)) = x := by
  simp [clampUnit, h₀, h₁]

@[simp] lemma sqlReal_finite (x : ℚ) : sqlReal (.finite x) = some (.finite x) := rfl

@[simp] lemma lt_finite (x y : ℚ) : lt (.finite x) (.finite y) = decide (x < y) := rfl

lemma mul_finite_one (y : ℚ) : mul (.finite 1) (.finite y) = .finite y := by
  by_cases h : y = 0
  · simp [mul, signedZero, h]
  · simp [mul, h]

lemma one_mul (x : PyFloat) : mul (.finite 1) x = x := by
  cases x with
  | finite y => exact mul_finite_one y
  | _ => decide

/-- Only negative zero and `nan` are not given back as they were stored. -/
lemma sqlReal_eq_self_iff (x : PyFloat) : sqlReal x = some x ↔ x ≠ .negZero ∧ x ≠ .nan := by
  cases x <;> simp [sqlReal]

end PyFloat

/-!
## Values that are numbers

The finite numbers and negative zero, with the rationals that they stand for: on them comparison
and arithmetic are those of the rationals.
-/

namespace PyFloat

/-! ## The order -/

/-- The place of a value among the numbers and the two infinities; `nan` has none. -/
def place : PyFloat → Option (ℤ ×ₗ ℚ)
  | .finite x => some (toLex (0, x))
  | .negZero => some (toLex (0, 0))
  | .posInf => some (toLex (1, 0))
  | .negInf => some (toLex (-1, 0))
  | .nan => none

lemma lt_iff_place (x y : PyFloat) :
    x.lt y = true ↔ ∃ a b, x.place = some a ∧ y.place = some b ∧ a < b := by
  cases x <;> cases y <;> simp [lt, place, Prod.Lex.toLex_lt_toLex]

lemma eq_iff_place (x y : PyFloat) :
    x.eq y = true ↔ ∃ a, x.place = some a ∧ y.place = some a := by
  have hge : ∀ x y : PyFloat, x.ge y = true ↔
      ∃ a b, x.place = some a ∧ y.place = some b ∧ b ≤ a := by
    intro x y
    cases x <;> cases y <;> simp [ge, lt, place, Prod.Lex.toLex_le_toLex]
  rw [eq, Bool.and_eq_true, hge, hge]
  constructor
  · rintro ⟨⟨a, b, ha, hb, hle⟩, b', a', hb', ha', hle'⟩
    obtain rfl := Option.some.inj (ha.symm.trans ha')
    obtain rfl := Option.some.inj (hb.symm.trans hb')
    exact ⟨a, ha, by rw [hb, le_antisymm hle hle']⟩
  · rintro ⟨a, hx, hy⟩
    exact ⟨⟨a, a, hx, hy, le_rfl⟩, a, a, hy, hx, le_rfl⟩

/-- Pairs are compared lexicographically by their places. -/
lemma pairLt_iff_place (p q : PyFloat × PyFloat) :
    pairLt p q = true ↔ ∃ a b, p.1.place = some a ∧ q.1.place = some b ∧
      (a < b ∨ a = b ∧ ∃ c d, p.2.place = some c ∧ q.2.place = some d ∧ c < d) := by
  unfold pairLt
  split_ifs with heq
  · obtain ⟨a, hp, hq⟩ := (eq_iff_place _ _).mp heq
    rw [lt_iff_place]
    constructor
    · exact fun h => ⟨a, a, hp, hq, Or.inr ⟨rfl, h⟩⟩
    · rintro ⟨a', b', ha, hb, hlt | ⟨-, h⟩⟩
      · obtain rfl := Option.some.inj (hp.symm.trans ha)
        obtain rfl := Option.some.inj (hq.symm.trans hb)
        exact absurd hlt (lt_irrefl _)
      · exact h
  · rw [lt_iff_place]
    constructor
    · rintro ⟨a, b, ha, hb, hlt⟩
      exact ⟨a, b, ha, hb, Or.inl hlt⟩
    · rintro ⟨a, b, ha, hb, hlt | ⟨rfl, -⟩⟩
      · exact ⟨a, b, ha, hb, hlt⟩
      · exact absurd ((eq_iff_place _ _).mpr ⟨a, ha, hb⟩) heq

lemma pairLt_irrefl (p : PyFloat × PyFloat) : pairLt p p = false := by
  rw [← Bool.not_eq_true, pairLt_iff_place]
  rintro ⟨a, b, ha, hb, hlt | ⟨-, c, d, hc, hd, hlt⟩⟩
  · obtain rfl := Option.some.inj (ha.symm.trans hb)
    exact lt_irrefl _ hlt
  · obtain rfl := Option.some.inj (hc.symm.trans hd)
    exact lt_irrefl _ hlt

lemma pairLt_trans {p q r : PyFloat × PyFloat} (hpq : pairLt p q = true) (hqr : pairLt q r = true) :
    pairLt p r = true := by
  rw [pairLt_iff_place] at hpq hqr ⊢
  obtain ⟨a, b, ha, hb, hab⟩ := hpq
  obtain ⟨b', c, hb', hc, hbc⟩ := hqr
  obtain rfl := Option.some.inj (hb.symm.trans hb')
  refine ⟨a, c, ha, hc, ?_⟩
  rcases hab with hab | ⟨rfl, x, y, hx, hy, hxy⟩
  · rcases hbc with hbc | ⟨rfl, -⟩
    · exact Or.inl (hab.trans hbc)
    · exact Or.inl hab
  · rcases hbc with hbc | ⟨rfl, y', z, hy', hz, hyz⟩
    · exact Or.inl hbc
    · obtain rfl := Option.some.inj (hy.symm.trans hy')
      exact Or.inr ⟨rfl, x, z, hx, hz, hxy.trans hyz⟩

/-! ## Numbers -/

/-- A finite number or negative zero. -/
def IsNumber : PyFloat → Prop
  | .finite _ | .negZero => True
  | .posInf | .negInf | .nan => False

/-- The rational that a number stands for. -/
def toRat : PyFloat → ℚ
  | .finite x => x
  | _ => 0

variable {x y : PyFloat}

lemma lt_iff_toRat (hx : x.IsNumber) (hy : y.IsNumber) : x.lt y ↔ x.toRat < y.toRat := by
  cases x <;> cases y <;> simp_all [IsNumber, lt, toRat]

lemma ge_iff_toRat (hx : x.IsNumber) (hy : y.IsNumber) : x.ge y ↔ y.toRat ≤ x.toRat := by
  have hxnan : x ≠ .nan := by
    rintro rfl
    exact hx
  have hynan : y ≠ .nan := by
    rintro rfl
    exact hy
  rw [ge, ← not_lt, ← lt_iff_toRat hx hy]
  simp [hxnan, hynan]

lemma eq_iff_toRat (hx : x.IsNumber) (hy : y.IsNumber) : x.eq y ↔ x.toRat = y.toRat := by
  rw [eq, Bool.and_eq_true, ge_iff_toRat hx hy, ge_iff_toRat hy hx, le_antisymm_iff, and_comm]

/-- A sign of zero is lost in the rational. -/
lemma number_signedZero (negative : Bool) :
    (signedZero negative).IsNumber ∧ (signedZero negative).toRat = 0 := by
  cases negative <;> exact ⟨trivial, rfl⟩

lemma number_mul (hx : x.IsNumber) (hy : y.IsNumber) :
    (x.mul y).IsNumber ∧ (x.mul y).toRat = x.toRat * y.toRat := by
  cases x with
  | finite a =>
      cases y with
      | finite b =>
          by_cases hzero : a * b = 0
          · have hmul : (finite a).mul (finite b) =
                signedZero (decide (a < 0) != decide (b < 0)) := if_pos hzero
            rw [hmul]
            exact ⟨(number_signedZero _).1, (number_signedZero _).2.trans hzero.symm⟩
          · have hmul : (finite a).mul (finite b) = finite (a * b) := if_neg hzero
            rw [hmul]
            exact ⟨trivial, rfl⟩
      | negZero => exact ⟨(number_signedZero _).1, (number_signedZero _).2.trans (mul_zero a).symm⟩
      | _ => exact hy.elim
  | negZero =>
      cases y with
      | finite b => exact ⟨(number_signedZero _).1, (number_signedZero _).2.trans (zero_mul b).symm⟩
      | negZero => exact ⟨trivial, (mul_zero (0 : ℚ)).symm⟩
      | _ => exact hy.elim
  | _ => exact hx.elim

lemma number_add (hx : x.IsNumber) (hy : y.IsNumber) :
    (x.add y).IsNumber ∧ (x.add y).toRat = x.toRat + y.toRat := by
  cases x <;> cases y <;> simp_all [IsNumber, add, toRat]

lemma pairLt_iff_toRat {p q : PyFloat × PyFloat} (hp : p.1.IsNumber ∧ p.2.IsNumber)
    (hq : q.1.IsNumber ∧ q.2.IsNumber) :
    pairLt p q ↔ toLex (p.1.toRat, p.2.toRat) < toLex (q.1.toRat, q.2.toRat) := by
  rw [pairLt, Prod.Lex.toLex_lt_toLex]
  have heq := eq_iff_toRat hp.1 hq.1
  by_cases h : p.1.toRat = q.1.toRat
  · rw [if_pos (heq.mpr h), lt_iff_toRat hp.2 hq.2]
    simp [h]
  · rw [if_neg (fun he => h (heq.mp he)), lt_iff_toRat hp.1 hq.1]
    simp [h]

end PyFloat
