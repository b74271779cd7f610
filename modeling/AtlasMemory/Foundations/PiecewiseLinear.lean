import Mathlib.Algebra.Order.Field.Basic
import Mathlib.Tactic.Linarith
import Mathlib.Tactic.Ring

/-!
# Piecewise linear curves through knots

The curve through knots whose positions and values do not decrease: between two knots it is the
line through them, and after the last one it stays at its value.  Several knots may stand at one
position; the curve then passes through the last of them.  The curve does not decrease, and the
binary search in the positions of the knots finds the line it follows.
-/

namespace PiecewiseLinear

section Search

variable {K : Type*} [LinearOrder K]

/-- `bisect_right`: the positions that are left to be searched are those from `lo` to `hi`. -/
def bisectRight (xs : List K) (v : K) : (fuel lo hi : ℕ) → ℕ
  | 0, lo, _ => lo
  | fuel + 1, lo, hi =>
    if lo < hi then
      match xs[(lo + hi) / 2]? with
      | some x =>
        if v < x then bisectRight xs v fuel lo ((lo + hi) / 2)
        else bisectRight xs v fuel ((lo + hi) / 2 + 1) hi
      | none => lo
    else lo

/-- The elements before the position are at most the value, those from it on exceed it. -/
structure Splits (xs : List K) (v : K) (i : ℕ) : Prop where
  le_length : i ≤ xs.length
  before : ∀ j x, j < i → xs[j]? = some x → x ≤ v
  after : ∀ j x, i ≤ j → xs[j]? = some x → v < x

lemma splits_bisectRight {xs : List K} (hxs : xs.Pairwise (· ≤ ·)) {v : K} {fuel lo hi : ℕ}
    (hfuel : hi ≤ lo + fuel) (hlo : lo ≤ hi) (hhi : hi ≤ xs.length)
    (hbefore : ∀ j x, j < lo → xs[j]? = some x → x ≤ v)
    (hafter : ∀ j x, hi ≤ j → xs[j]? = some x → v < x) :
    Splits xs v (bisectRight xs v fuel lo hi) := by
  have hsorted : ∀ {j k : ℕ} {x y : K}, j < k → xs[j]? = some x → xs[k]? = some y → x ≤ y := by
    intro j k x y hjk hx hy
    obtain ⟨hj, rfl⟩ := List.getElem?_eq_some_iff.mp hx
    obtain ⟨hk, rfl⟩ := List.getElem?_eq_some_iff.mp hy
    exact List.pairwise_iff_getElem.mp hxs j k hj hk hjk
  induction fuel generalizing lo hi with
  | zero =>
    obtain rfl : lo = hi := by omega
    exact ⟨hhi, hbefore, hafter⟩
  | succ fuel ih =>
    unfold bisectRight
    split_ifs with hlt
    · obtain ⟨x, hx⟩ : ∃ x, xs[(lo + hi) / 2]? = some x :=
        ⟨_, List.getElem?_eq_getElem (by omega)⟩
      rw [hx]
      show Splits xs v (if v < x then _ else _)
      split_ifs with hv
      · refine ih (by omega) (by omega) (by omega) hbefore fun j y hj hy => ?_
        rcases hj.eq_or_lt with rfl | hj
        · rw [hx] at hy
          exact Option.some.inj hy ▸ hv
        · exact lt_of_lt_of_le hv (hsorted hj hx hy)
      · refine ih (by omega) (by omega) hhi (fun j y hj hy => ?_) hafter
        rcases (Nat.lt_succ_iff.mp hj).eq_or_lt with rfl | hj
        · rw [hx] at hy
          exact Option.some.inj hy ▸ not_lt.mp hv
        · exact (hsorted hj hy hx).trans (not_lt.mp hv)
    · obtain rfl : lo = hi := by omega
      exact ⟨hhi, hbefore, hafter⟩

end Search

section Curve

variable {K : Type*} [Field K]

/-- The line through two knots. -/
def segment (p q : K × K) (v : K) : K := p.2 + (v - p.1) * (q.2 - p.2) / (q.1 - p.1)

@[simp] lemma segment_left (p q : K × K) : segment p q p.1 = p.2 := by
  simp [segment]

variable [LinearOrder K]

/-- The curve from a knot on. -/
def curve (p : K × K) : List (K × K) → K → K
  | [], _ => p.2
  | q :: rest, v => if v < q.1 then segment p q v else curve q rest v

/-- Knots whose positions and values do not decrease. -/
def Rising (knots : List (K × K)) : Prop := knots.Pairwise fun p q => p.1 ≤ q.1 ∧ p.2 ≤ q.2

variable {p : K × K} {rest : List (K × K)}

/-- Between two neighbours the curve is the line through them. -/
lemma curve_eq_segment (h : Rising (p :: rest)) {i : ℕ} {a b : K × K} {v : K}
    (ha : (p :: rest)[i]? = some a) (hb : (p :: rest)[i + 1]? = some b) (hav : a.1 ≤ v)
    (hvb : v < b.1) : curve p rest v = segment a b v := by
  induction rest generalizing p i with
  | nil => simp at hb
  | cons r rest ih =>
    obtain ⟨hfirst, hrest⟩ := List.pairwise_cons.mp h
    rw [List.getElem?_cons_succ] at hb
    unfold curve
    rcases i with _ | i
    · obtain rfl := Option.some.inj ha
      obtain rfl := Option.some.inj hb
      rw [if_pos hvb]
    · rw [List.getElem?_cons_succ] at ha
      have hle : r.1 ≤ a.1 := by
        rcases List.mem_cons.mp (List.mem_of_getElem? ha) with rfl | hmem
        · exact le_refl _
        · exact ((List.pairwise_cons.mp hrest).1 a hmem).1
      rw [if_neg (not_lt.mpr (hle.trans hav))]
      exact ih hrest ha hb

/-- From the last knot on the curve stays at its value. -/
lemma curve_eq_last (h : Rising (p :: rest)) {a : K × K} {v : K}
    (ha : (p :: rest).getLast? = some a) (hav : a.1 ≤ v) : curve p rest v = a.2 := by
  induction rest generalizing p with
  | nil =>
    obtain rfl : p = a := by simpa using ha
    rfl
  | cons r rest ih =>
    obtain ⟨-, hrest⟩ := List.pairwise_cons.mp h
    rw [List.getLast?_cons_cons] at ha
    have hle : r.1 ≤ a.1 := by
      rcases List.mem_cons.mp (List.mem_of_getLast? ha) with rfl | hmem
      · exact le_refl _
      · exact ((List.pairwise_cons.mp hrest).1 a hmem).1
    unfold curve
    rw [if_neg (not_lt.mpr (hle.trans hav))]
    exact ih hrest ha

/-- At the position of the first knot the curve passes through a knot that stands there. -/
lemma exists_mem_curve_left (h : Rising (p :: rest)) :
    ∃ q ∈ p :: rest, q.1 = p.1 ∧ curve p rest p.1 = q.2 := by
  induction rest generalizing p with
  | nil => exact ⟨p, List.mem_singleton_self p, rfl, rfl⟩
  | cons r rest ih =>
    obtain ⟨hfirst, hrest⟩ := List.pairwise_cons.mp h
    unfold curve
    split_ifs with hlt
    · exact ⟨p, List.mem_cons_self, rfl, segment_left p r⟩
    · have heq : r.1 = p.1 := le_antisymm (not_lt.mp hlt) (hfirst r List.mem_cons_self).1
      obtain ⟨q, hq, hx, hy⟩ := ih hrest
      exact ⟨q, List.mem_cons_of_mem p hq, hx.trans heq, heq ▸ hy⟩

variable [IsStrictOrderedRing K]

lemma segment_mono {p q : K × K} (hx : p.1 < q.1) (hy : p.2 ≤ q.2) {u v : K} (huv : u ≤ v) :
    segment p q u ≤ segment p q v := by
  have hwidth : 0 ≤ q.1 - p.1 := sub_nonneg.mpr hx.le
  have hheight : 0 ≤ q.2 - p.2 := sub_nonneg.mpr hy
  have hstep : (u - p.1) * (q.2 - p.2) ≤ (v - p.1) * (q.2 - p.2) :=
    mul_le_mul_of_nonneg_right (by linarith) hheight
  have hdiv := div_le_div_of_nonneg_right hstep hwidth
  unfold segment
  linarith

lemma segment_right {p q : K × K} (hx : p.1 < q.1) : segment p q q.1 = q.2 := by
  have hwidth : q.1 - p.1 ≠ 0 := (sub_pos.mpr hx).ne'
  unfold segment
  rw [mul_comm, mul_div_assoc, div_self hwidth]
  ring

lemma le_curve_of_mem (h : Rising (p :: rest)) {v : K} (hv : p.1 ≤ v) {q : K × K}
    (hq : q ∈ p :: rest) (hqv : q.1 ≤ v) : q.2 ≤ curve p rest v := by
  induction rest generalizing p q with
  | nil =>
    rw [List.mem_singleton.mp hq]
    exact le_refl p.2
  | cons r rest ih =>
    obtain ⟨hfirst, hrest⟩ := List.pairwise_cons.mp h
    obtain ⟨hx, hy⟩ := hfirst r List.mem_cons_self
    unfold curve
    split_ifs with hvr
    · rcases List.mem_cons.mp hq with rfl | hq
      · have hleft := segment_mono (lt_of_le_of_lt hv hvr) hy hv
        rwa [segment_left] at hleft
      · -- the knots from the next one on are still to come
        have hle : r.1 ≤ q.1 := by
          rcases List.mem_cons.mp hq with rfl | hq
          · exact le_refl _
          · exact ((List.pairwise_cons.mp hrest).1 q hq).1
        exact absurd hvr (not_lt.mpr (hle.trans hqv))
    · have hrv : r.1 ≤ v := not_lt.mp hvr
      rcases List.mem_cons.mp hq with rfl | hq
      · exact hy.trans (ih hrest hrv List.mem_cons_self hrv)
      · exact ih hrest hrv hq hqv

lemma curve_mono (h : Rising (p :: rest)) {u v : K} (hu : p.1 ≤ u) (huv : u ≤ v) :
    curve p rest u ≤ curve p rest v := by
  induction rest generalizing p with
  | nil => exact le_refl p.2
  | cons r rest ih =>
    obtain ⟨hfirst, hrest⟩ := List.pairwise_cons.mp h
    obtain ⟨-, hy⟩ := hfirst r List.mem_cons_self
    unfold curve
    by_cases hur : u < r.1
    · have hx : p.1 < r.1 := lt_of_le_of_lt hu hur
      rw [if_pos hur]
      split_ifs with hvr
      · exact segment_mono hx hy huv
      · have hrv : r.1 ≤ v := not_lt.mp hvr
        have hright := segment_mono hx hy hur.le
        rw [segment_right hx] at hright
        exact hright.trans (le_curve_of_mem hrest hrv List.mem_cons_self hrv)
    · have hru : r.1 ≤ u := not_lt.mp hur
      rw [if_neg hur, if_neg (not_lt.mpr (hru.trans huv))]
      exact ih hrest hru

end Curve

end PiecewiseLinear
