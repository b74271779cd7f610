import Mathlib.Data.List.Basic
import Mathlib.Tactic.Common

/-!
# The edit distance

The Levenshtein distance of two lists by its recursion on the first elements: equal ones cost
nothing, and different ones cost one deletion, insertion or substitution.  Beside the distance stand
the facts that decide small distances: it is zero on equal lists only, it is at least the difference
of the lengths, and what a distance of at most one says at the first place where the lists differ.
-/

namespace EditDistance

variable {α : Type*} [DecidableEq α]

/-- The least number of insertions, deletions and substitutions from one list to the other. -/
def editDistance : List α → List α → ℕ
  | [], ys => ys.length
  | x :: xs, [] => (x :: xs).length
  | x :: xs, y :: ys =>
    if x = y then editDistance xs ys
    else 1 + min (editDistance xs (y :: ys)) (min (editDistance (x :: xs) ys) (editDistance xs ys))
  termination_by xs ys => xs.length + ys.length

variable {x y : α} {xs ys : List α}

@[simp] lemma editDistance_nil_left : editDistance [] ys = ys.length := by
  rw [editDistance]

@[simp] lemma editDistance_nil_right : editDistance xs [] = xs.length := by
  cases xs with
  | nil => rw [editDistance_nil_left]
  | cons x xs => rw [editDistance]

@[simp] lemma editDistance_cons_self : editDistance (x :: xs) (x :: ys) = editDistance xs ys := by
  rw [editDistance, if_pos rfl]

lemma editDistance_cons_of_ne (h : x ≠ y) :
    editDistance (x :: xs) (y :: ys) =
      1 + min (editDistance xs (y :: ys)) (min (editDistance (x :: xs) ys)
        (editDistance xs ys)) := by
  rw [editDistance, if_neg h]

/-! ## The distance as a distance -/

lemma editDistance_comm (xs ys : List α) : editDistance xs ys = editDistance ys xs := by
  induction xs, ys using editDistance.induct with
  | case1 ys => rw [editDistance_nil_left, editDistance_nil_right]
  | case2 x xs => rw [editDistance_nil_left, editDistance_nil_right]
  | case3 x xs ys ih => rw [editDistance_cons_self, editDistance_cons_self, ih]
  | case4 x xs y ys h ihl ihr ih =>
    have hyx : y ≠ x := fun heq => h heq.symm
    rw [editDistance_cons_of_ne h, editDistance_cons_of_ne hyx, ihl, ihr, ih]
    omega

lemma editDistance_eq_zero_iff : editDistance xs ys = 0 ↔ xs = ys := by
  induction xs, ys using editDistance.induct with
  | case1 ys => rw [editDistance_nil_left, List.length_eq_zero_iff, eq_comm]
  | case2 x xs => rw [editDistance_nil_right, List.length_eq_zero_iff]
  | case3 x xs ys ih => rw [editDistance_cons_self, ih, List.cons_inj_right]
  | case4 x xs y ys h =>
    rw [editDistance_cons_of_ne h]
    constructor
    · intro hzero
      omega
    · intro heq
      exact absurd (List.cons.inj heq).1 h

lemma editDistance_self (xs : List α) : editDistance xs xs = 0 :=
  editDistance_eq_zero_iff.mpr rfl

/-- The lists are at least as far apart as their lengths. -/
lemma length_le_add_editDistance (xs ys : List α) :
    xs.length ≤ ys.length + editDistance xs ys := by
  induction xs, ys using editDistance.induct with
  | case1 ys => exact Nat.zero_le _
  | case2 x xs =>
    rw [editDistance_nil_right]
    omega
  | case3 x xs ys ih =>
    rw [editDistance_cons_self, List.length_cons, List.length_cons]
    omega
  | case4 x xs y ys h ihl ihr ih =>
    rw [editDistance_cons_of_ne h]
    simp only [List.length_cons] at ihl ihr ih ⊢
    omega

/-! ## A distance of at most one -/

/-- Where the lists differ first, one edit has to make the rests equal. -/
lemma editDistance_cons_le_one_iff (h : x ≠ y) :
    editDistance (x :: xs) (y :: ys) ≤ 1 ↔ xs = y :: ys ∨ x :: xs = ys ∨ xs = ys := by
  have hleft : editDistance xs (y :: ys) = 0 ↔ xs = y :: ys := editDistance_eq_zero_iff
  have hright : editDistance (x :: xs) ys = 0 ↔ x :: xs = ys := editDistance_eq_zero_iff
  have hboth : editDistance xs ys = 0 ↔ xs = ys := editDistance_eq_zero_iff
  rw [editDistance_cons_of_ne h, ← hleft, ← hright, ← hboth]
  omega

def mismatches (xs ys : List α) : ℕ :=
  ((xs.zip ys).filter fun p => decide (p.1 ≠ p.2)).length

@[simp] lemma mismatches_nil : mismatches ([] : List α) ys = 0 := by
  rfl

@[simp] lemma mismatches_cons_self : mismatches (x :: xs) (x :: ys) = mismatches xs ys := by
  simp [mismatches]

lemma mismatches_cons_of_ne (h : x ≠ y) :
    mismatches (x :: xs) (y :: ys) = mismatches xs ys + 1 := by
  simp [mismatches, h]

lemma mismatches_eq_zero_iff (hlen : xs.length = ys.length) :
    mismatches xs ys = 0 ↔ xs = ys := by
  induction xs generalizing ys with
  | nil =>
    have hys : ys = [] := List.length_eq_zero_iff.mp hlen.symm
    rw [hys]
    exact iff_of_true rfl rfl
  | cons x xs ih =>
    obtain ⟨y, ys, rfl⟩ := List.exists_cons_of_length_eq_add_one hlen.symm
    have hlen' : xs.length = ys.length := Nat.succ.inj hlen
    by_cases h : x = y
    · subst h
      rw [mismatches_cons_self, ih hlen', List.cons_inj_right]
    · rw [mismatches_cons_of_ne h]
      constructor
      · intro hzero
        omega
      · intro heq
        exact absurd (List.cons.inj heq).1 h

/-- Between lists of one length the only single edit is a substitution. -/
lemma mismatches_le_one_iff (hlen : xs.length = ys.length) :
    mismatches xs ys ≤ 1 ↔ editDistance xs ys ≤ 1 := by
  induction xs generalizing ys with
  | nil =>
    have hys : ys = [] := List.length_eq_zero_iff.mp hlen.symm
    rw [hys, editDistance_self, mismatches_nil]
  | cons x xs ih =>
    obtain ⟨y, ys, rfl⟩ := List.exists_cons_of_length_eq_add_one hlen.symm
    have hlen' : xs.length = ys.length := Nat.succ.inj hlen
    by_cases h : x = y
    · subst h
      rw [mismatches_cons_self, editDistance_cons_self]
      exact ih hlen'
    · have hzero := mismatches_eq_zero_iff hlen'
      rw [mismatches_cons_of_ne h, editDistance_cons_le_one_iff h]
      constructor
      · intro hle
        exact Or.inr (Or.inr (hzero.mp (by omega)))
      · rintro (rfl | rfl | rfl)
        · simp only [List.length_cons] at hlen'
          omega
        · simp only [List.length_cons] at hlen'
          omega
        · have := hzero.mpr rfl
          omega

end EditDistance
