import Mathlib.Data.List.Basic
import Mathlib.Data.List.TakeWhile
import Mathlib.Tactic.Common

/-!
# Loops that check and apply one item at a time

A loop checks an item, applies what the check gives, and goes on to the next item; the first item
that does not pass ends it with an exception.  What such a loop leaves behind is what the items
before that one did.
-/

namespace PartialLoops

variable {σ ι ε α : Type*} (check : ι → Except ε α) (apply : σ → ι → α → σ)

/-- The loop: what it leaves behind, and whether it raised. -/
def run : σ → List ι → σ × Except ε Unit
  | s, [] => (s, .ok ())
  | s, x :: xs =>
    match check x with
    | .error e => (s, .error e)
    | .ok a => run (apply s x a) xs

def passes (x : ι) : Bool := (check x).isOk

/-- The items before the first one that does not pass. -/
def validPrefix (xs : List ι) : List ι := xs.takeWhile (passes check)

def applyChecked (s : σ) (x : ι) : σ :=
  match check x with
  | .error _ => s
  | .ok a => apply s x a

variable {check apply}

/-- The loop leaves behind what the items before the first one that does not pass did. -/
lemma fst_run (s : σ) (xs : List ι) :
    (run check apply s xs).1 = (validPrefix check xs).foldl (applyChecked check apply) s := by
  induction xs generalizing s with
  | nil => rfl
  | cons x xs ih =>
      unfold run validPrefix
      rw [List.takeWhile_cons]
      cases hx : check x with
      | error e => simp [passes, hx, Except.isOk, Except.toBool]
      | ok a =>
          have hpass : passes check x = true := by simp [passes, hx, Except.isOk, Except.toBool]
          have hstep : applyChecked check apply s x = apply s x a := by rw [applyChecked, hx]
          rw [if_pos hpass, List.foldl_cons, hstep]
          exact ih (apply s x a)

/-- The loop raises exactly when an item does not pass. -/
lemma raises_iff {s : σ} {xs : List ι} :
    (∃ e, (run check apply s xs).2 = .error e) ↔ ∃ x ∈ xs, ¬passes check x := by
  induction xs generalizing s with
  | nil => simp [run]
  | cons x xs ih =>
      unfold run
      rw [List.exists_mem_cons_iff]
      cases hx : check x with
      | error e =>
          refine iff_of_true ⟨e, rfl⟩ (Or.inl ?_)
          simp [passes, hx, Except.isOk, Except.toBool]
      | ok a =>
          have hpass : passes check x = true := by simp [passes, hx, Except.isOk, Except.toBool]
          simp [hpass, ih]

lemma passes_of_mem_validPrefix {xs : List ι} {x : ι} (h : x ∈ validPrefix check xs) :
    ∃ a, check x = .ok a := by
  have hpass : passes check x = true := List.mem_takeWhile_imp h
  unfold passes at hpass
  cases hx : check x with
  | error e => exact absurd hpass (by simp [hx, Except.isOk, Except.toBool])
  | ok a => exact ⟨a, rfl⟩

end PartialLoops
