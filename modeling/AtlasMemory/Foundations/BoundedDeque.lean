import Mathlib.Data.List.DropRight

/-!
# Queues of a bounded length

A queue that keeps the last `n` items: an item that is appended to a full queue pushes the oldest
one out.  After any number of items the queue holds the last `n` of all that were in it and came
later, so that nothing is lost as long as all of them fit.
-/

/-- The last `n` items at most, the oldest one first. -/
structure BoundedDeque (α : Type*) (n : ℕ) where
  items : List α
  length_le : items.length ≤ n

namespace BoundedDeque

variable {α : Type*} {n : ℕ}

lemma length_rtake (l : List α) (n : ℕ) : (l.rtake n).length = min n l.length := by
  rw [List.rtake_eq_reverse_take_reverse, List.length_reverse, List.length_take,
    List.length_reverse]

lemma rtake_rtake_append (l m : List α) (n : ℕ) :
    (l.rtake n ++ m).rtake n = (l ++ m).rtake n := by
  have hmin : min (n - m.length) n = n - m.length := by omega
  simp only [List.rtake_eq_reverse_take_reverse, List.reverse_append, List.reverse_reverse,
    List.take_append, List.take_take, List.length_reverse, hmin]

lemma rtake_of_length_le {l : List α} {n : ℕ} (h : l.length ≤ n) : l.rtake n = l := by
  rw [List.rtake, Nat.sub_eq_zero_of_le h, List.drop_zero]

/-- The last items of two lists: those of the second one, and of the first one as many as fit. -/
lemma rtake_append (l m : List α) (n : ℕ) :
    (l ++ m).rtake n = l.rtake (n - m.length) ++ m.rtake n := by
  simp only [List.rtake_eq_reverse_take_reverse, List.reverse_append, List.take_append,
    List.length_reverse]

lemma mem_of_mem_rtake {l : List α} {n : ℕ} {x : α} (h : x ∈ l.rtake n) : x ∈ l :=
  List.mem_of_mem_drop h

instance : EmptyCollection (BoundedDeque α n) := ⟨⟨[], Nat.zero_le n⟩⟩

@[simp] lemma items_empty : (∅ : BoundedDeque α n).items = [] := rfl

/-- `d.append(x)`. -/
def append (d : BoundedDeque α n) (x : α) : BoundedDeque α n where
  items := (d.items ++ [x]).rtake n
  length_le := by
    rw [length_rtake]
    exact min_le_left _ _

/-- `d.extend(xs)`. -/
def extend (d : BoundedDeque α n) (xs : List α) : BoundedDeque α n := xs.foldl append d

@[simp] lemma extend_nil (d : BoundedDeque α n) : d.extend [] = d := rfl

@[simp] lemma extend_cons (d : BoundedDeque α n) (x : α) (xs : List α) :
    d.extend (x :: xs) = (d.append x).extend xs := rfl

lemma extend_append (d : BoundedDeque α n) (xs ys : List α) :
    d.extend (xs ++ ys) = (d.extend xs).extend ys := List.foldl_append

/-- The queue holds the last of all items. -/
theorem items_extend (d : BoundedDeque α n) (xs : List α) :
    (d.extend xs).items = (d.items ++ xs).rtake n := by
  induction xs generalizing d with
  | nil => rw [extend_nil, List.append_nil, rtake_of_length_le d.length_le]
  | cons x xs ih =>
    show ((d.append x).extend xs).items = _
    rw [ih, append, rtake_rtake_append, List.append_assoc, List.singleton_append]

lemma items_extend_of_le {d : BoundedDeque α n} {xs : List α}
    (h : d.items.length + xs.length ≤ n) : (d.extend xs).items = d.items ++ xs := by
  rw [items_extend, rtake_of_length_le (by rwa [List.length_append])]

lemma length_items_extend (d : BoundedDeque α n) (xs : List α) :
    (d.extend xs).items.length = min n (d.items.length + xs.length) := by
  rw [items_extend, length_rtake, List.length_append]

end BoundedDeque
