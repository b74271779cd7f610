import Mathlib.Algebra.BigOperators.Group.List.Basic
import Mathlib.Algebra.GroupWithZero.Nat
import Mathlib.Logic.Relation
import Mathlib.Tactic.Common

/-!
# Walking a tree in breadth-first order

The queue loop of a tree walk: the node at the head of the queue is yielded and its children go to
the end.  A walk is given as many rounds as the tree has nodes; `mem_walk` says that these are
enough, so that the walk yields exactly the root and what lies below it.
-/

namespace TreeWalk

variable {α : Type*} (children : α → List α) (count : α → ℕ)

/-- The nodes that a queue yields in the given number of rounds. -/
def walkFrom : ℕ → List α → List α
  | 0, _ => []
  | _ + 1, [] => []
  | fuel + 1, n :: todo => n :: walkFrom fuel (todo ++ children n)

/-- The nodes of the tree under a root, level by level. -/
def walk (root : α) : List α := walkFrom children (count root) [root]

/-- `n` is the root `r` or lies below it. -/
def Below : α → α → Prop := Relation.ReflTransGen fun a b => b ∈ children a

/-- The count of a node is one more than those of its children together. -/
def Counts : Prop := ∀ n, count n = 1 + ((children n).map count).sum

variable {children count}

lemma below_iff {r n : α} : Below children r n ↔ r = n ∨ ∃ c ∈ children r, Below children c n := by
  constructor
  · intro h
    rcases Relation.ReflTransGen.cases_head h with rfl | ⟨c, hc, hn⟩
    · exact Or.inl rfl
    · exact Or.inr ⟨c, hc, hn⟩
  · rintro (rfl | ⟨c, hc, hn⟩)
    · exact Relation.ReflTransGen.refl
    · exact Relation.ReflTransGen.head hc hn

/-- A queue that is given enough rounds yields what lies below its nodes. -/
lemma mem_walkFrom (hcount : Counts children count) {n : α} : ∀ (fuel : ℕ) (todo : List α),
    (todo.map count).sum ≤ fuel →
      (n ∈ walkFrom children fuel todo ↔ ∃ r ∈ todo, Below children r n) := by
  intro fuel
  induction fuel with
  | zero =>
      intro todo hsum
      cases todo with
      | nil => simp [walkFrom]
      | cons r rest =>
          have hr := hcount r
          rw [List.map_cons, List.sum_cons] at hsum
          omega
  | succ fuel ih =>
      intro todo hsum
      cases todo with
      | nil => simp [walkFrom]
      | cons r rest =>
          have hr := hcount r
          rw [List.map_cons, List.sum_cons] at hsum
          have hrest : ((rest ++ children r).map count).sum ≤ fuel := by
            rw [List.map_append, List.sum_append]
            omega
          show n ∈ r :: walkFrom children fuel (rest ++ children r) ↔ _
          rw [List.mem_cons, ih _ hrest]
          constructor
          · rintro (rfl | ⟨q, hq, hn⟩)
            · exact ⟨n, List.mem_cons_self, below_iff.mpr (Or.inl rfl)⟩
            · rcases List.mem_append.mp hq with hq | hq
              · exact ⟨q, List.mem_cons_of_mem _ hq, hn⟩
              · exact ⟨r, List.mem_cons_self, below_iff.mpr (Or.inr ⟨q, hq, hn⟩)⟩
          · rintro ⟨q, hq, hn⟩
            rcases List.mem_cons.mp hq with rfl | hq
            · rcases below_iff.mp hn with heq | ⟨c, hc, hbelow⟩
              · exact Or.inl heq.symm
              · exact Or.inr ⟨c, List.mem_append_right _ hc, hbelow⟩
            · exact Or.inr ⟨q, List.mem_append_left _ hq, hn⟩

/-- The walk yields the root and what lies below it. -/
theorem mem_walk (hcount : Counts children count) {root n : α} :
    n ∈ walk children count root ↔ Below children root n := by
  unfold walk
  rw [mem_walkFrom hcount (count root) [root] (by simp)]
  simp

end TreeWalk
