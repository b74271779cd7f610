import Mathlib.Logic.Relation
import Mathlib.Order.MinMax
import Mathlib.Tactic.Common

/-!
# Classes by their representatives

A partition is given by a function that takes each element to the representative of its class.  To
join two elements is to give both their classes the smaller of the two representatives.  After a
list of pairs has been joined, two elements have one representative exactly if a chain of the pairs
leads from one to the other.
-/

namespace Representatives

variable {α : Type*} [LinearOrder α]

/-- The classes of `i` and `j` become one. -/
def join (r : α → α) (i j : α) : α → α := fun k =>
  if r k = max (r i) (r j) then min (r i) (r j) else r k

/-- Two elements have one representative after a join if they had one before, or if they were in the
two classes that have become one. -/
lemma join_eq_iff (r : α → α) (i j k l : α) :
    join r i j k = join r i j l ↔
      r k = r l ∨ (r k = r i ∧ r l = r j) ∨ (r k = r j ∧ r l = r i) := by
  have hmerged : ∀ m, join r i j m = if r m = r i ∨ r m = r j then min (r i) (r j) else r m := by
    intro m
    unfold join
    rcases le_total (r i) (r j) with hle | hle
    · rw [max_eq_right hle, min_eq_left hle]
      by_cases hi : r m = r i
      · rw [if_pos (Or.inl hi), hi, ite_self]
      · simp only [hi, false_or]
    · rw [max_eq_left hle, min_eq_right hle]
      by_cases hj : r m = r j
      · rw [if_pos (Or.inr hj), hj, ite_self]
      · simp only [hj, or_false]
  have hmin : min (r i) (r j) = r i ∨ min (r i) (r j) = r j := min_choice _ _
  rw [hmerged, hmerged]
  by_cases hk : r k = r i ∨ r k = r j
  · rw [if_pos hk]
    by_cases hl : r l = r i ∨ r l = r j
    · rw [if_pos hl]
      refine iff_of_true rfl ?_
      rcases hk with hk | hk
      · rcases hl with hl | hl
        · exact Or.inl (hk.trans hl.symm)
        · exact Or.inr (Or.inl ⟨hk, hl⟩)
      · rcases hl with hl | hl
        · exact Or.inr (Or.inr ⟨hk, hl⟩)
        · exact Or.inl (hk.trans hl.symm)
    · rw [if_neg hl]
      refine iff_of_false ?_ ?_
      · intro h
        apply hl
        rcases hmin with hmin | hmin
        · exact Or.inl (h.symm.trans hmin)
        · exact Or.inr (h.symm.trans hmin)
      · rintro (h | ⟨-, h⟩ | ⟨-, h⟩)
        · exact hl (h ▸ hk)
        · exact hl (Or.inr h)
        · exact hl (Or.inl h)
  · rw [if_neg hk]
    by_cases hl : r l = r i ∨ r l = r j
    · rw [if_pos hl]
      refine iff_of_false ?_ ?_
      · intro h
        apply hk
        rcases hmin with hmin | hmin
        · exact Or.inl (h.trans hmin)
        · exact Or.inr (h.trans hmin)
      · rintro (h | ⟨h, -⟩ | ⟨h, -⟩)
        · exact hk (h ▸ hl)
        · exact hk (Or.inl h)
        · exact hk (Or.inr h)
    · rw [if_neg hl]
      refine ⟨Or.inl, ?_⟩
      rintro (h | ⟨h, -⟩ | ⟨h, -⟩)
      · exact h
      · exact absurd (Or.inl h) hk
      · exact absurd (Or.inr h) hk

/-- After a list of joins two elements have one representative exactly if they were connected by
their representatives and the pairs. -/
theorem foldl_join_eq_iff (ps : List (α × α)) (r : α → α) (k l : α) :
    ps.foldl (fun r p => join r p.1 p.2) r k = ps.foldl (fun r p => join r p.1 p.2) r l ↔
      Relation.EqvGen (fun a b => r a = r b ∨ (a, b) ∈ ps) k l := by
  induction ps generalizing r with
  | nil =>
    have hker : IsEquiv α fun a b => r a = r b :=
      { refl := fun _ => rfl, symm := fun _ _ h => h.symm, trans := fun _ _ _ h h' => h.trans h' }
    rw [List.foldl_nil]
    constructor
    · exact fun h => .rel k l (Or.inl h)
    · intro h
      have hle : (fun a b => r a = r b ∨ (a, b) ∈ ([] : List (α × α))) ≤ fun a b => r a = r b :=
        fun a b hab => hab.resolve_right List.not_mem_nil
      exact Relation.EqvGen.eqvGen_le hle k l h
  | cons p ps ih =>
    obtain ⟨i, j⟩ := p
    rw [List.foldl_cons, ih]
    have hpair : Relation.EqvGen (fun a b => r a = r b ∨ (a, b) ∈ (i, j) :: ps) i j :=
      .rel i j (Or.inr List.mem_cons_self)
    have hsame : ∀ a b, r a = r b →
        Relation.EqvGen (fun a b => r a = r b ∨ (a, b) ∈ (i, j) :: ps) a b :=
      fun a b h => .rel a b (Or.inl h)
    constructor
    · refine Relation.EqvGen.eqvGen_le (fun a b hab => ?_) k l
      rcases hab with hab | hab
      · rcases (join_eq_iff r i j a b).mp hab with h | ⟨ha, hb⟩ | ⟨ha, hb⟩
        · exact hsame a b h
        · exact .trans _ _ _ (hsame a i ha) (.trans _ _ _ hpair (hsame j b hb.symm))
        · exact .trans _ _ _ (hsame a j ha) (.trans _ _ _ (.symm _ _ hpair) (hsame i b hb.symm))
      · exact .rel a b (Or.inr (List.mem_cons_of_mem _ hab))
    · refine Relation.EqvGen.eqvGen_le (fun a b hab => ?_) k l
      rcases hab with hab | hab
      · exact .rel a b (Or.inl ((join_eq_iff r i j a b).mpr (Or.inl hab)))
      · rcases List.mem_cons.mp hab with heq | hab
        · obtain ⟨rfl, rfl⟩ := Prod.mk.inj heq
          exact .rel a b (Or.inl ((join_eq_iff r a b a b).mpr (Or.inr (Or.inl ⟨rfl, rfl⟩))))
        · exact .rel a b (Or.inr hab)

end Representatives
