import Mathlib.Data.List.Sort
import Mathlib.Tactic.Common

/-!
# The head of a stable sort

A list is sorted by score, the highest first, and items of the same score keep their order.  The head
is then the first of the items with the highest score, so what is read off the head depends on the
order of the list as soon as two such items differ in it.
-/

namespace StableSort

variable {α ρ ε β : Type*} [LinearOrder ρ] (score : α → ρ)

def sortBy (l : List α) : List α := l.insertionSort fun a b => score b ≤ score a

variable {score} {l : List α} {a b : α}

lemma perm_sortBy (score : α → ρ) (l : List α) : (sortBy score l).Perm l :=
  List.perm_insertionSort _ l

lemma sortBy_cons : sortBy score (a :: l) =
    List.orderedInsert (fun a b => score b ≤ score a) a (sortBy score l) := rfl

lemma sortBy_eq_nil : sortBy score l = [] ↔ l = [] := by
  rw [← List.length_eq_zero_iff, ← List.length_eq_zero_iff, sortBy, List.length_insertionSort]

/-- The head is the first of the items with the highest score. -/
theorem head?_sortBy : (sortBy score l).head? = some a ↔ ∃ pre post, l = pre ++ a :: post ∧
    (∀ b ∈ pre, score b < score a) ∧ ∀ b ∈ post, score b ≤ score a := by
  induction l generalizing a with
  | nil =>
      constructor
      · intro h
        exact absurd h (by simp [sortBy])
      · rintro ⟨pre, post, heq, -, -⟩
        exact absurd heq.symm (List.append_ne_nil_of_right_ne_nil _ (List.cons_ne_nil _ _))
  | cons b l ih =>
      rw [sortBy_cons]
      cases hsorted : sortBy score l with
      | nil =>
          obtain rfl := sortBy_eq_nil.mp hsorted
          rw [List.orderedInsert_nil, List.head?_cons, Option.some.injEq]
          constructor
          · rintro rfl
            exact ⟨[], [], rfl, by nofun, by nofun⟩
          · rintro ⟨pre, post, heq, -, -⟩
            rcases List.cons_eq_append_iff.mp heq with ⟨rfl, htail⟩ | ⟨pre', rfl, htail⟩
            · exact (List.cons.inj htail).1.symm
            · exact absurd htail (by simp)
      | cons h t =>
          -- the head of the rest, by the induction hypothesis
          have hhead : (sortBy score l).head? = some h := by rw [hsorted, List.head?_cons]
          obtain ⟨pre, post, hl, hpre, hpost⟩ := ih.mp hhead
          have hmax : ∀ c ∈ l, score c ≤ score h := by
            intro c hc
            rw [hl] at hc
            rcases List.mem_append.mp hc with hc | hc
            · exact (hpre c hc).le
            · rcases List.mem_cons.mp hc with rfl | hc
              · exact le_rfl
              · exact hpost c hc
          have hmem : h ∈ l := by
            rw [hl]
            exact List.mem_append_right _ List.mem_cons_self
          by_cases hle : score h ≤ score b
          · rw [List.orderedInsert_cons, if_pos hle, List.head?_cons, Option.some.injEq]
            constructor
            · rintro rfl
              exact ⟨[], l, rfl, by nofun, fun c hc => (hmax c hc).trans hle⟩
            · rintro ⟨pre', post', heq, hpre', -⟩
              rcases List.cons_eq_append_iff.mp heq with ⟨rfl, htail⟩ | ⟨pre'', rfl, htail⟩
              · exact (List.cons.inj htail).1.symm
              · have ha : a ∈ l := by
                  rw [htail]
                  exact List.mem_append_right _ List.mem_cons_self
                exact absurd (hpre' b List.mem_cons_self) (not_lt.mpr ((hmax a ha).trans hle))
          · rw [List.orderedInsert_cons, if_neg hle, List.head?_cons, Option.some.injEq]
            rw [not_le] at hle
            constructor
            · rintro rfl
              refine ⟨b :: pre, post, by rw [hl, List.cons_append], fun c hc => ?_, hpost⟩
              rcases List.mem_cons.mp hc with rfl | hc
              · exact hle
              · exact hpre c hc
            · rintro ⟨pre', post', heq, hpre', hpost'⟩
              rcases List.cons_eq_append_iff.mp heq with ⟨rfl, htail⟩ | ⟨pre'', rfl, htail⟩
              · obtain ⟨rfl, rfl⟩ := List.cons.inj htail
                exact absurd (hpost' h hmem) (not_le.mpr hle)
              · have ha : (sortBy score l).head? = some a :=
                  ih.mpr ⟨pre'', post', htail,
                    fun c hc => hpre' c (List.mem_cons_of_mem b hc), hpost'⟩
                rw [hhead] at ha
                exact Option.some.inj ha

/-! ## Reordered lists -/

variable (score) in
/-- No item of the list has a higher score, and every item in front of it has a lower one. -/
structure IsBest (front l : List α) (a : α) : Prop where
  mem : a ∈ l
  max : ∀ b ∈ l, score b ≤ score a
  above : ∀ b ∈ front, score b < score a

variable {front : List α} {g : ε → Option α} {es : List ε}

/-- The head of a sorted list is in its front, which it outweighs, or is one of the best. -/
lemma isBest_of_head (h : (sortBy score (front ++ l)).head? = some a)
    (hfront : ∀ c ∈ front, ∃ b ∈ l, score c < score b) : IsBest score front l a := by
  obtain ⟨pre, post, heq, hpre, hpost⟩ := head?_sortBy.mp h
  have hmax : ∀ b ∈ front ++ l, score b ≤ score a := by
    intro b hb
    rw [heq] at hb
    rcases List.mem_append.mp hb with hb | hb
    · exact (hpre b hb).le
    · rcases List.mem_cons.mp hb with rfl | hb
      · exact le_rfl
      · exact hpost b hb
  have habove : ∀ b ∈ front, score b < score a := by
    intro b hb
    obtain ⟨c, hc, hlt⟩ := hfront b hb
    exact hlt.trans_le (hmax c (List.mem_append_right _ hc))
  refine ⟨?_, fun b hb => hmax b (List.mem_append_right _ hb), habove⟩
  have hmem : a ∈ front ++ l := by
    rw [heq]
    exact List.mem_append_right _ List.mem_cons_self
  rcases List.mem_append.mp hmem with hmem | hmem
  · exact absurd (habove a hmem) (lt_irrefl _)
  · exact hmem

lemma head?_of_front (h : ∃ c ∈ front, ∀ b ∈ l, score b ≤ score c) :
    (sortBy score (front ++ l)).head? = (sortBy score front).head? := by
  obtain ⟨c, hc, hmax⟩ := h
  cases hhead : (sortBy score front).head? with
  | none =>
      rw [List.head?_eq_none_iff, sortBy_eq_nil] at hhead
      rw [hhead] at hc
      exact absurd hc List.not_mem_nil
  | some a =>
      obtain ⟨pre, post, heq, hpre, hpost⟩ := head?_sortBy.mp hhead
      have hca : score c ≤ score a := by
        rw [heq] at hc
        rcases List.mem_append.mp hc with hc | hc
        · exact (hpre c hc).le
        · rcases List.mem_cons.mp hc with rfl | hc
          · exact le_rfl
          · exact hpost c hc
      refine head?_sortBy.mpr ⟨pre, post ++ l, by rw [heq]; simp, hpre, fun b hb => ?_⟩
      rcases List.mem_append.mp hb with hb | hb
      · exact hpost b hb
      · exact (hmax b hb).trans hca

lemma IsBest.perm {l' : List α} (h : IsBest score front l a) (hperm : l.Perm l') :
    IsBest score front l' a :=
  ⟨hperm.mem_iff.mp h.mem, fun b hb => h.max b (hperm.mem_iff.mpr hb), h.above⟩

lemma head?_of_isBest {l' : List α} (h : IsBest score front l a) (hperm : l.Perm (a :: l')) :
    (sortBy score (front ++ a :: l')).head? = some a :=
  head?_sortBy.mpr ⟨front, l', rfl, h.above, fun b hb =>
    h.max b (hperm.mem_iff.mpr (List.mem_cons_of_mem a hb))⟩

lemma perm_filterMap_of_mem (ha : a ∈ es.filterMap g) :
    ∃ e es', es.Perm (e :: es') ∧ g e = some a := by
  obtain ⟨e, he, hg⟩ := List.mem_filterMap.mp ha
  obtain ⟨pre, post, rfl⟩ := List.append_of_mem he
  exact ⟨e, pre ++ post, List.perm_middle, hg⟩

/-- What is read off the head is the same for every order of what the items come from, exactly if it
is the same for all best items. -/
theorem read_head_iff (f : Option α → β) :
    (∀ es' : List ε, es'.Perm es → f (sortBy score (front ++ es'.filterMap g)).head? =
        f (sortBy score (front ++ es.filterMap g)).head?) ↔
      ∀ a b, IsBest score front (es.filterMap g) a → IsBest score front (es.filterMap g) b →
        f (some a) = f (some b) := by
  constructor
  · intro hall
    have hread : ∀ a, IsBest score front (es.filterMap g) a →
        f (some a) = f (sortBy score (front ++ es.filterMap g)).head? := by
      intro a ha
      obtain ⟨e, es', hperm, hg⟩ := perm_filterMap_of_mem ha.mem
      have hfilter : (e :: es').filterMap g = a :: es'.filterMap g :=
        List.filterMap_cons_some hg
      have hhead := head?_of_isBest ha ((hperm.filterMap g).trans (by rw [hfilter]))
      rw [← hall (e :: es') hperm.symm, hfilter, hhead]
    exact fun a b ha hb => (hread a ha).trans (hread b hb).symm
  · intro hbest es' hperm
    have hlist : (es'.filterMap g).Perm (es.filterMap g) := hperm.filterMap g
    by_cases hfront : ∃ c ∈ front, ∀ b ∈ es.filterMap g, score b ≤ score c
    · obtain ⟨c, hc, hmax⟩ := hfront
      rw [head?_of_front ⟨c, hc, hmax⟩,
        head?_of_front ⟨c, hc, fun b hb => hmax b (hlist.mem_iff.mp hb)⟩]
    · push Not at hfront
      have hfront' : ∀ c ∈ front, ∃ b ∈ es'.filterMap g, score c < score b := fun c hc => by
        obtain ⟨b, hb, hlt⟩ := hfront c hc
        exact ⟨b, hlist.mem_iff.mpr hb, hlt⟩
      have hnil : (sortBy score (front ++ es'.filterMap g)).head? = none ↔
          (sortBy score (front ++ es.filterMap g)).head? = none := by
        rw [List.head?_eq_none_iff, List.head?_eq_none_iff, sortBy_eq_nil, sortBy_eq_nil,
          ← List.length_eq_zero_iff, ← List.length_eq_zero_iff, (hlist.append_left front).length_eq]
      cases hhead : (sortBy score (front ++ es.filterMap g)).head? with
      | none => rw [hnil.mpr hhead]
      | some a =>
          cases hhead' : (sortBy score (front ++ es'.filterMap g)).head? with
          | none =>
              rw [hnil.mp hhead'] at hhead
              exact absurd hhead (by simp)
          | some a' =>
              exact hbest a' a ((isBest_of_head hhead' hfront').perm hlist)
                (isBest_of_head hhead hfront)

end StableSort
