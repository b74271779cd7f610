import Mathlib.Data.List.DropRight
import Mathlib.Data.List.Infix
import Mathlib.Tactic.Common

/-!
# Leftmost lazy matches

A pattern of two markers with as little as possible between them matches from the first occurrence
of the first marker to the first occurrence of the second one after it; if there is no second marker
after the first occurrence of the first, there is none after a later one.  So the search is two
splits at a marker, and this file says what a split finds.
-/

namespace LazyMatches

variable {α : Type*} {p l x y z : List α}

/-! ## Markers -/

/-- A marker lies on one side of what is no part of it. -/
lemma infix_of_append_cons_of_notMem {c : α} (h : p <:+: x ++ c :: y) (hc : c ∉ p) :
    p <:+: x ∨ p <:+: y := by
  obtain ⟨s, t, hst⟩ := h
  rw [List.append_assoc] at hst
  rcases List.append_eq_append_iff.mp hst with ⟨z, hz, heq⟩ | ⟨z, hz, heq⟩
  · rcases List.append_eq_append_iff.mp heq with ⟨z', hz', -⟩ | ⟨z', hz', heq'⟩
    · exact Or.inl ⟨s, z', by rw [hz, hz', List.append_assoc]⟩
    · cases z' with
      | nil =>
        rw [List.append_nil] at hz'
        exact Or.inl ⟨s, [], by rw [hz, hz', List.append_nil]⟩
      | cons d z' =>
        obtain rfl := (List.cons.inj heq').1
        rw [hz'] at hc
        exact absurd (List.mem_append_right z List.mem_cons_self) hc
  · cases z with
    | nil =>
      cases p with
      | nil => exact Or.inl List.nil_infix
      | cons d p =>
        obtain rfl := (List.cons.inj heq).1
        exact absurd List.mem_cons_self hc
    | cons d z =>
      have hy := (List.cons.inj heq).2
      exact Or.inr ⟨z, t, by rw [List.append_assoc]; exact hy.symm⟩

lemma infix_dropWhile {q : α → Bool} (h : p <:+: l) (hq : ∀ a ∈ p, q a = false) :
    p <:+: l.dropWhile q := by
  induction l with
  | nil => exact h
  | cons a l ih =>
    by_cases ha : q a = true
    · have hnot : a ∉ p := fun hmem => by
        rw [hq a hmem] at ha
        cases ha
      rw [List.dropWhile_cons_of_pos ha]
      rcases @infix_of_append_cons_of_notMem _ p [] l a h hnot with hnil | htail
      · rw [List.infix_nil.mp hnil]
        exact List.nil_infix
      · exact ih htail
    · rw [List.dropWhile_cons_of_neg ha]
      exact h

variable [DecidableEq α]

/-- What stands before and after the first occurrence of a marker. -/
def splitInfix (p : List α) : List α → Option (List α × List α)
  | [] => if p = [] then some ([], []) else none
  | a :: l =>
    if p <+: a :: l then some ([], (a :: l).drop p.length)
    else (splitInfix p l).map fun r => (a :: r.1, r.2)

/-- The first text that starts with `a` and ends with the next `b`. -/
def enclosed (a b : α) (l : List α) : Option (List α) := do
  let (_, rest) ← splitInfix [a] l
  let (body, _) ← splitInfix [b] rest
  return a :: (body ++ [b])

lemma eq_of_splitInfix {r : List α × List α} (h : splitInfix p l = some r) :
    l = r.1 ++ (p ++ r.2) := by
  induction l generalizing r with
  | nil =>
    rw [splitInfix] at h
    split_ifs at h with hp
    obtain rfl := Option.some.inj h
    rw [hp]
    rfl
  | cons a l ih =>
    rw [splitInfix] at h
    split_ifs at h with hp
    · obtain rfl := Option.some.inj h
      obtain ⟨s, hs⟩ := hp
      rw [← hs, List.drop_left]
      rfl
    · obtain ⟨r', hr', rfl⟩ := Option.map_eq_some_iff.mp h
      rw [ih hr']
      rfl

lemma splitInfix_of_isPrefix (h : p <+: l) : splitInfix p l = some ([], l.drop p.length) := by
  cases l with
  | nil =>
    rw [List.prefix_nil.mp h]
    rfl
  | cons a l => exact if_pos h

lemma suffix_of_splitInfix {r : List α × List α} (h : splitInfix p (x ++ (p ++ y)) = some r) :
    y <:+ r.2 := by
  induction x generalizing r with
  | nil =>
    rw [List.nil_append, splitInfix_of_isPrefix ⟨y, rfl⟩, List.drop_left] at h
    obtain rfl := Option.some.inj h
    exact List.suffix_rfl
  | cons a x ih =>
    by_cases hp : p <+: a :: x ++ (p ++ y)
    · rw [splitInfix_of_isPrefix hp] at h
      obtain rfl := Option.some.inj h
      refine List.suffix_of_suffix_length_le (List.suffix_append_of_suffix (List.suffix_append p y))
        (List.drop_suffix p.length (a :: x ++ (p ++ y))) ?_
      rw [List.length_drop, List.length_append, List.length_append]
      omega
    · rw [List.cons_append] at hp h
      rw [splitInfix, if_neg hp] at h
      obtain ⟨r', hr', rfl⟩ := Option.map_eq_some_iff.mp h
      have hsuffix := ih hr'
      exact hsuffix

lemma exists_splitInfix (h : p <:+: l) : ∃ r, splitInfix p l = some r := by
  induction l with
  | nil => exact ⟨_, if_pos (List.infix_nil.mp h)⟩
  | cons a l ih =>
    by_cases hp : p <+: a :: l
    · exact ⟨_, if_pos hp⟩
    · obtain ⟨r, hr⟩ := ih ((List.infix_cons_iff.mp h).resolve_left hp)
      refine ⟨(a :: r.1, r.2), ?_⟩
      rw [splitInfix, if_neg hp, hr]
      rfl

/-- What follows does not change where the marker is found. -/
lemma splitInfix_append {r : List α × List α} (h : splitInfix p l = some r) (z : List α) :
    splitInfix p (l ++ z) = some (r.1, r.2 ++ z) := by
  induction l generalizing r with
  | nil =>
    rw [splitInfix] at h
    split_ifs at h with hp
    obtain rfl := Option.some.inj h
    subst hp
    cases z with
    | nil => rfl
    | cons a z => exact if_pos (List.nil_prefix)
  | cons a l ih =>
    have heq := eq_of_splitInfix h
    rw [List.cons_append, splitInfix]
    rw [splitInfix] at h
    split_ifs at h with hp
    · obtain rfl := Option.some.inj h
      have hlong : p <+: a :: (l ++ z) := hp.trans ⟨z, rfl⟩
      rw [if_pos hlong, ← List.cons_append, List.drop_append_of_le_length hp.length_le]
    · obtain ⟨r', hr', rfl⟩ := Option.map_eq_some_iff.mp h
      have hnot : ¬p <+: a :: (l ++ z) := by
        intro hlong
        have hlen := congrArg List.length heq
        rw [List.length_append, List.length_append] at hlen
        rw [← List.cons_append] at hlong
        exact hp (List.prefix_of_prefix_length_le hlong ⟨z, rfl⟩ (by omega))
      rw [if_neg hnot, ih hr']
      rfl

/-- Where the marker begins nowhere before, it is found. -/
lemma splitInfix_eq (h : ¬p <:+: x ++ p.dropLast) (hp : p ≠ []) :
    splitInfix p (x ++ (p ++ y)) = some (x, y) := by
  induction x with
  | nil =>
    rw [List.nil_append, splitInfix_of_isPrefix ⟨y, rfl⟩, List.drop_left]
  | cons a x ih =>
    have hnot : ¬p <+: a :: (x ++ (p ++ y)) := by
      intro hpre
      refine h (List.IsPrefix.isInfix (List.prefix_of_prefix_length_le hpre ?_ ?_))
      · refine ⟨[p.getLast hp] ++ y, ?_⟩
        rw [List.cons_append, List.cons_append, List.append_assoc, ← List.append_assoc p.dropLast,
          List.dropLast_append_getLast hp]
      · rw [List.length_append, List.length_dropLast, List.length_cons]
        omega
    rw [List.cons_append, splitInfix, if_neg hnot,
      ih fun hinside => h (hinside.trans (List.suffix_cons a _).isInfix)]
    rfl

lemma splitInfix_singleton {b : α} (h : b ∉ x) : splitInfix [b] (x ++ b :: y) = some (x, y) := by
  refine splitInfix_eq (fun hinside => h ?_) (List.cons_ne_nil b [])
  rw [List.dropLast_singleton, List.append_nil] at hinside
  exact hinside.subset List.mem_cons_self

/-! ## Enclosed texts -/

variable {a b : α}

/-- The first enclosed text ends at the next closing character. -/
lemma enclosed_of_notMem (ha : a ∉ x) (hb : b ∉ y) :
    enclosed a b (x ++ a :: (y ++ b :: z)) = some (a :: (y ++ [b])) := by
  rw [enclosed, splitInfix_singleton ha]
  show (splitInfix [b] (y ++ b :: z)).bind _ = _
  rw [splitInfix_singleton hb]
  rfl

/-- A closing character inside cuts the enclosed text short. -/
lemma enclosed_of_mem (ha : a ∉ x) (hb : b ∈ y) :
    ∃ l r, y = l ++ b :: r ∧ enclosed a b (x ++ a :: (y ++ b :: z)) = some (a :: (l ++ [b])) := by
  obtain ⟨l, r, rfl, hl⟩ := List.eq_append_cons_of_mem hb
  refine ⟨l, r, rfl, ?_⟩
  rw [List.append_assoc, List.cons_append]
  exact enclosed_of_notMem ha hl

lemma infix_of_enclosed {s : List α} (h : enclosed a b l = some s) : s <:+: l := by
  obtain ⟨r, hr, h⟩ := Option.bind_eq_some_iff.mp h
  obtain ⟨r', hr', h⟩ := Option.bind_eq_some_iff.mp h
  obtain rfl := Option.some.inj h
  refine ⟨r.1, r'.2, ?_⟩
  rw [eq_of_splitInfix hr, eq_of_splitInfix hr']
  simp

end LazyMatches
