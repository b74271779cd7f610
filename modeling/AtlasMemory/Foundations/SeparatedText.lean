import Mathlib.Data.Int.Notation
import Mathlib.Data.List.Basic
import Mathlib.Logic.Function.Basic
import Mathlib.Tactic.Common

/-!
# Texts joined by separators

When a text that was joined by separators determines its parts.  A part is determined if the number
of separators in it is known, as that of a printed number is.  Two arbitrary parts joined by a
doubled separator are determined up to the separators that are read at another place.
-/

namespace SeparatedText

/-! ## Joined texts -/

/-- The last part of a joined text is determined by its number of separators. -/
lemma append_cons_inj_of_count {α : Type*} [DecidableEq α] {c : α} {a a' b b' : List α}
    (h : a ++ c :: b = a' ++ c :: b') (hcount : b.count c = b'.count c) : a = a' ∧ b = b' := by
  have hshort : ∀ {x x' y y' : List α}, (∃ z, x' = x ++ z ∧ c :: y = z ++ c :: y') →
      y.count c = y'.count c → x = x' ∧ y = y' := by
    rintro x x' y y' ⟨z, rfl, hy⟩ hcount
    cases z with
    | nil => exact ⟨(List.append_nil x).symm, (List.cons.inj hy).2⟩
    | cons d z =>
        obtain ⟨rfl, rfl⟩ := List.cons.inj hy
        change (z ++ c :: y').count c = y'.count c at hcount
        rw [List.count_append, List.count_cons_self] at hcount
        omega
  rcases List.append_eq_append_iff.mp h with hlong | hlong
  · exact hshort hlong hcount
  · obtain ⟨ha, hb⟩ := hshort hlong hcount.symm
    exact ⟨ha.symm, hb.symm⟩

/-- The first part of a joined text is determined if it has no separator. -/
lemma append_cons_inj_of_notMem {α : Type*} [DecidableEq α] {c : α} {a a' b b' : List α}
    (h : a ++ c :: b = a' ++ c :: b') (ha : c ∉ a) (ha' : c ∉ a') : a = a' ∧ b = b' := by
  refine append_cons_inj_of_count h ?_
  have hcount := congrArg (List.count c) h
  rw [List.count_append, List.count_append, List.count_cons_self, List.count_cons_self,
    List.count_eq_zero.mpr ha, List.count_eq_zero.mpr ha'] at hcount
  omega

/-- The last part of a joined text is determined if it has no separator. -/
lemma append_cons_inj_of_notMem_tail {α : Type*} [DecidableEq α] {c : α} {a a' b b' : List α}
    (h : a ++ c :: b = a' ++ c :: b') (hb : c ∉ b) (hb' : c ∉ b') : a = a' ∧ b = b' := by
  refine append_cons_inj_of_count h ?_
  rw [List.count_eq_zero.mpr hb, List.count_eq_zero.mpr hb']

/-- A last part without a separator lies within the part after any separator. -/
lemma infix_of_append_cons {α : Type*} {c : α} {a a' b b' : List α}
    (h : a ++ c :: b = a' ++ c :: b') (hb' : c ∉ b') : b' <:+: b := by
  rcases List.append_eq_append_iff.mp h with ⟨z, -, hz⟩ | ⟨z, -, hz⟩
  · cases z with
    | nil =>
        have heq := (List.cons.inj hz).2
        subst heq
        exact List.infix_rfl
    | cons d z =>
        rw [(List.cons.inj hz).2]
        exact ⟨z ++ [c], [], by simp⟩
  · cases z with
    | nil =>
        have heq := (List.cons.inj hz).2
        subst heq
        exact List.infix_rfl
    | cons d z =>
        rw [(List.cons.inj hz).2] at hb'
        exact absurd (List.mem_append_right z List.mem_cons_self) hb'

/-- Two parts joined by a doubled separator are read with the first part longer: by the separator
that stands at the beginning of the second part, or by a doubled separator inside it. -/
def Shifted {α : Type*} (c : α) (a b a' b' : List α) : Prop :=
  a' = a ++ [c] ∧ b = c :: b' ∨ ∃ x, a' = a ++ c :: c :: x ∧ b = x ++ c :: c :: b'

lemma shifted_of_append {α : Type*} {c : α} {a b a' b' z : List α} (ha : a' = a ++ z)
    (hb : c :: c :: b = z ++ c :: c :: b') : a = a' ∧ b = b' ∨ Shifted c a b a' b' := by
  match z, hb with
  | [], hb =>
      left
      exact ⟨by rw [ha, List.append_nil], (List.cons.inj (List.cons.inj hb).2).2⟩
  | [d], hb =>
      obtain ⟨rfl, hrest⟩ := List.cons.inj hb
      exact Or.inr (Or.inl ⟨ha, (List.cons.inj hrest).2⟩)
  | d :: d' :: x, hb =>
      obtain ⟨rfl, hrest⟩ := List.cons.inj hb
      obtain ⟨rfl, hrest⟩ := List.cons.inj hrest
      exact Or.inr (Or.inr ⟨x, ha, (List.cons.inj hrest).2⟩)

lemma append_of_shifted {α : Type*} {c : α} {a b a' b' : List α} (h : Shifted c a b a' b') :
    a ++ c :: c :: b = a' ++ c :: c :: b' := by
  rcases h with ⟨rfl, rfl⟩ | ⟨x, rfl, rfl⟩
  · simp
  · simp

/-- Two parts joined by a doubled separator are determined up to a shift. -/
theorem append_cons_cons_inj {α : Type*} {c : α} {a b a' b' : List α} :
    a ++ c :: c :: b = a' ++ c :: c :: b' ↔
      a = a' ∧ b = b' ∨ Shifted c a b a' b' ∨ Shifted c a' b' a b := by
  constructor
  · intro h
    rcases List.append_eq_append_iff.mp h with ⟨z, ha, hb⟩ | ⟨z, ha, hb⟩
    · rcases shifted_of_append ha hb with hsame | hshifted
      · exact Or.inl hsame
      · exact Or.inr (Or.inl hshifted)
    · rcases shifted_of_append ha hb with ⟨ha, hb⟩ | hshifted
      · exact Or.inl ⟨ha.symm, hb.symm⟩
      · exact Or.inr (Or.inr hshifted)
  · rintro (⟨rfl, rfl⟩ | hshifted | hshifted)
    · rfl
    · exact append_of_shifted hshifted
    · exact (append_of_shifted hshifted).symm

/-- The first parts of two readings that are shifted differ. -/
lemma ne_of_shifted {α : Type*} {c : α} {a b a' b' : List α} (h : Shifted c a b a' b') :
    a ≠ a' := by
  rintro rfl
  rcases h with ⟨h, -⟩ | ⟨x, h, -⟩
  · simp at h
  · simp at h

/-! ## Separators of two different items

A separator of two different items cannot overlap with itself, so that parts in which it does not
occur are read back from the joined text. -/

section Pairs

variable {α : Type*} {a b : α}

lemma append_pair_inj (hab : a ≠ b) {x x' y y' : List α}
    (h : x ++ a :: b :: y = x' ++ a :: b :: y') (hx : ¬ [a, b] <:+: x) (hx' : ¬ [a, b] <:+: x') :
    x = x' ∧ y = y' := by
  have hshort : ∀ {x x' y y' : List α}, (∃ z, x' = x ++ z ∧ a :: b :: y = z ++ a :: b :: y') →
      ¬ [a, b] <:+: x' → x = x' ∧ y = y' := by
    rintro x x' y y' ⟨z, rfl, hy⟩ hx'
    match z, hy with
    | [], hy => exact ⟨(List.append_nil x).symm, (List.cons.inj (List.cons.inj hy).2).2⟩
    | [c], hy =>
        have hb := (List.cons.inj (List.cons.inj hy).2).1
        exact absurd hb.symm hab
    | c :: d :: w, hy =>
        obtain ⟨rfl, hrest⟩ := List.cons.inj hy
        obtain ⟨rfl, -⟩ := List.cons.inj hrest
        exact absurd ⟨x, w, by simp⟩ hx'
  rcases List.append_eq_append_iff.mp h with hlong | hlong
  · exact hshort hlong hx'
  · obtain ⟨hx, hy⟩ := hshort hlong hx
    exact ⟨hx.symm, hy.symm⟩

/-- Parts without the separator are determined by the joined text, if there is a part at all. -/
theorem intercalate_pair_inj (hab : a ≠ b) {l l' : List (List α)} (hl : l ≠ []) (hl' : l' ≠ [])
    (havoid : ∀ x ∈ l, ¬ [a, b] <:+: x) (havoid' : ∀ x ∈ l', ¬ [a, b] <:+: x)
    (h : [a, b].intercalate l = [a, b].intercalate l') : l = l' := by
  -- one part has no separator in it, and a joined text of more has one
  have hone : ∀ {x y z : List α} {zs : List (List α)}, ¬ [a, b] <:+: x →
      x ≠ [a, b].intercalate (y :: z :: zs) := by
    rintro x y z zs hx rfl
    rw [List.intercalate_cons_cons] at hx
    exact hx ⟨y, [a, b].intercalate (z :: zs), rfl⟩
  induction l generalizing l' with
  | nil => exact absurd rfl hl
  | cons x xs ih =>
      obtain ⟨x', xs', rfl⟩ := List.exists_cons_of_ne_nil hl'
      have hx := havoid x List.mem_cons_self
      have hx' := havoid' x' List.mem_cons_self
      cases xs with
      | nil =>
          rw [List.intercalate_singleton] at h
          cases xs' with
          | nil => rw [h, List.intercalate_singleton]
          | cons y' ys' => exact absurd h (hone hx)
      | cons y ys =>
          cases xs' with
          | nil =>
              rw [List.intercalate_singleton] at h
              exact absurd h.symm (hone hx')
          | cons y' ys' =>
              rw [List.intercalate_cons_cons, List.intercalate_cons_cons, List.append_assoc,
                List.append_assoc] at h
              obtain ⟨rfl, hrest⟩ := append_pair_inj hab h hx hx'
              have htail := ih (List.cons_ne_nil y ys) (List.cons_ne_nil y' ys')
                (fun z hz => havoid z (List.mem_cons_of_mem _ hz))
                (fun z hz => havoid' z (List.mem_cons_of_mem _ hz)) hrest
              rw [htail]

end Pairs

/-! ## Parts of a text -/

lemma eq_false_of_mem_splitOnP {α : Type*} {p : α → Bool} {l w : List α}
    (hw : w ∈ l.splitOnP p) {x : α} (hx : x ∈ w) : p x = false := by
  induction l generalizing w with
  | nil =>
      rw [List.splitOnP_nil, List.mem_singleton] at hw
      rw [hw] at hx
      cases hx
  | cons a l ih =>
      rw [List.splitOnP_cons_eq_if_modifyHead] at hw
      split_ifs at hw with ha
      · rcases List.mem_cons.mp hw with rfl | hw
        · cases hx
        · exact ih hw hx
      · obtain ⟨v, vs, hv⟩ := List.exists_cons_of_ne_nil (List.splitOnP_ne_nil p l)
        rw [hv] at hw ih
        rcases List.mem_cons.mp hw with rfl | hw
        · rcases List.mem_cons.mp hx with rfl | hx
          · rwa [Bool.not_eq_true] at ha
          · exact ih List.mem_cons_self hx
        · exact ih (List.mem_cons_of_mem v hw) hx

lemma infix_of_mem_splitOnP {α : Type*} {p : α → Bool} {l w : List α} (hw : w ∈ l.splitOnP p) :
    w <:+: l := by
  have hparts : (∀ v vs, l.splitOnP p = v :: vs → v <+: l) ∧ ∀ w ∈ l.splitOnP p, w <:+: l := by
    clear hw
    induction l with
    | nil =>
        rw [List.splitOnP_nil]
        refine ⟨fun v vs h => ?_, fun w hw => ?_⟩
        · obtain ⟨rfl, -⟩ := List.cons.inj h
          exact List.nil_prefix
        · obtain rfl := List.mem_singleton.mp hw
          exact List.nil_infix
    | cons a l ih =>
        obtain ⟨hfirst, hall⟩ := ih
        have hcons : ∀ w, w <:+: l → w <:+: a :: l := fun w h =>
          h.trans (List.suffix_cons a l).isInfix
        rw [List.splitOnP_cons_eq_if_modifyHead]
        split_ifs with ha
        · refine ⟨fun v vs h => ?_, List.forall_mem_cons.mpr ⟨List.nil_infix, ?_⟩⟩
          · obtain ⟨rfl, -⟩ := List.cons.inj h
            exact List.nil_prefix
          · exact fun w hw => hcons w (hall w hw)
        · obtain ⟨v, vs, hv⟩ := List.exists_cons_of_ne_nil (List.splitOnP_ne_nil p l)
          have hpre : a :: v <+: a :: l := List.cons_prefix_cons.mpr ⟨rfl, hfirst v vs hv⟩
          rw [hv, List.modifyHead_cons]
          refine ⟨fun u us h => ?_, List.forall_mem_cons.mpr ⟨hpre.isInfix, fun w hw => ?_⟩⟩
          · rwa [← (List.cons.inj h).1]
          · exact hcons w (hall w (hv ▸ List.mem_cons_of_mem v hw))
  exact hparts.2 w hw

/-- What is in a joined text is in the separator or in a part. -/
lemma mem_of_mem_intercalate {α : Type*} {sep : List α} {l : List (List α)} {x : α}
    (h : x ∈ sep.intercalate l) : x ∈ sep ∨ ∃ w ∈ l, x ∈ w := by
  induction l with
  | nil => cases h
  | cons v vs ih =>
      cases vs with
      | nil =>
          rw [List.intercalate_singleton] at h
          exact Or.inr ⟨v, List.mem_cons_self, h⟩
      | cons w ws =>
          rw [List.intercalate_cons_cons, List.append_assoc, List.mem_append, List.mem_append] at h
          rcases h with h | h | h
          · exact Or.inr ⟨v, List.mem_cons_self, h⟩
          · exact Or.inl h
          · rcases ih h with h | ⟨u, hu, hx⟩
            · exact Or.inl h
            · exact Or.inr ⟨u, List.mem_cons_of_mem v hu, hx⟩

/-! ## Printed numbers -/

lemma isDigit_of_mem_repr {n : ℕ} {c : Char} (h : c ∈ n.repr.toList) : c.isDigit = true := by
  rw [Nat.repr_eq_ofList_toDigits, String.toList_ofList] at h
  exact Nat.isDigit_of_mem_toDigits (by decide) (by decide) h

lemma repr_injective : Function.Injective Nat.repr := by
  intro m n h
  rw [Nat.repr_eq_ofList_toDigits, Nat.repr_eq_ofList_toDigits] at h
  have hdigits := String.ofList_injective h
  rw [← Nat.ofDigitChars_ten_toDigits (n := m), hdigits, Nat.ofDigitChars_ten_toDigits]

lemma toList_toString (n : ℤ) : (toString n).toList =
    if 0 ≤ n then n.toNat.repr.toList else '-' :: (-n).toNat.repr.toList := by
  rw [Int.toString_eq_repr, Int.repr_eq_if]
  split_ifs
  · rfl
  · rw [String.toList_append]
    rfl

lemma notMem_toString {c : Char} (hdigit : c.isDigit = false) (hminus : c ≠ '-') (n : ℤ) :
    c ∉ (toString n).toList := by
  have hrepr : ∀ m : ℕ, c ∉ m.repr.toList := fun m h => by
    rw [isDigit_of_mem_repr h] at hdigit
    exact absurd hdigit (by simp)
  rw [toList_toString]
  split_ifs
  · exact hrepr _
  · intro h
    rcases List.mem_cons.mp h with h | h
    · exact hminus h
    · exact hrepr _ h

lemma toString_injective : Function.Injective (toString : ℤ → String) := by
  intro m n h
  have hlist := congrArg String.toList h
  rw [toList_toString, toList_toString] at hlist
  -- a minus sign is no digit
  have hsign : ∀ {k : ℕ} {cs : List Char}, k.repr.toList ≠ '-' :: cs := fun heq =>
    absurd (isDigit_of_mem_repr (heq ▸ List.mem_cons_self)) (by decide)
  split_ifs at hlist with hm hn hn
  · have hnat := repr_injective (String.toList_inj.mp hlist)
    omega
  · exact absurd hlist hsign
  · exact absurd hlist.symm hsign
  · have hnat := repr_injective (String.toList_inj.mp (List.cons.inj hlist).2)
    omega

end SeparatedText
