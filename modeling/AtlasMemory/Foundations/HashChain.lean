import Mathlib.Data.List.Basic
import Mathlib.Data.List.Induction
import Mathlib.Tactic.Common

/-!
# Chained records

A list of records in which every record names its predecessor: it carries the link `prev`, which
is to be the stamp of the record before it, and its own stamp `own`, which is to be a function
`stamp` of the record and of its link.  The first record names a fixed origin.

Appending a record that is linked to the tip keeps the chain, and rewriting all links and stamps
from the origin onwards (`relink`) makes a chain of anything and leaves a chain as it is.
-/

namespace HashChain

variable {ρ η : Type*} (prev own : ρ → η) (stamp : ρ → η → η)

/-- The records are linked from `origin` on, and each carries the stamp that its own contents and
its link determine. -/
def Chained : η → List ρ → Prop
  | _, [] => True
  | origin, r :: rs => prev r = origin ∧ stamp r (prev r) = own r ∧ Chained (own r) rs

/-- The stamp of the last record, or the origin. -/
def tip (origin : η) (l : List ρ) : η := (l.getLast?.map own).getD origin

/-- Rewrite every link and stamp, from `origin` on; `restamp r link own` puts them into `r`. -/
def relink (restamp : ρ → η → η → ρ) : η → List ρ → List ρ
  | _, [] => []
  | origin, r :: rs =>
    restamp r origin (stamp r origin) :: relink restamp (stamp r origin) rs

variable {prev own stamp}

@[simp] lemma tip_nil (origin : η) : tip own origin [] = origin := rfl

@[simp] lemma tip_cons (origin : η) (r : ρ) (rs : List ρ) :
    tip own origin (r :: rs) = tip own (own r) rs := by
  cases rs with
  | nil => rfl
  | cons r' rs => simp [tip, List.getLast?_cons]

@[simp] lemma tip_concat (origin : η) (l : List ρ) (r : ρ) :
    tip own origin (l ++ [r]) = own r := by
  simp [tip]

lemma chained_append {origin : η} {l l' : List ρ} :
    Chained prev own stamp origin (l ++ l') ↔
      Chained prev own stamp origin l ∧ Chained prev own stamp (tip own origin l) l' := by
  induction l generalizing origin with
  | nil => simp [Chained]
  | cons r rs ih =>
      rw [List.cons_append, Chained, Chained, ih, tip_cons]
      tauto

/-- **Append rule.** A record linked to the tip and stamped accordingly extends the chain. -/
lemma chained_concat {origin : η} {l : List ρ} {r : ρ} (hl : Chained prev own stamp origin l)
    (hprev : prev r = tip own origin l) (hstamp : stamp r (prev r) = own r) :
    Chained prev own stamp origin (l ++ [r]) :=
  chained_append.mpr ⟨hl, hprev, hstamp, trivial⟩

/-- Changing the records outside link, stamp and sealed contents does not matter. -/
lemma chained_map {f : ρ → ρ} (hprev : ∀ r, prev (f r) = prev r) (hown : ∀ r, own (f r) = own r)
    (hstamp : ∀ r x, stamp (f r) x = stamp r x) {origin : η} {l : List ρ} :
    Chained prev own stamp origin (l.map f) ↔ Chained prev own stamp origin l := by
  induction l generalizing origin with
  | nil => simp [Chained]
  | cons r rs ih => rw [List.map_cons, Chained, Chained, hprev, hstamp, hown, ih]

lemma tip_map {f : ρ → ρ} (hown : ∀ r, own (f r) = own r) (origin : η) (l : List ρ) :
    tip own origin (l.map f) = tip own origin l := by
  induction l generalizing origin with
  | nil => rfl
  | cons r rs ih => rw [List.map_cons, tip_cons, tip_cons, hown, ih]

/-- Every chained record carries the stamp of its contents. -/
lemma stamp_eq_of_mem {origin : η} {l : List ρ} (h : Chained prev own stamp origin l) {r : ρ}
    (hr : r ∈ l) : stamp r (prev r) = own r := by
  induction l generalizing origin with
  | nil => simp at hr
  | cons a as ih =>
      rcases List.mem_cons.mp hr with rfl | hr
      · exact h.2.1
      · exact ih h.2.2 hr

lemma forall_prev_of_chained {P : η → Prop} {origin : η} {l : List ρ}
    (h : Chained prev own stamp origin l) (horigin : P origin) (hstamp : ∀ r x, P (stamp r x)) :
    ∀ r ∈ l, P (prev r) := by
  induction l generalizing origin with
  | nil => exact fun r hr => absurd hr List.not_mem_nil
  | cons a as ih =>
      obtain ⟨hprev, hown, has⟩ := h
      refine List.forall_mem_cons.mpr ⟨hprev ▸ horigin, ih has ?_⟩
      rw [← hown]
      exact hstamp a (prev a)

/-- **Binding.** If a stamp determines a part of its record, and its link, then the tip and the
length of a chain determine that part of all records. -/
lemma map_eq_of_tip_eq {γ : Type*} {part : ρ → γ} {origin : η} {l l' : List ρ}
    (h : Chained prev own stamp origin l) (h' : Chained prev own stamp origin l')
    (hinj : ∀ r ∈ l, ∀ r' ∈ l', stamp r (prev r) = stamp r' (prev r') →
      part r = part r' ∧ prev r = prev r')
    (htip : tip own origin l = tip own origin l') (hlen : l.length = l'.length) :
    l.map part = l'.map part := by
  -- from the last record backwards
  induction l using List.reverseRecOn generalizing l' with
  | nil =>
      rw [List.length_nil, eq_comm, List.length_eq_zero_iff] at hlen
      rw [hlen]
  | append_singleton before r ih =>
      rcases List.eq_nil_or_concat' l' with rfl | ⟨before', r', rfl⟩
      · rw [List.length_append, List.length_singleton, List.length_nil] at hlen
        omega
      · obtain ⟨hbefore, hprev, hstamp, -⟩ := chained_append.mp h
        obtain ⟨hbefore', hprev', hstamp', -⟩ := chained_append.mp h'
        rw [tip_concat, tip_concat, ← hstamp, ← hstamp'] at htip
        obtain ⟨hpart, hlink⟩ := hinj r (List.mem_append_right _ (List.mem_singleton_self r)) r'
          (List.mem_append_right _ (List.mem_singleton_self r')) htip
        have hrest := ih hbefore hbefore'
          (fun a ha a' ha' => hinj a (List.mem_append_left _ ha) a' (List.mem_append_left _ ha'))
          (by rw [← hprev, ← hprev', hlink])
          (by rw [List.length_append, List.length_append] at hlen
              exact Nat.add_right_cancel hlen)
        rw [List.map_append, List.map_append, hrest, List.map_singleton, List.map_singleton, hpart]

/-! ## Rewriting a chain -/

section Relink

variable {restamp : ρ → η → η → ρ}

lemma chained_relink (hprev : ∀ r x y, prev (restamp r x y) = x)
    (hown : ∀ r x y, own (restamp r x y) = y)
    (hstamp : ∀ r x y z, stamp (restamp r x y) z = stamp r z) (origin : η) (l : List ρ) :
    Chained prev own stamp origin (relink stamp restamp origin l) := by
  induction l generalizing origin with
  | nil => trivial
  | cons r rs ih =>
      refine ⟨hprev _ _ _, ?_, ?_⟩
      · rw [hprev, hstamp, hown]
      · rw [hown]
        exact ih _

/-- Rewriting acts on a chain record by record, with the link and the stamp it had. -/
lemma relink_of_chained {origin : η} {l : List ρ} (h : Chained prev own stamp origin l) :
    relink stamp restamp origin l = l.map fun r => restamp r (prev r) (own r) := by
  induction l generalizing origin with
  | nil => rfl
  | cons r rs ih =>
      obtain ⟨hprev, hstamp, hrs⟩ := h
      have hown : stamp r origin = own r := hprev ▸ hstamp
      rw [relink, List.map_cons, hown, ih hrs, hprev]

/-- Rewriting changes nothing exactly on the chains whose records restamping leaves alone. -/
lemma relink_eq_self_iff (hprev : ∀ r x y, prev (restamp r x y) = x)
    (hown : ∀ r x y, own (restamp r x y) = y)
    (hstamp : ∀ r x y z, stamp (restamp r x y) z = stamp r z) {origin : η} {l : List ρ} :
    relink stamp restamp origin l = l ↔
      Chained prev own stamp origin l ∧ ∀ r ∈ l, restamp r (prev r) (own r) = r := by
  constructor
  · intro hself
    have hchained : Chained prev own stamp origin l := by
      have hrelinked := chained_relink hprev hown hstamp origin l
      rwa [hself] at hrelinked
    refine ⟨hchained, List.map_inj_left.mp ?_⟩
    rw [← relink_of_chained hchained, hself]
    exact (List.map_id l).symm
  · rintro ⟨hchained, hfixed⟩
    rw [relink_of_chained hchained]
    exact (List.map_congr_left hfixed).trans (List.map_id l)

/-- A record part that restamping leaves alone is the same after rewriting. -/
lemma map_relink {γ : Type*} {part : ρ → γ} (hpart : ∀ r x y, part (restamp r x y) = part r)
    (origin : η) (l : List ρ) : (relink stamp restamp origin l).map part = l.map part := by
  induction l generalizing origin with
  | nil => rfl
  | cons r rs ih => rw [relink, List.map_cons, List.map_cons, hpart, ih]

end Relink

end HashChain
