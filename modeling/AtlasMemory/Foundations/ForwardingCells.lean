import Mathlib.Data.List.Chain
import Mathlib.Data.List.Nodup
import Mathlib.Logic.Relation

/-!
# Forwarding cells

A store of cells, each of them absent, live, or forwarded to another one.  A step makes one cell live,
and may forward others to it; what was forwarded may become live again.  Then every forwarded cell
leads to a live one in finitely many steps and without a cycle: a cell is stamped with the step that
forwarded it, the target of a step is live when the stamp is given, and it can only be forwarded
later, with a higher stamp.
-/

/-- A cell: absent, live, or forwarded, with its target if it has one. -/
inductive ForwardingCell (α : Type*)
  | absent
  | live
  | forwarded (target : Option α)
  deriving DecidableEq

namespace ForwardingCell

variable {α : Type*}

/-- Nothing changes, or one cell becomes live, and each other one stays, becomes live, or is
forwarded to it. -/
def Step (cells cells' : α → ForwardingCell α) : Prop :=
  cells' = cells ∨ ∃ new, cells' new = .live ∧ ∀ k, k ≠ new →
    cells' k = cells k ∨ cells' k = .live ∨ cells' k = .forwarded (some new)

/-- From the first cell to the second. -/
def Forwards (cells : α → ForwardingCell α) (k k' : α) : Prop := cells k = .forwarded (some k')

/-- The way from the cell ends in a live cell and passes no cell twice. -/
def ChainEnds (cells : α → ForwardingCell α) (k : α) : Prop :=
  ∃ path : List α, path.head? = some k ∧ path.Nodup ∧ path.IsChain (Forwards cells) ∧
    ∃ last, path.getLast? = some last ∧ cells last = .live

/-- Each forwarded cell has a target that is live or has a higher stamp. -/
structure Stamped (stamp : α → ℕ) (bound : ℕ) (cells : α → ForwardingCell α) : Prop where
  le : ∀ k, stamp k ≤ bound
  target : ∀ k o, cells k = .forwarded o → ∃ k', o = some k' ∧
    (cells k' = .live ∨ ∃ o', cells k' = .forwarded o' ∧ stamp k < stamp k')

lemma stamped_of_forall {cells : α → ForwardingCell α} (h : ∀ k o, cells k ≠ .forwarded o) :
    Stamped (fun _ => 0) 0 cells where
  le _ := le_rfl
  target k o hk := absurd hk (h k o)

/-- **Step rule.**  What a step forwards gets a stamp of its own. -/
lemma exists_stamped_of_step {cells cells' : α → ForwardingCell α} {stamp : α → ℕ} {bound : ℕ}
    (h : Stamped stamp bound cells) (hstep : Step cells cells') :
    ∃ stamp', Stamped stamp' (bound + 1) cells' := by
  classical
  rcases hstep with rfl | ⟨new, hnew, hother⟩
  · exact ⟨stamp, fun k => (h.le k).trans (Nat.le_succ _), h.target⟩
  have hlt : ∀ k, stamp k < bound + 1 := fun k => Nat.lt_succ_of_le (h.le k)
  refine ⟨fun k => if cells' k = .forwarded (some new) then bound + 1 else stamp k, ?_, ?_⟩
  · intro k
    split_ifs
    · exact le_rfl
    · exact (hlt k).le
  · intro k o hk
    by_cases ho : o = some new
    · exact ⟨new, ho, Or.inl hnew⟩
    have hkey : k ≠ new := by
      rintro rfl
      rw [hnew] at hk
      cases hk
    -- a cell that points elsewhere was forwarded before, and keeps its stamp
    have hold : cells k = .forwarded o := by
      rcases hother k hkey with hsame | hlive | hfwd
      · exact hsame.symm.trans hk
      · rw [hlive] at hk
        cases hk
      · rw [hfwd] at hk
        cases hk
        exact absurd rfl ho
    have hstays : ¬cells' k = .forwarded (some new) := by
      rw [hk]
      intro heq
      cases heq
      exact ho rfl
    obtain ⟨k', rfl, htarget⟩ := h.target k o hold
    have hkey' : k' ≠ new := fun heq => ho (congrArg some heq)
    refine ⟨k', rfl, ?_⟩
    rw [if_neg hstays]
    rcases hother k' hkey' with hsame | hlive | hfwd
    · rcases htarget with hlive | ⟨o', hfwd, hstamp⟩
      · exact Or.inl (hsame.trans hlive)
      · refine Or.inr ⟨o', hsame.trans hfwd, ?_⟩
        split_ifs
        · exact hlt k
        · exact hstamp
    · exact Or.inl hlive
    · refine Or.inr ⟨some new, hfwd, ?_⟩
      rw [if_pos hfwd]
      exact hlt k

/-- **Run rule.** -/
lemma exists_stamped_of_run {start cells : α → ForwardingCell α}
    (hstart : ∀ k o, start k ≠ .forwarded o) (hrun : Relation.ReflTransGen Step start cells) :
    ∃ stamp bound, Stamped stamp bound cells := by
  induction hrun with
  | refl => exact ⟨_, _, stamped_of_forall hstart⟩
  | tail _ hstep ih =>
      obtain ⟨stamp, bound, h⟩ := ih
      obtain ⟨stamp', h'⟩ := exists_stamped_of_step h hstep
      exact ⟨stamp', bound + 1, h'⟩

lemma exists_path {cells : α → ForwardingCell α} {stamp : α → ℕ} {bound : ℕ}
    (h : Stamped stamp bound cells) (n : ℕ) : ∀ (k : α) (o : Option α), bound - stamp k = n →
    cells k = .forwarded o → ∃ path : List α, path.head? = some k ∧ path.Nodup ∧
      path.IsChain (Forwards cells) ∧ (∃ last, path.getLast? = some last ∧ cells last = .live) ∧
      ∀ x ∈ path, cells x = .live ∨ stamp k ≤ stamp x := by
  induction n using Nat.strong_induction_on with
  | _ n ih =>
      intro k o hn hk
      obtain ⟨k', rfl, hlive | ⟨o', hfwd, hstamp⟩⟩ := h.target k o hk
      · have hne : k ≠ k' := by
          rintro rfl
          rw [hlive] at hk
          cases hk
        refine ⟨[k, k'], rfl, ?_, ?_, ⟨k', rfl, hlive⟩, ?_⟩
        · simpa using hne
        · simpa [Forwards] using hk
        · intro x hx
          rcases List.mem_cons.mp hx with rfl | hx
          · exact Or.inr le_rfl
          · rw [List.mem_singleton.mp hx]
            exact Or.inl hlive
      · have hle := h.le k'
        obtain ⟨path, hhead, hnodup, hchain, ⟨last, hlast, hend⟩, hstamps⟩ :=
          ih (bound - stamp k') (by omega) k' o' rfl hfwd
        obtain ⟨rest, rfl⟩ := List.head?_eq_some_iff.mp hhead
        have hbeyond : ∀ x ∈ k' :: rest, cells x = .live ∨ stamp k < stamp x := fun x hx =>
          (hstamps x hx).imp_right fun hx => hstamp.trans_le hx
        refine ⟨k :: k' :: rest, rfl, ?_, ?_, ⟨last, ?_, hend⟩, ?_⟩
        · refine List.nodup_cons.mpr ⟨fun hmem => ?_, hnodup⟩
          rcases hbeyond k hmem with hlive | hlt
          · rw [hlive] at hk
            cases hk
          · exact lt_irrefl _ hlt
        · exact List.isChain_cons_cons.mpr ⟨hk, hchain⟩
        · rw [List.getLast?_cons_cons]
          exact hlast
        · intro x hx
          rcases List.mem_cons.mp hx with rfl | hx
          · exact Or.inr le_rfl
          · exact (hbeyond x hx).imp_right le_of_lt

/-- **Chains end.**  Along a run from a store without forwarded cells, the way from each forwarded
cell ends in a live one. -/
theorem chainEnds_of_run {start cells : α → ForwardingCell α}
    (hstart : ∀ k o, start k ≠ .forwarded o) (hrun : Relation.ReflTransGen Step start cells)
    {k : α} {o : Option α} (hk : cells k = .forwarded o) : ChainEnds cells k := by
  obtain ⟨stamp, bound, h⟩ := exists_stamped_of_run hstart hrun
  obtain ⟨path, hhead, hnodup, hchain, hend, -⟩ := exists_path h _ k o rfl hk
  exact ⟨path, hhead, hnodup, hchain, hend⟩

/-- A way that leads to an absent cell does not end in a live one. -/
lemma not_chainEnds_of_absent {cells : α → ForwardingCell α} {k k' : α}
    (hk : cells k = .forwarded (some k')) (hk' : cells k' = .absent) : ¬ChainEnds cells k := by
  rintro ⟨path, hhead, -, hchain, last, hlast, hlive⟩
  obtain ⟨rest, rfl⟩ := List.head?_eq_some_iff.mp hhead
  cases rest with
  | nil =>
      obtain rfl : k = last := Option.some.inj hlast
      rw [hk] at hlive
      cases hlive
  | cons x rest =>
      obtain ⟨hfirst, hrest⟩ := List.isChain_cons_cons.mp hchain
      have hx : x = k' := by
        unfold Forwards at hfirst
        rw [hk] at hfirst
        cases hfirst
        rfl
      subst hx
      cases rest with
      | nil =>
          obtain rfl : x = last := Option.some.inj hlast
          rw [hk'] at hlive
          cases hlive
      | cons y rest =>
          have hsecond : cells x = .forwarded (some y) := (List.isChain_cons_cons.mp hrest).1
          rw [hk'] at hsecond
          cases hsecond

end ForwardingCell
