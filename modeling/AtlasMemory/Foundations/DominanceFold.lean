import Mathlib.Data.List.Basic
import Mathlib.Data.Set.Basic
import Mathlib.Tactic.Common

/-!
# Keeping the dominant value of a stream

A register holds at most one value; a delivered value replaces the held one exactly when a
relation `dom` says that it dominates it.  The relation is only assumed *connex* (of two values,
at least one dominates the other): neither transitivity nor antisymmetry is required.  A
last-writer-wins cell is the instance in which `dom` is a comparison of time stamps.

The question is when the register is a function of the *set* of deliveries: whether every order
and every duplication of the same deliveries leaves the same value.  For a linear order that is
clear.  `settles_iff` gives the exact answer for an arbitrary connex relation: there is a value
among the delivered ones and the initial one that no other delivered value dominates, and which
dominates the initial one.  Cycles of `dom` (which a comparison with a tolerance has) and ties
between different values are the two ways in which it fails.

Deliveries are events that may carry no value for the register at hand, so that one sequence of
messages drives many registers at once.
-/

namespace DominanceFold

variable {α ε : Type*} (dom : α → α → Bool)

/-! ## The register -/

/-- Deliver `m` to a register: an empty one takes it, an occupied one compares. -/
def keep : Option α → α → Option α
  | none, m => some m
  | some x, m => if dom m x then some m else some x

/-- Deliver an event, which may carry no value for this register. -/
def step (value : ε → Option α) (x : Option α) (e : ε) : Option α :=
  match value e with
  | none => x
  | some m => keep dom x m

def run (value : ε → Option α) (x : Option α) (es : List ε) : Option α :=
  es.foldl (step dom value) x

/-- A sequence that delivers every event of `D` at least once and no other event. -/
def Covers (D l : List ε) : Prop := ∀ e, e ∈ l ↔ e ∈ D

/-- Every covering sequence leaves the same value in the register. -/
def Settles (value : ε → Option α) (x : Option α) (D : List ε) : Prop :=
  ∀ l l', Covers D l → Covers D l' → run dom value x l = run dom value x l'

/-- Some value among the delivered ones and the initial one is dominated by no other delivered
value, and dominates the initial one. -/
def HasDominant (x : Option α) (M : List α) : Prop :=
  M = [] ∨ ∃ r, (r ∈ M ∨ x = some r) ∧ (∀ m ∈ M, m ≠ r → dom m r = false) ∧
    ∀ y, x = some y → y ≠ r → dom r y = true

lemma keep_eq_or (x : Option α) (m : α) : keep dom x m = x ∨ keep dom x m = some m := by
  cases x with
  | none => exact Or.inr rfl
  | some y =>
      by_cases h : dom m y = true
      · exact Or.inr (by simp [keep, h])
      · exact Or.inl (by simp [keep, h])

variable {dom} {value : ε → Option α} {x : Option α}

@[simp] lemma run_nil : run dom value x [] = x := rfl

@[simp] lemma run_cons (e : ε) (es : List ε) :
    run dom value x (e :: es) = run dom value (step dom value x e) es := rfl

lemma run_append (l l' : List ε) :
    run dom value x (l ++ l') = run dom value (run dom value x l) l' := by
  simp [run, List.foldl_append]

lemma step_of_none {e : ε} (h : value e = none) : step dom value x e = x := by
  simp [step, h]

lemma step_of_some {e : ε} {m : α} (h : value e = some m) :
    step dom value x e = keep dom x m := by
  simp [step, h]

/-- What the register holds was there at the start or was delivered. -/
lemma mem_of_run {y : α} {l : List ε} (h : run dom value x l = some y) :
    x = some y ∨ ∃ e ∈ l, value e = some y := by
  induction l generalizing x with
  | nil => exact Or.inl h
  | cons e es ih =>
      rcases ih h with hstep | ⟨e', he', hv⟩
      · cases hv : value e with
        | none => exact Or.inl (by rwa [step_of_none hv] at hstep)
        | some m =>
            rw [step_of_some hv] at hstep
            rcases keep_eq_or dom x m with hk | hk
            · exact Or.inl (hk ▸ hstep)
            · exact Or.inr ⟨e, List.mem_cons_self, by rw [hv, ← hk, hstep]⟩
      · exact Or.inr ⟨e', List.mem_cons_of_mem _ he', hv⟩

lemma isSome_run_of_mem {l : List ε} {e : ε} (he : e ∈ l) (hv : (value e).isSome) :
    (run dom value x l).isSome := by
  have hsome : ∀ (l : List ε) (x : Option α), x.isSome → (run dom value x l).isSome := by
    intro l
    induction l with
    | nil => intro x hx; exact hx
    | cons a as ih =>
        intro x hx
        refine ih _ ?_
        cases ha : value a with
        | none => rwa [step_of_none ha]
        | some m =>
            rw [step_of_some ha]
            rcases keep_eq_or dom x m with hk | hk <;> simp [hk, hx]
  obtain ⟨l₁, l₂, rfl⟩ := List.append_of_mem he
  obtain ⟨m, hm⟩ := Option.isSome_iff_exists.mp hv
  rw [run_append, run_cons, step_of_some hm]
  refine hsome _ _ ?_
  rcases hx : run dom value x l₁ with _ | y
  · rfl
  · rcases keep_eq_or dom (some y) m with hk | hk <;> simp [hk]

lemma run_of_undominated {r : α} {l : List ε}
    (h : ∀ e ∈ l, ∀ m, value e = some m → m ≠ r → dom m r = false) :
    run dom value (some r) l = some r := by
  induction l with
  | nil => rfl
  | cons e es ih =>
      have hstep : step dom value (some r) e = some r := by
        cases hv : value e with
        | none => rw [step_of_none hv]
        | some m =>
            rw [step_of_some hv]
            by_cases hm : m = r
            · simp [keep, hm]
            · simp [keep, h e List.mem_cons_self m hv hm]
      rw [run_cons, hstep]
      exact ih fun e' he' => h e' (List.mem_cons_of_mem _ he')

/-! ## When the outcome is a function of the set of deliveries -/

lemma mem_filterMap_iff_of_covers {D l : List ε} (hl : Covers D l) {m : α} :
    m ∈ D.filterMap value ↔ ∃ e ∈ l, value e = some m := by
  simp only [List.mem_filterMap]
  exact exists_congr fun e => and_congr_left fun _ => (hl e).symm

/-- The dominant value is what every covering sequence leaves behind. -/
lemma run_eq_of_dominant (connex : ∀ a b, dom a b = true ∨ dom b a = true) {D l : List ε}
    (hl : Covers D l) {r : α} (hr : r ∈ D.filterMap value ∨ x = some r)
    (hM : ∀ m ∈ D.filterMap value, m ≠ r → dom m r = false)
    (hx : ∀ y, x = some y → y ≠ r → dom r y = true) :
    run dom value x l = some r := by
  have hund : ∀ e ∈ l, ∀ m, value e = some m → m ≠ r → dom m r = false := fun e he m hm =>
    hM m ((mem_filterMap_iff_of_covers hl).mpr ⟨e, he, hm⟩)
  rcases hr with hr | rfl
  · obtain ⟨e, he, hv⟩ := (mem_filterMap_iff_of_covers hl).mp hr
    obtain ⟨l₁, l₂, rfl⟩ := List.append_of_mem he
    have htake : step dom value (run dom value x l₁) e = some r := by
      rw [step_of_some hv]
      cases hy : run dom value x l₁ with
      | none => rfl
      | some y =>
          by_cases hyr : y = r
          · simp [keep, hyr]
          · have hdom : dom r y = true := by
              rcases mem_of_run hy with hxy | ⟨e', he', hv'⟩
              · exact hx y hxy hyr
              · have hfalse := hund e' (List.mem_append_left _ he') y hv' hyr
                exact (connex r y).resolve_right (by simp [hfalse])
            simp [keep, hdom]
    rw [run_append, run_cons, htake]
    exact run_of_undominated fun e' he' =>
      hund e' (List.mem_append_right _ (List.mem_cons_of_mem _ he'))
  · exact run_of_undominated hund

/-- If the outcome does not depend on the order, the initial value yields to the outcome: else
delivering the outcome first, while it is still rejected, would lose it for good. -/
lemma dom_initial_of_settles {D : List ε} (h : Settles dom value x D) {r y : α}
    (hrun : run dom value x D = some r) (hx : x = some y) (hne : y ≠ r) : dom r y = true := by
  classical
  by_contra hdom
  subst hx
  have hcov : Covers D (D.filter (fun e => value e = some r) ++
      D.filter (fun e => ¬ value e = some r)) := by
    intro e
    by_cases he : value e = some r <;> simp [he]
  have hfirst : run dom value (some y) (D.filter fun e => value e = some r) = some y := by
    refine run_of_undominated fun e he m hm _ => ?_
    have hr : value e = some r := by simpa using (List.mem_filter.mp he).2
    rw [hr] at hm
    rw [← Option.some.inj hm]
    simpa using hdom
  have hlast := h _ _ hcov (fun _ => Iff.rfl)
  rw [run_append, hfirst, hrun] at hlast
  rcases mem_of_run hlast with hy | ⟨e, he, hv⟩
  · exact hne (Option.some.inj hy)
  · exact absurd hv (by simpa using (List.mem_filter.mp he).2)

/-- **Order independence.** For a connex relation, all covering sequences leave the same value
exactly when there is a dominant one. -/
theorem settles_iff (connex : ∀ a b, dom a b = true ∨ dom b a = true) (x : Option α)
    (D : List ε) : Settles dom value x D ↔ HasDominant dom x (D.filterMap value) := by
  constructor
  · intro h
    rcases hM : D.filterMap value with _ | ⟨m₀, M⟩
    · exact Or.inl rfl
    · obtain ⟨e₀, he₀, hv₀⟩ : ∃ e ∈ D, value e = some m₀ :=
        List.mem_filterMap.mp (hM ▸ List.mem_cons_self)
      obtain ⟨r, hrun⟩ : ∃ r, run dom value x D = some r :=
        Option.isSome_iff_exists.mp (isSome_run_of_mem he₀ (by simp [hv₀]))
      refine Or.inr ⟨r, ?_, ?_, fun y hx hne => dom_initial_of_settles h hrun hx hne⟩
      · rcases mem_of_run hrun with hx | ⟨e, he, hv⟩
        · exact Or.inr hx
        · exact Or.inl (hM ▸ List.mem_filterMap.mpr ⟨e, he, hv⟩)
      · intro m hm hne
        obtain ⟨e, he, hv⟩ := List.mem_filterMap.mp (hM ▸ hm)
        -- deliver `m` once more, after everything else
        have hcov : Covers D (D ++ [e]) := by
          intro e'
          simp only [List.mem_append, List.mem_singleton]
          exact ⟨fun h => h.elim id fun h => h ▸ he, Or.inl⟩
        have hagain := h _ _ hcov (fun _ => Iff.rfl)
        rw [run_append, hrun, run_cons, run_nil, step_of_some hv] at hagain
        by_contra hdom
        have hdom' : dom m r = true := by simpa using hdom
        simp only [keep, hdom', if_true, Option.some.injEq] at hagain
        exact hne hagain
  · rintro (hM | ⟨r, hr, hM, hx⟩) l l' hl hl'
    · have hidle : ∀ {k : List ε}, Covers D k → run dom value x k = x := by
        intro k hk
        have hnone : ∀ e ∈ k, value e = none := by
          intro e he
          by_contra hv
          obtain ⟨m, hm⟩ := Option.ne_none_iff_exists'.mp hv
          exact List.not_mem_nil
            (hM ▸ (mem_filterMap_iff_of_covers hk).mpr ⟨e, he, hm⟩)
        clear hk
        induction k with
        | nil => rfl
        | cons e es ih =>
            rw [run_cons, step_of_none (hnone e List.mem_cons_self)]
            exact ih fun e' he' => hnone e' (List.mem_cons_of_mem _ he')
      rw [hidle hl, hidle hl']
    · rw [run_eq_of_dominant connex hl hr hM hx, run_eq_of_dominant connex hl' hr hM hx]

/-! ## Registers that are joined -/

variable (dom) in
/-- The register holds a value that dominates all of `S`, or there is none. -/
def IsTop (S : Set α) : Option α → Prop
  | none => S = ∅
  | some r => r ∈ S ∧ ∀ m ∈ S, dom r m = true

variable (dom) in
/-- On `U` the relation is a linear order. -/
structure LinearOn (U : Set α) : Prop where
  antisymm : ∀ a ∈ U, ∀ b ∈ U, dom a b = true → dom b a = true → a = b
  trans : ∀ a ∈ U, ∀ b ∈ U, ∀ c ∈ U, dom a b = true → dom b c = true → dom a c = true

variable {U S T : Set α} {y : Option α}

lemma IsTop.unique (hU : LinearOn dom U) (hS : S ⊆ U) (hx : IsTop dom S x) (hy : IsTop dom S y) :
    x = y := by
  cases x with
  | none =>
      cases y with
      | none => rfl
      | some b => exact absurd hy.1 (by rw [show S = ∅ from hx]; exact id)
  | some a =>
      cases y with
      | none => exact absurd hx.1 (by rw [show S = ∅ from hy]; exact id)
      | some b =>
          exact congrArg some (hU.antisymm a (hS hx.1) b (hS hy.1) (hx.2 b hy.1) (hy.2 a hx.1))

/-- Of two registers the joined one holds what dominates the values of both. -/
lemma IsTop.join (connex : ∀ a b, dom a b = true ∨ dom b a = true) (hU : LinearOn dom U)
    (hS : S ⊆ U) (hT : T ⊆ U) (hx : IsTop dom S x) (hy : IsTop dom T y) :
    IsTop dom (S ∪ T) (y.elim x (keep dom x)) := by
  cases y with
  | none =>
      rw [show T = ∅ from hy, Set.union_empty]
      exact hx
  | some b =>
      cases x with
      | none =>
          rw [show S = ∅ from hx, Set.empty_union]
          exact hy
      | some a =>
          have habove : ∀ {c d : α} {V : Set α}, c ∈ U → d ∈ V → V ⊆ U → (∀ m ∈ V, dom d m = true) →
              dom c d = true → ∀ m ∈ V, dom c m = true := fun hc hd hV hm hcd m hmV =>
            hU.trans _ hc _ (hV hd) _ (hV hmV) hcd (hm m hmV)
          show IsTop dom _ (if dom b a then some b else some a)
          split_ifs with hba
          · exact ⟨Or.inr hy.1, fun m hm => hm.elim (habove (hT hy.1) hx.1 hS hx.2 hba m) (hy.2 m)⟩
          · have hab : dom a b = true := (connex a b).resolve_right hba
            exact ⟨Or.inl hx.1, fun m hm => hm.elim (hx.2 m) (habove (hS hx.1) hy.1 hT hy.2 hab m)⟩

end DominanceFold
