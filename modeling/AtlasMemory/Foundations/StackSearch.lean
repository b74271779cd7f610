import AtlasMemory.Foundations.Walks

/-!
# Reachability by a search with a stack

The loop that takes a node off a stack, marks those of its neighbours that are not marked yet, and
puts them on the stack.  One node may be left out of the search.  The start is not marked unless an
edge leads back to it, so the marked nodes are the ends of the walks with at least one edge.

A search is given as many rounds as nodes can get on the stack; `mem_reachable` says that these are
enough.
-/

namespace StackSearch

open Walks

variable {α : Type*} [DecidableEq α] (adj : α → List α) (excluded : Option α)

/-- One neighbour: the stack and the marked nodes after it. -/
def visit (s : List α × List α) (x : α) : List α × List α :=
  if some x = excluded ∨ x ∈ s.2 then s else (x :: s.1, x :: s.2)

/-- The marked nodes at the end of the loop, in the given number of rounds. -/
def explore : ℕ → List α → List α → List α
  | 0, _, marked => marked
  | _ + 1, [], marked => marked
  | fuel + 1, curr :: stack, marked =>
    let s := (adj curr).foldl (visit excluded) (stack, marked)
    explore fuel s.1 s.2

/-- The nodes that the search from a root marks. -/
def reachable (fuel : ℕ) (root : α) : List α := explore adj excluded fuel [root] []

variable {adj excluded}

def Step (adj : α → List α) (excluded : Option α) (x y : α) : Prop :=
  some y ≠ excluded ∧ ∃ e ∈ adj x, id e = y

omit [DecidableEq α] in
lemma step_iff {x y : α} : Step adj excluded x y ↔ some y ≠ excluded ∧ y ∈ adj x := by
  simp [Step]

/-- A round puts the nodes that it marks on the stack, each once. -/
lemma foldl_visit (ns : List α) (s : List α × List α) (hs : s.2.Nodup) :
    ∃ found, ns.foldl (visit excluded) s = (found ++ s.1, found ++ s.2) ∧
      (found ++ s.2).Nodup ∧ (∀ x ∈ found, some x ≠ excluded ∧ x ∈ ns) ∧
      ∀ x ∈ ns, some x ≠ excluded → x ∈ found ++ s.2 := by
  induction ns generalizing s with
  | nil => exact ⟨[], rfl, hs, by nofun, by nofun⟩
  | cons n ns ih =>
      by_cases hn : some n = excluded ∨ n ∈ s.2
      · obtain ⟨found, heq, hnodup, hfound, hall⟩ := ih s hs
        refine ⟨found, ?_, hnodup, fun x hx => ?_, fun x hx hex => ?_⟩
        · rw [List.foldl_cons, visit, if_pos hn]
          exact heq
        · exact ⟨(hfound x hx).1, List.mem_cons_of_mem n (hfound x hx).2⟩
        · rcases List.mem_cons.mp hx with rfl | hx
          · exact List.mem_append_right _ (hn.resolve_left hex)
          · exact hall x hx hex
      · obtain ⟨hex, hnew⟩ := not_or.mp hn
        obtain ⟨found, heq, hnodup, hfound, hall⟩ :=
          ih (n :: s.1, n :: s.2) (List.nodup_cons.mpr ⟨hnew, hs⟩)
        have hmove : ∀ l : List α, found ++ n :: l = (found ++ [n]) ++ l := fun l => by simp
        refine ⟨found ++ [n], ?_, ?_, fun x hx => ?_, fun x hx hex' => ?_⟩
        · rw [List.foldl_cons, visit, if_neg hn, heq]
          exact Prod.ext (hmove s.1) (hmove s.2)
        · rw [← hmove]
          exact hnodup
        · rcases List.mem_append.mp hx with hx | hx
          · exact ⟨(hfound x hx).1, List.mem_cons_of_mem n (hfound x hx).2⟩
          · rw [List.mem_singleton.mp hx]
            exact ⟨hex, List.mem_cons_self⟩
        · rw [← hmove]
          rcases List.mem_cons.mp hx with rfl | hx
          · exact List.mem_append_right _ List.mem_cons_self
          · exact hall x hx hex'

/-- What holds between two rounds of the search from `root`. -/
structure Between (adj : α → List α) (excluded : Option α) (nodes : List α) (root : α)
    (fuel : ℕ) (stack marked : List α) : Prop where
  nodup : marked.Nodup
  subset : marked ⊆ nodes
  sound : ∀ x ∈ marked, Relation.TransGen (Step adj excluded) root x
  stacked : ∀ x ∈ stack, x = root ∨ x ∈ marked
  closed : ∀ x, x = root ∨ x ∈ marked → x ∈ stack ∨ ∀ y, Step adj excluded x y → y ∈ marked
  rounds : stack.length + nodes.length ≤ fuel + marked.length

variable {nodes : List α} {root : α}

omit [DecidableEq α] in
lemma between_start {fuel : ℕ} (h : nodes.length + 1 ≤ fuel) :
    Between adj excluded nodes root fuel [root] [] where
  nodup := List.nodup_nil
  subset := List.nil_subset _
  sound := by nofun
  stacked x hx := Or.inl (List.mem_singleton.mp hx)
  closed x hx := Or.inl (List.mem_singleton.mpr (hx.resolve_right List.not_mem_nil))
  rounds := by
    rw [List.length_singleton, List.length_nil]
    omega

/-- A round keeps what holds between rounds. -/
lemma Between.round {fuel : ℕ} {curr : α} {stack marked : List α}
    (hadj : ∀ x, ∀ y ∈ adj x, y ∈ nodes)
    (h : Between adj excluded nodes root (fuel + 1) (curr :: stack) marked) :
    Between adj excluded nodes root fuel
      ((adj curr).foldl (visit excluded) (stack, marked)).1
      ((adj curr).foldl (visit excluded) (stack, marked)).2 := by
  obtain ⟨found, heq, hnodup, hfound, hall⟩ :=
    @foldl_visit _ _ excluded (adj curr) (stack, marked) h.nodup
  rw [heq]
  have hcurr := h.stacked curr List.mem_cons_self
  refine ⟨hnodup, fun x hx => ?_, fun x hx => ?_, fun x hx => ?_, fun x hx => ?_, ?_⟩
  · rcases List.mem_append.mp hx with hx | hx
    · exact hadj curr x (hfound x hx).2
    · exact h.subset hx
  · rcases List.mem_append.mp hx with hx | hx
    · have hstep : Step adj excluded curr x := step_iff.mpr (hfound x hx)
      rcases hcurr with rfl | hcurr
      · exact Relation.TransGen.single hstep
      · exact (h.sound curr hcurr).tail hstep
    · exact h.sound x hx
  · rcases List.mem_append.mp hx with hx | hx
    · exact Or.inr (List.mem_append_left _ hx)
    · exact (h.stacked x (List.mem_cons_of_mem curr hx)).imp_right (List.mem_append_right _)
  · by_cases hxc : x = curr
    · subst hxc
      refine Or.inr fun y hy => ?_
      obtain ⟨hex, hmem⟩ := step_iff.mp hy
      exact hall y hmem hex
    · by_cases hnew : x ∈ found
      · exact Or.inl (List.mem_append_left _ hnew)
      · have hold : x = root ∨ x ∈ marked :=
          hx.imp_right fun hx => (List.mem_append.mp hx).resolve_left hnew
        rcases h.closed x hold with hstack | hclosed
        · exact Or.inl (List.mem_append_right _ ((List.mem_cons.mp hstack).resolve_left hxc))
        · exact Or.inr fun y hy => List.mem_append_right _ (hclosed y hy)
  · have hrounds := h.rounds
    simp only [List.length_cons, List.length_append] at hrounds ⊢
    omega

/-- At the end the marked nodes are those that the steps lead to. -/
lemma Between.mem_explore (hadj : ∀ x, ∀ y ∈ adj x, y ∈ nodes) {fuel : ℕ}
    {stack marked : List α} (h : Between adj excluded nodes root fuel stack marked) {x : α} :
    (explore adj excluded fuel stack marked).Nodup ∧
      (x ∈ explore adj excluded fuel stack marked ↔
        Relation.TransGen (Step adj excluded) root x) := by
  have hend : ∀ {marked : List α} {fuel : ℕ},
      Between adj excluded nodes root fuel [] marked →
        (x ∈ marked ↔ Relation.TransGen (Step adj excluded) root x) := by
    intro marked fuel h
    refine ⟨h.sound x, fun hx => ?_⟩
    induction hx with
    | single hstep =>
        exact (h.closed root (Or.inl rfl)).resolve_left List.not_mem_nil _ hstep
    | tail _ hstep ih =>
        exact (h.closed _ (Or.inr ih)).resolve_left List.not_mem_nil _ hstep
  induction fuel generalizing stack marked with
  | zero =>
      have hle : marked.length ≤ nodes.length := (h.nodup.subperm h.subset).length_le
      have hstack : stack = [] := by
        have hrounds := h.rounds
        exact List.length_eq_zero_iff.mp (by omega)
      subst hstack
      exact ⟨h.nodup, hend h⟩
  | succ fuel ih =>
      cases stack with
      | nil => exact ⟨h.nodup, hend h⟩
      | cons curr stack => exact ih (h.round hadj)

lemma nodup_reachable (hadj : ∀ x, ∀ y ∈ adj x, y ∈ nodes) {fuel : ℕ}
    (hfuel : nodes.length + 1 ≤ fuel) : (reachable adj excluded fuel root).Nodup :=
  ((between_start hfuel).mem_explore hadj (x := root)).1

/-- **The search marks the ends of the walks with at least one edge that do not meet the node left
out.** -/
theorem mem_reachable (hadj : ∀ x, ∀ y ∈ adj x, y ∈ nodes) {fuel : ℕ}
    (hfuel : nodes.length + 1 ≤ fuel) {x : α} :
    x ∈ reachable adj excluded fuel root ↔
      ∃ p, p ≠ [] ∧ IsWalk adj id root p x ∧ ∀ y ∈ p, some y ≠ excluded := by
  refine (((between_start hfuel).mem_explore hadj (x := x)).2).trans ?_
  refine (transGen_iff_exists_walk (P := fun y => some y ≠ excluded)).trans ?_
  simp only [List.map_id]

end StackSearch
