import Mathlib.Data.List.Basic
import Mathlib.Data.List.Nodup
import Mathlib.Data.List.Perm.Basic
import Mathlib.Data.List.Perm.Subperm
import Mathlib.Tactic.Common

/-!
# Components by breadth-first search

The loop that takes a node from the head of a queue, appends it to the component, and appends the
neighbours that were not visited before to the queue; and the loop over all nodes that starts a
search at each one not visited yet.  A search is given as many rounds as there are nodes, which is
enough, since no node enters the queue twice: `search_perm` says that nothing is left in the queue.
-/

namespace BreadthFirst

variable {α : Type*} [DecidableEq α]

/-- The neighbours that were not visited before, each once, in their order. -/
def unseen : List α → List α → List α
  | _, [] => []
  | visited, n :: ns =>
    if n ∈ visited then unseen visited ns else n :: unseen (n :: visited) ns

/-- The component that the queue grows to, with the nodes visited at the end. -/
def search (adj : α → List α) : ℕ → List α → List α → List α × List α
  | 0, _, visited => ([], visited)
  | _ + 1, [], visited => ([], visited)
  | fuel + 1, curr :: queue, visited =>
    let found := unseen visited (adj curr)
    let rest := search adj fuel (queue ++ found) (found ++ visited)
    (curr :: rest.1, rest.2)

/-- The components of the nodes, with the nodes visited before. -/
def componentsFrom (adj : α → List α) (fuel : ℕ) : List α → List α → List (List α)
  | [], _ => []
  | n :: ns, visited =>
    if n ∈ visited then componentsFrom adj fuel ns visited
    else
      let found := search adj fuel [n] (n :: visited)
      found.1 :: componentsFrom adj fuel ns found.2

/-- The components of a graph, in the order of their first nodes. -/
def components (adj : α → List α) (nodes : List α) : List (List α) :=
  componentsFrom adj nodes.length nodes []

variable {adj : α → List α} {nodes : List α}

lemma mem_unseen {visited ns : List α} {x : α} :
    x ∈ unseen visited ns ↔ x ∈ ns ∧ x ∉ visited := by
  induction ns generalizing visited with
  | nil => simp [unseen]
  | cons n ns ih =>
      by_cases hn : n ∈ visited
      · rw [unseen, if_pos hn, ih, List.mem_cons]
        constructor
        · rintro ⟨hx, hv⟩
          exact ⟨Or.inr hx, hv⟩
        · rintro ⟨rfl | hx, hv⟩
          · exact absurd hn hv
          · exact ⟨hx, hv⟩
      · rw [unseen, if_neg hn, List.mem_cons, ih, List.mem_cons, List.mem_cons, not_or]
        constructor
        · rintro (rfl | ⟨hx, -, hv⟩)
          · exact ⟨Or.inl rfl, hn⟩
          · exact ⟨Or.inr hx, hv⟩
        · rintro ⟨rfl | hx, hv⟩
          · exact Or.inl rfl
          · by_cases hxn : x = n
            · exact Or.inl hxn
            · exact Or.inr ⟨hx, hxn, hv⟩

lemma nodup_unseen (visited ns : List α) : (unseen visited ns).Nodup := by
  induction ns generalizing visited with
  | nil => exact List.nodup_nil
  | cons n ns ih =>
      by_cases hn : n ∈ visited
      · rw [unseen, if_pos hn]
        exact ih visited
      · rw [unseen, if_neg hn, List.nodup_cons]
        refine ⟨fun h => ?_, ih _⟩
        exact (mem_unseen.mp h).2 List.mem_cons_self

/-- The visited nodes stay without repetition when the new ones are added. -/
lemma nodup_unseen_append {visited : List α} (h : visited.Nodup) (ns : List α) :
    (unseen visited ns ++ visited).Nodup := by
  refine List.nodup_append.mpr ⟨nodup_unseen visited ns, h, ?_⟩
  rintro a ha b hb rfl
  exact (mem_unseen.mp ha).2 hb

/-- A search moves the queue and all that it visits into the component.  The rounds suffice when
there are as many as nodes in the queue and nodes not visited yet. -/
lemma search_perm (hadj : ∀ x, ∀ y ∈ adj x, y ∈ nodes) {fuel : ℕ} {queue visited : List α}
    (hv : visited.Nodup) (hsub : visited ⊆ nodes)
    (hfuel : queue.length + nodes.length ≤ fuel + visited.length) :
    ((search adj fuel queue visited).1 ++ visited).Perm
      (queue ++ (search adj fuel queue visited).2) ∧
    (search adj fuel queue visited).2.Nodup ∧ (search adj fuel queue visited).2 ⊆ nodes := by
  induction fuel generalizing queue visited with
  | zero =>
      have hle : visited.length ≤ nodes.length := (hv.subperm hsub).length_le
      have hqueue : queue = [] := List.length_eq_zero_iff.mp (by omega)
      subst hqueue
      exact ⟨List.Perm.refl _, hv, hsub⟩
  | succ fuel ih =>
      cases queue with
      | nil => exact ⟨List.Perm.refl _, hv, hsub⟩
      | cons curr queue =>
          have hv' := nodup_unseen_append hv (adj curr)
          have hsub' : unseen visited (adj curr) ++ visited ⊆ nodes := by
            intro x hx
            rcases List.mem_append.mp hx with hx | hx
            · exact hadj curr x (mem_unseen.mp hx).1
            · exact hsub hx
          have hfuel' : (queue ++ unseen visited (adj curr)).length + nodes.length ≤
              fuel + (unseen visited (adj curr) ++ visited).length := by
            rw [List.length_append, List.length_append]
            rw [List.length_cons] at hfuel
            omega
          obtain ⟨hperm, hnodup, hend⟩ := ih hv' hsub' hfuel'
          refine ⟨?_, hnodup, hend⟩
          -- the new nodes stand on both sides
          have hcancel : ((search adj fuel (queue ++ unseen visited (adj curr))
                (unseen visited (adj curr) ++ visited)).1 ++ visited).Perm
              (queue ++ (search adj fuel (queue ++ unseen visited (adj curr))
                (unseen visited (adj curr) ++ visited)).2) := by
            refine (List.perm_append_left_iff (unseen visited (adj curr))).mp ?_
            refine List.Perm.trans ?_ (hperm.trans ?_)
            · rw [← List.append_assoc, ← List.append_assoc]
              exact List.Perm.append_right visited List.perm_append_comm
            · rw [← List.append_assoc]
              exact List.Perm.append_right _ List.perm_append_comm
          exact hcancel.cons curr

lemma head_mem_search {fuel : ℕ} (h : 0 < fuel) (curr : α) (visited : List α) :
    curr ∈ (search adj fuel [curr] visited).1 := by
  obtain ⟨k, rfl⟩ := Nat.exists_eq_succ_of_ne_zero (by omega : fuel ≠ 0)
  exact List.mem_cons_self

/-- The components after some nodes have been visited: none of their nodes was visited, none occurs
twice, and none of the nodes is left out. -/
lemma componentsFrom_spec (hadj : ∀ x, ∀ y ∈ adj x, y ∈ nodes) {ns visited : List α}
    (hv : visited.Nodup) (hsub : visited ⊆ nodes) (hns : ns ⊆ nodes) :
    ((componentsFrom adj nodes.length ns visited).flatten ++ visited).Nodup ∧
    (∀ x ∈ ns, x ∈ (componentsFrom adj nodes.length ns visited).flatten ++ visited) ∧
    (componentsFrom adj nodes.length ns visited).flatten ⊆ nodes := by
  induction ns generalizing visited with
  | nil => exact ⟨hv, by nofun, by simp [componentsFrom]⟩
  | cons n ns ih =>
      have hns' : ns ⊆ nodes := fun x hx => hns (List.mem_cons_of_mem n hx)
      by_cases hn : n ∈ visited
      · rw [componentsFrom, if_pos hn]
        obtain ⟨hnodup, hall, hin⟩ := ih hv hsub hns'
        refine ⟨hnodup, fun x hx => ?_, hin⟩
        rcases List.mem_cons.mp hx with rfl | hx
        · exact List.mem_append_right _ hn
        · exact hall x hx
      · rw [componentsFrom, if_neg hn]
        have hv' : (n :: visited).Nodup := List.nodup_cons.mpr ⟨hn, hv⟩
        have hsub' : n :: visited ⊆ nodes := by
          intro x hx
          rcases List.mem_cons.mp hx with rfl | hx
          · exact hns List.mem_cons_self
          · exact hsub hx
        have hfuel : [n].length + nodes.length ≤ nodes.length + (n :: visited).length := by
          simp only [List.length_cons, List.length_nil]
          omega
        obtain ⟨hperm, hvnodup, hvsub⟩ := search_perm hadj hv' hsub' hfuel
        obtain ⟨hnodup, hall, hin⟩ := ih hvnodup hvsub hns'
        generalize hfound : search adj nodes.length [n] (n :: visited) = found at *
        -- the component and the nodes visited before make up the nodes visited after
        have hsplit : (found.1 ++ visited).Perm found.2 := by
          have h : (n :: (found.1 ++ visited)).Perm (n :: found.2) :=
            List.perm_middle.symm.trans hperm
          exact h.cons_inv
        have hflat : ((found.1 :: componentsFrom adj nodes.length ns found.2).flatten ++
            visited).Perm ((componentsFrom adj nodes.length ns found.2).flatten ++ found.2) := by
          rw [List.flatten_cons]
          refine (List.perm_append_comm.append_right visited).trans ?_
          rw [List.append_assoc]
          exact hsplit.append_left _
        refine ⟨hflat.nodup_iff.mpr hnodup, fun x hx => hflat.mem_iff.mpr ?_, ?_⟩
        · rcases List.mem_cons.mp hx with rfl | hx
          · have hmem : x ∈ found.1 := by
              rw [← hfound]
              exact head_mem_search (List.length_pos_of_mem (hns List.mem_cons_self)) _ _
            exact List.mem_append_right _ (hsplit.mem_iff.mp (List.mem_append_left _ hmem))
          · exact hall x hx
        · intro x hx
          rw [List.flatten_cons] at hx
          rcases List.mem_append.mp hx with hx | hx
          · exact hvsub (hsplit.mem_iff.mp (List.mem_append_left _ hx))
          · exact hin hx

/-- The components partition the nodes. -/
theorem components_spec (hadj : ∀ x, ∀ y ∈ adj x, y ∈ nodes) :
    (components adj nodes).flatten.Nodup ∧ ∀ x, x ∈ (components adj nodes).flatten ↔ x ∈ nodes := by
  obtain ⟨hnodup, hall, hin⟩ := componentsFrom_spec hadj List.nodup_nil
    (List.nil_subset _) (List.Subset.refl nodes)
  rw [List.append_nil] at hnodup
  refine ⟨hnodup, fun x => ⟨fun hx => hin hx, fun hx => ?_⟩⟩
  have hmem := hall x hx
  rw [List.append_nil] at hmem
  exact hmem

lemma subset_search (fuel : ℕ) (queue visited : List α) :
    visited ⊆ (search adj fuel queue visited).2 := by
  induction fuel generalizing queue visited with
  | zero => exact List.Subset.refl visited
  | succ fuel ih =>
      cases queue with
      | nil => exact List.Subset.refl visited
      | cons curr queue =>
          exact List.Subset.trans (List.subset_append_right _ _) (ih _ _)

/-- The neighbours of what a search moves into the component are visited. -/
lemma adj_subset_search {fuel : ℕ} {queue visited : List α} {x : α}
    (h : x ∈ (search adj fuel queue visited).1) :
    adj x ⊆ (search adj fuel queue visited).2 := by
  induction fuel generalizing queue visited with
  | zero => exact absurd h List.not_mem_nil
  | succ fuel ih =>
      cases queue with
      | nil => exact absurd h List.not_mem_nil
      | cons curr queue =>
          rcases List.mem_cons.mp h with rfl | h
          · intro y hy
            refine subset_search fuel _ _ ?_
            rw [List.mem_append, mem_unseen]
            by_cases hv : y ∈ visited
            · exact Or.inr hv
            · exact Or.inl ⟨hy, hv⟩
          · exact ih h

/-- Over a symmetric graph the components contain the neighbours of their nodes, if the nodes that
were visited before do. -/
lemma componentsFrom_closed (hadj : ∀ x, ∀ y ∈ adj x, y ∈ nodes)
    (hsymm : ∀ x ∈ nodes, ∀ y ∈ adj x, x ∈ adj y) {ns visited : List α} (hv : visited.Nodup)
    (hsub : visited ⊆ nodes) (hns : ns ⊆ nodes) (hclosed : ∀ x ∈ visited, adj x ⊆ visited) :
    ∀ comp ∈ componentsFrom adj nodes.length ns visited, ∀ x ∈ comp, adj x ⊆ comp := by
  induction ns generalizing visited with
  | nil => nofun
  | cons n ns ih =>
      have hns' : ns ⊆ nodes := fun x hx => hns (List.mem_cons_of_mem n hx)
      by_cases hn : n ∈ visited
      · rw [componentsFrom, if_pos hn]
        exact ih hv hsub hns' hclosed
      · rw [componentsFrom, if_neg hn]
        have hv' : (n :: visited).Nodup := List.nodup_cons.mpr ⟨hn, hv⟩
        have hsub' : n :: visited ⊆ nodes := by
          intro x hx
          rcases List.mem_cons.mp hx with rfl | hx
          · exact hns List.mem_cons_self
          · exact hsub hx
        have hfuel : [n].length + nodes.length ≤ nodes.length + (n :: visited).length := by
          simp only [List.length_cons, List.length_nil]
          omega
        obtain ⟨hperm, hvnodup, hvsub⟩ := search_perm hadj hv' hsub' hfuel
        have hneighbours : ∀ x ∈ (search adj nodes.length [n] (n :: visited)).1,
            adj x ⊆ (search adj nodes.length [n] (n :: visited)).2 := fun x => adj_subset_search
        generalize search adj nodes.length [n] (n :: visited) = found at *
        have hsplit : (found.1 ++ visited).Perm found.2 := by
          have h : (n :: (found.1 ++ visited)).Perm (n :: found.2) :=
            List.perm_middle.symm.trans hperm
          exact h.cons_inv
        have hdisjoint : ∀ x ∈ found.1, x ∉ visited := fun x hx hxv =>
          (List.nodup_append.mp (hsplit.nodup_iff.mpr hvnodup)).2.2 x hx x hxv rfl
        -- a neighbour that was visited before would have this node among its own neighbours
        have hfound : ∀ x ∈ found.1, adj x ⊆ found.1 := by
          intro x hx y hy
          rcases List.mem_append.mp (hsplit.mem_iff.mpr (hneighbours x hx hy)) with h | h
          · exact h
          · have hnode : x ∈ nodes := hvsub (hsplit.mem_iff.mp (List.mem_append_left _ hx))
            exact absurd (hclosed y h (hsymm x hnode y hy)) (hdisjoint x hx)
        intro comp hcomp
        rcases List.mem_cons.mp hcomp with rfl | hcomp
        · exact hfound
        · refine ih hvnodup hvsub hns' (fun x hx => ?_) comp hcomp
          rcases List.mem_append.mp (hsplit.mem_iff.mpr hx) with h | h
          · exact hneighbours x h
          · exact fun y hy => hsplit.mem_iff.mp (List.mem_append_right _ (hclosed x h hy))

/-- Over a symmetric graph the components contain the neighbours of their nodes. -/
theorem components_closed (hadj : ∀ x, ∀ y ∈ adj x, y ∈ nodes)
    (hsymm : ∀ x ∈ nodes, ∀ y ∈ adj x, x ∈ adj y) :
    ∀ comp ∈ components adj nodes, ∀ x ∈ comp, adj x ⊆ comp :=
  componentsFrom_closed hadj hsymm List.nodup_nil (List.nil_subset _) (List.Subset.refl nodes)
    nofun

/-- A search stays within a set that contains the queue and the neighbours of its elements. -/
lemma search_subset_of_closed {S : Set α} (hS : ∀ x ∈ S, ∀ y ∈ adj x, y ∈ S) {fuel : ℕ}
    {queue visited : List α} (hqueue : ∀ x ∈ queue, x ∈ S) :
    ∀ x ∈ (search adj fuel queue visited).1, x ∈ S := by
  induction fuel generalizing queue visited with
  | zero => nofun
  | succ fuel ih =>
      cases queue with
      | nil => nofun
      | cons curr queue =>
          have hcurr := hqueue curr List.mem_cons_self
          intro x hx
          rcases List.mem_cons.mp hx with rfl | hx
          · exact hcurr
          · refine ih (fun y hy => ?_) x hx
            rcases List.mem_append.mp hy with hy | hy
            · exact hqueue y (List.mem_cons_of_mem curr hy)
            · exact hS curr hcurr y (mem_unseen.mp hy).1

/-- A component is the least set that contains one of its nodes and the neighbours of its
elements. -/
theorem components_minimal : ∀ comp ∈ components adj nodes, ∃ n ∈ comp, ∀ S : Set α, n ∈ S →
    (∀ x ∈ S, ∀ y ∈ adj x, y ∈ S) → ∀ x ∈ comp, x ∈ S := by
  have hfrom : ∀ {fuel : ℕ} {ns visited : List α}, (ns ≠ [] → 0 < fuel) →
      ∀ comp ∈ componentsFrom adj fuel ns visited, ∃ n ∈ comp, ∀ S : Set α, n ∈ S →
        (∀ x ∈ S, ∀ y ∈ adj x, y ∈ S) → ∀ x ∈ comp, x ∈ S := by
    intro fuel ns
    induction ns with
    | nil => nofun
    | cons n ns ih =>
        intro visited hfuel comp hcomp
        have hpos := hfuel (List.cons_ne_nil n ns)
        rw [componentsFrom] at hcomp
        split_ifs at hcomp with hn
        · exact ih (fun _ => hpos) comp hcomp
        · rcases List.mem_cons.mp hcomp with rfl | hcomp
          · refine ⟨n, head_mem_search hpos n _, fun S hnS hS => search_subset_of_closed hS ?_⟩
            intro x hx
            rw [List.mem_singleton.mp hx]
            exact hnS
          · exact ih (fun _ => hpos) comp hcomp
  exact hfrom List.length_pos_iff.mpr

/-- A node without neighbours is a component by itself. -/
lemma search_of_isolated {fuel : ℕ} (h : 0 < fuel) {n : α} (hn : adj n = []) (visited : List α) :
    search adj fuel [n] visited = ([n], visited) := by
  obtain ⟨k, rfl⟩ := Nat.exists_eq_succ_of_ne_zero (by omega : fuel ≠ 0)
  have hfound : unseen visited (adj n) = [] := by
    rw [hn]
    rfl
  have hempty : search adj k [] visited = ([], visited) := by cases k <;> rfl
  rw [search, hfound, List.append_nil, List.nil_append, hempty]

/-- Where no node has neighbours, each is a component by itself. -/
lemma components_of_isolated (hnodup : nodes.Nodup) (h : ∀ n ∈ nodes, adj n = []) :
    components adj nodes = nodes.map fun n => [n] := by
  have hfrom : ∀ {ns visited : List α} {fuel : ℕ}, (ns ≠ [] → 0 < fuel) → ns.Nodup →
      (∀ n ∈ ns, adj n = [] ∧ n ∉ visited) →
        componentsFrom adj fuel ns visited = ns.map fun n => [n] := by
    intro ns
    induction ns with
    | nil => intros; rfl
    | cons n ns ih =>
        intro visited fuel hfuel hns hall
        have hpos := hfuel (List.cons_ne_nil n ns)
        rw [List.nodup_cons] at hns
        obtain ⟨hn, hnew⟩ := hall n List.mem_cons_self
        have hrest : componentsFrom adj fuel ns (n :: visited) = ns.map fun n => [n] := by
          refine ih (fun _ => hpos) hns.2 fun m hm => ?_
          obtain ⟨hadj, hmnew⟩ := hall m (List.mem_cons_of_mem n hm)
          refine ⟨hadj, ?_⟩
          rw [List.mem_cons, not_or]
          exact ⟨fun heq => hns.1 (heq ▸ hm), hmnew⟩
        rw [componentsFrom, if_neg hnew, search_of_isolated hpos hn]
        exact congrArg ([n] :: ·) hrest
  exact hfrom List.length_pos_iff.mpr hnodup fun n hn => ⟨h n hn, List.not_mem_nil⟩

end BreadthFirst
