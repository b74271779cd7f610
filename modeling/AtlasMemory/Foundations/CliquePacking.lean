import Mathlib.Data.List.Basic
import Mathlib.Data.List.Nodup
import Mathlib.Data.List.Perm.Basic
import Mathlib.Order.Defs.LinearOrder
import Mathlib.Order.Lattice
import Mathlib.Tactic.Common

/-!
# Greedy packing of cliques

The nodes of a graph are taken as seeds, one after the other.  Around a seed that is in no cluster
yet a cluster grows: its neighbours that are in no cluster yet are the candidates, and each joins if
it has an edge to every member so far.  A cluster of the seed alone is dropped.  The clusters are
disjoint cliques, and no edge is left with both of its ends outside of them.
-/

namespace CliquePacking

variable {α : Type*} (edge : α → α → Bool)

/-- The candidate joins the cluster if it has an edge to every member. -/
def accept (cluster : List α) (cand : α) : List α :=
  if cluster.all fun m => edge m cand then cluster ++ [cand] else cluster

def grow (seed : α) (cands : List α) : List α := cands.foldl (accept edge) [seed]

/-- The clusters around the seeds; `cands` gives the candidates of a seed, from the nodes that are
in a cluster already. -/
def pack [DecidableEq α] (cands : List α → α → List α) : List α → List α → List (List α)
  | [], _ => []
  | seed :: seeds, assigned =>
    if seed ∈ assigned then pack cands seeds assigned
    else
      let cluster := grow edge seed (cands assigned seed)
      if 1 < cluster.length then cluster :: pack cands seeds (assigned ++ cluster)
      else pack cands seeds assigned

/-- Every two members have an edge. -/
def IsClique (cluster : List α) : Prop := ∀ a ∈ cluster, ∀ b ∈ cluster, a ≠ b → edge a b = true

/-- The candidates of a seed are its neighbours among some nodes, without those in a cluster. -/
def Candidates (nodes : List α) (cands : List α → α → List α) : Prop :=
  ∀ assigned seed v, v ∈ cands assigned seed ↔ v ∈ nodes ∧ edge seed v = true ∧ v ∉ assigned

variable {edge} {nodes cluster cs assigned seeds : List α} {seed : α}
  {cands : List α → α → List α}

/-! ## One cluster -/

lemma subset_foldl_accept (cs cluster : List α) : cluster ⊆ cs.foldl (accept edge) cluster := by
  induction cs generalizing cluster with
  | nil => exact List.Subset.refl cluster
  | cons c cs ih =>
    rw [List.foldl_cons]
    refine List.Subset.trans ?_ (ih _)
    unfold accept
    split_ifs
    · exact List.subset_append_left _ _
    · exact List.Subset.refl cluster

lemma mem_foldl_accept {x : α} (h : x ∈ cs.foldl (accept edge) cluster) : x ∈ cluster ∨ x ∈ cs := by
  induction cs generalizing cluster with
  | nil => exact Or.inl h
  | cons c cs ih =>
    rcases ih h with h | h
    · unfold accept at h
      split_ifs at h
      · rcases List.mem_append.mp h with h | h
        · exact Or.inl h
        · exact Or.inr (List.mem_cons.mpr (Or.inl (List.mem_singleton.mp h)))
      · exact Or.inl h
    · exact Or.inr (List.mem_cons_of_mem c h)

lemma isClique_accept (hsymm : ∀ a b, edge a b = edge b a) (h : IsClique edge cluster) (c : α) :
    IsClique edge (accept edge cluster c) := by
  unfold accept
  split_ifs with hall
  · rw [List.all_eq_true] at hall
    intro a ha b hb hab
    rcases List.mem_append.mp ha with ha | ha
    · rcases List.mem_append.mp hb with hb | hb
      · exact h a ha b hb hab
      · rw [List.mem_singleton.mp hb]
        exact hall a ha
    · rw [List.mem_singleton.mp ha] at hab ⊢
      rcases List.mem_append.mp hb with hb | hb
      · rw [hsymm]
        exact hall b hb
      · exact absurd (List.mem_singleton.mp hb).symm hab
  · exact h

lemma isClique_grow (hsymm : ∀ a b, edge a b = edge b a) (seed : α) (cs : List α) :
    IsClique edge (grow edge seed cs) := by
  unfold grow
  have hfold : ∀ (cs cluster : List α), IsClique edge cluster →
      IsClique edge (cs.foldl (accept edge) cluster) := by
    intro cs
    induction cs with
    | nil => exact fun _ h => h
    | cons c cs ih => exact fun _ h => ih _ (isClique_accept hsymm h c)
  refine hfold cs [seed] fun a ha b hb hab => ?_
  rw [List.mem_singleton.mp ha, List.mem_singleton.mp hb] at hab
  exact absurd rfl hab

/-- A node without an edge to itself does not join twice. -/
lemma nodup_grow (hirrefl : ∀ a, edge a a = false) (seed : α) (cs : List α) :
    (grow edge seed cs).Nodup := by
  unfold grow
  have hfold : ∀ (cs cluster : List α), cluster.Nodup →
      (cs.foldl (accept edge) cluster).Nodup := by
    intro cs
    induction cs with
    | nil => exact fun _ h => h
    | cons c cs ih =>
      intro cluster h
      refine ih _ ?_
      unfold accept
      split_ifs with hall
      · rw [List.all_eq_true] at hall
        refine List.nodup_append.mpr ⟨h, List.nodup_singleton c, ?_⟩
        rintro a ha b hb rfl
        rw [List.mem_singleton] at hb
        subst hb
        have hloop := hall a ha
        rw [hirrefl] at hloop
        exact Bool.false_ne_true hloop
      · exact h
  exact hfold cs [seed] (List.nodup_singleton seed)

lemma length_le_foldl_accept (cs cluster : List α) :
    cluster.length ≤ (cs.foldl (accept edge) cluster).length := by
  induction cs generalizing cluster with
  | nil => exact Nat.le_refl _
  | cons c cs ih =>
    rw [List.foldl_cons]
    refine Nat.le_trans ?_ (ih _)
    unfold accept
    split_ifs <;> simp

/-- A seed whose candidates are its neighbours does not stay alone if it has one. -/
lemma one_lt_length_grow (hcs : ∀ c ∈ cs, edge seed c = true) (hne : cs ≠ []) :
    1 < (grow edge seed cs).length := by
  obtain ⟨c, rest, rfl⟩ := List.exists_cons_of_ne_nil hne
  have haccept : accept edge [seed] c = [seed, c] := by
    unfold accept
    simp [hcs c List.mem_cons_self]
  have hle : [seed, c].length ≤ (rest.foldl (accept edge) [seed, c]).length :=
    length_le_foldl_accept rest _
  rw [grow, List.foldl_cons, haccept]
  exact hle

/-! ## All clusters -/

/-- **The packing**: the clusters are cliques of at least two nodes that were in no cluster before,
no node is in two of them, and of every edge of a seed one end is in a cluster. -/
theorem pack_spec [DecidableEq α] (hsymm : ∀ a b, edge a b = edge b a)
    (hirrefl : ∀ a, edge a a = false)
    (hcands : Candidates edge nodes cands) (hseeds : seeds ⊆ nodes) :
    (∀ cluster ∈ pack edge cands seeds assigned,
      IsClique edge cluster ∧ 1 < cluster.length ∧ cluster ⊆ nodes) ∧
    (pack edge cands seeds assigned).flatten.Nodup ∧
    (∀ x ∈ (pack edge cands seeds assigned).flatten, x ∉ assigned) ∧
    ∀ a ∈ seeds, ∀ b ∈ nodes, edge a b = true → a ∈ assigned ∨ b ∈ assigned ∨
      a ∈ (pack edge cands seeds assigned).flatten ∨
        b ∈ (pack edge cands seeds assigned).flatten := by
  induction seeds generalizing assigned with
  | nil => exact ⟨nofun, List.nodup_nil, nofun, nofun⟩
  | cons seed seeds ih =>
    have hseeds' : seeds ⊆ nodes := fun x hx => hseeds (List.mem_cons_of_mem seed hx)
    rw [pack]
    by_cases hseed : seed ∈ assigned
    · rw [if_pos hseed]
      obtain ⟨hclusters, hnodup, hnew, hcovered⟩ := @ih assigned hseeds'
      refine ⟨hclusters, hnodup, hnew, fun a ha b hb hab => ?_⟩
      rcases List.mem_cons.mp ha with rfl | ha
      · exact Or.inl hseed
      · exact hcovered a ha b hb hab
    rw [if_neg hseed]
    dsimp only
    -- the members of the cluster are nodes that are in no cluster yet
    have hmem : ∀ x ∈ grow edge seed (cands assigned seed), x ∈ nodes ∧ x ∉ assigned := by
      intro x hx
      rcases mem_foldl_accept hx with hx | hx
      · rw [List.mem_singleton.mp hx]
        exact ⟨hseeds List.mem_cons_self, hseed⟩
      · obtain ⟨hnode, -, hfree⟩ := (hcands _ _ _).mp hx
        exact ⟨hnode, hfree⟩
    by_cases hlen : 1 < (grow edge seed (cands assigned seed)).length
    · rw [if_pos hlen]
      obtain ⟨hclusters, hnodup, hnew, hcovered⟩ :=
        @ih (assigned ++ grow edge seed (cands assigned seed)) hseeds'
      refine ⟨?_, ?_, ?_, fun a ha b hb hab => ?_⟩
      · intro cluster hcluster
        rcases List.mem_cons.mp hcluster with rfl | hcluster
        · exact ⟨isClique_grow hsymm _ _, hlen, fun x hx => (hmem x hx).1⟩
        · exact hclusters cluster hcluster
      · rw [List.flatten_cons]
        refine List.nodup_append.mpr ⟨nodup_grow hirrefl _ _, hnodup, ?_⟩
        rintro x hx y hy rfl
        exact hnew x hy (List.mem_append_right _ hx)
      · intro x hx
        rcases List.mem_append.mp (List.flatten_cons ▸ hx) with hx | hx
        · exact (hmem x hx).2
        · exact fun h => hnew x hx (List.mem_append_left _ h)
      · rw [List.flatten_cons, List.mem_append, List.mem_append]
        rcases List.mem_cons.mp ha with rfl | ha
        · have hgrown : a ∈ grow edge a (cands assigned a) :=
            subset_foldl_accept _ _ (List.mem_singleton_self a)
          exact Or.inr (Or.inr (Or.inl (Or.inl hgrown)))
        · rcases hcovered a ha b hb hab with h | h | h | h
          · rcases List.mem_append.mp h with h | h
            · exact Or.inl h
            · exact Or.inr (Or.inr (Or.inl (Or.inl h)))
          · rcases List.mem_append.mp h with h | h
            · exact Or.inr (Or.inl h)
            · exact Or.inr (Or.inr (Or.inr (Or.inl h)))
          · exact Or.inr (Or.inr (Or.inl (Or.inr h)))
          · exact Or.inr (Or.inr (Or.inr (Or.inr h)))
    · rw [if_neg hlen]
      obtain ⟨hclusters, hnodup, hnew, hcovered⟩ := @ih assigned hseeds'
      refine ⟨hclusters, hnodup, hnew, fun a ha b hb hab => ?_⟩
      rcases List.mem_cons.mp ha with rfl | ha
      · -- a seed that stays alone has no free neighbour
        by_cases hfree : b ∈ assigned
        · exact Or.inr (Or.inl hfree)
        · have hb' : b ∈ cands assigned a := (hcands _ _ _).mpr ⟨hb, hab, hfree⟩
          exact absurd (one_lt_length_grow (fun c hc => ((hcands _ _ _).mp hc).2.1)
            (List.ne_nil_of_mem hb')) hlen
      · exact hcovered a ha b hb hab

/-! ## Reordered candidates -/

lemma accept_perm {cluster' : List α} (h : cluster.Perm cluster') (c : α) :
    (accept edge cluster c).Perm (accept edge cluster' c) := by
  unfold accept
  rw [h.all_eq]
  split_ifs
  · exact h.append_right [c]
  · exact h

lemma foldl_accept_perm_cluster {cluster' : List α} (h : cluster.Perm cluster') (cs : List α) :
    (cs.foldl (accept edge) cluster).Perm (cs.foldl (accept edge) cluster') := by
  induction cs generalizing cluster cluster' with
  | nil => exact h
  | cons c cs ih => exact ih (accept_perm h c)

lemma accept_comm (hsymm : ∀ a b, edge a b = edge b a) {a b : α} (hab : edge a b = true)
    (cluster : List α) : (accept edge (accept edge cluster a) b).Perm
      (accept edge (accept edge cluster b) a) := by
  have hba : edge b a = true := by rw [hsymm, hab]
  unfold accept
  by_cases ha : cluster.all (fun m => edge m a) = true <;>
    by_cases hb : cluster.all (fun m => edge m b) = true
  · have h₁ : (cluster ++ [a]).all (fun m => edge m b) = true := by simp [hb, hab]
    have h₂ : (cluster ++ [b]).all (fun m => edge m a) = true := by simp [ha, hba]
    rw [if_pos ha, if_pos hb, if_pos h₁, if_pos h₂, List.append_assoc, List.append_assoc]
    exact (List.Perm.swap b a []).append_left cluster
  · have h₁ : ¬(cluster ++ [a]).all (fun m => edge m b) = true := by simp [hb]
    rw [if_pos ha, if_neg hb, if_neg h₁, if_pos ha]
  · have h₂ : ¬(cluster ++ [b]).all (fun m => edge m a) = true := by simp [ha]
    rw [if_neg ha, if_pos hb, if_neg h₂]
  · rw [if_neg ha, if_neg hb, if_neg ha]

/-- A candidate passes the candidates that it has an edge to. -/
lemma foldl_accept_middle (hsymm : ∀ a b, edge a b = edge b a) {c : α} {pre post : List α}
    (hpre : ∀ p ∈ pre, edge p c = true) (cluster : List α) :
    ((pre ++ c :: post).foldl (accept edge) cluster).Perm
      ((c :: (pre ++ post)).foldl (accept edge) cluster) := by
  induction pre generalizing cluster with
  | nil => exact List.Perm.refl _
  | cons p pre ih =>
    refine (ih (fun q hq => hpre q (List.mem_cons_of_mem p hq)) _).trans ?_
    exact foldl_accept_perm_cluster (accept_comm hsymm (hpre p List.mem_cons_self) cluster) _

/-- Candidates in the order of a rank, in which only candidates with an edge are equal, make up one
cluster. -/
theorem foldl_accept_perm {ρ : Type*} [LinearOrder ρ] (rank : α → ρ)
    (hsymm : ∀ a b, edge a b = edge b a) {cs' : List α} (hperm : cs.Perm cs') (hnodup : cs.Nodup)
    (hsorted : cs.Pairwise fun a b => rank b ≤ rank a)
    (hsorted' : cs'.Pairwise fun a b => rank b ≤ rank a)
    (hties : ∀ a ∈ cs, ∀ b ∈ cs, a ≠ b → rank a = rank b → edge a b = true) (cluster : List α) :
    (cs.foldl (accept edge) cluster).Perm (cs'.foldl (accept edge) cluster) := by
  induction cs generalizing cs' cluster with
  | nil => rw [List.nil_perm.mp hperm]
  | cons c cs ih =>
    obtain ⟨pre, post, rfl⟩ := List.append_of_mem (hperm.subset List.mem_cons_self)
    have hrest : cs.Perm (pre ++ post) :=
      (hperm.trans List.perm_middle).cons_inv
    rw [List.nodup_cons] at hnodup
    rw [List.pairwise_cons] at hsorted
    -- what stands before the candidate is of the same rank
    have hpre : ∀ p ∈ pre, edge p c = true := by
      intro p hp
      have hmem : p ∈ cs := hrest.mem_iff.mpr (List.mem_append_left post hp)
      refine hties p (List.mem_cons_of_mem c hmem) c List.mem_cons_self ?_ (le_antisymm ?_ ?_)
      · rintro rfl
        exact hnodup.1 hmem
      · exact hsorted.1 p hmem
      · exact (List.pairwise_append.mp hsorted').2.2 p hp c List.mem_cons_self
    have hsub : (pre ++ post).Sublist (pre ++ c :: post) :=
      (List.sublist_cons_self c post).append_left pre
    refine List.Perm.trans ?_ (foldl_accept_middle hsymm hpre cluster).symm
    exact ih hrest hnodup.2 hsorted.2 (hsorted'.sublist hsub)
      (fun a ha b hb => hties a (List.mem_cons_of_mem c ha) b (List.mem_cons_of_mem c hb)) _

/-- Candidates that grow the same clusters make up the same packing. -/
theorem pack_perm [DecidableEq α] {cands' : List α → α → List α}
    (hgrow : ∀ seed ∈ seeds, ∀ assigned assigned' : List α, assigned.Perm assigned' →
      (grow edge seed (cands assigned seed)).Perm (grow edge seed (cands' assigned' seed)))
    {assigned' : List α} (h : assigned.Perm assigned') :
    List.Forall₂ List.Perm (pack edge cands seeds assigned) (pack edge cands' seeds assigned') := by
  induction seeds generalizing assigned assigned' with
  | nil => exact List.Forall₂.nil
  | cons seed seeds ih =>
    have hrest : ∀ {l l' : List α}, l.Perm l' →
        List.Forall₂ List.Perm (pack edge cands seeds l) (pack edge cands' seeds l') :=
      fun hl => ih (fun s hs => hgrow s (List.mem_cons_of_mem seed hs)) hl
    have hcluster := hgrow seed List.mem_cons_self assigned assigned' h
    rw [pack, pack]
    by_cases hseed : seed ∈ assigned
    · rw [if_pos hseed, if_pos (h.mem_iff.mp hseed)]
      exact hrest h
    · rw [if_neg hseed, if_neg fun hs => hseed (h.mem_iff.mpr hs)]
      dsimp only
      rw [← hcluster.length_eq]
      split_ifs
      · exact List.Forall₂.cons hcluster (hrest (h.append hcluster))
      · exact hrest h

/-! ## A clique as a whole -/

/-- Candidates with an edge to the members and to each other all join. -/
lemma foldl_accept_of_clique (hcluster : ∀ m ∈ cluster, ∀ c ∈ cs, edge m c = true)
    (hcs : cs.Pairwise fun a b => edge a b = true) :
    cs.foldl (accept edge) cluster = cluster ++ cs := by
  induction cs generalizing cluster with
  | nil => exact (List.append_nil cluster).symm
  | cons c cs ih =>
    rw [List.pairwise_cons] at hcs
    have haccept : accept edge cluster c = cluster ++ [c] :=
      if_pos (List.all_eq_true.mpr fun m hm => hcluster m hm c List.mem_cons_self)
    rw [List.foldl_cons, haccept, ih ?_ hcs.2, List.append_assoc, List.singleton_append]
    intro m hm d hd
    rcases List.mem_append.mp hm with hm | hm
    · exact hcluster m hm d (List.mem_cons_of_mem c hd)
    · rw [List.mem_singleton.mp hm]
      exact hcs.1 d hd

lemma pack_of_assigned [DecidableEq α] (h : seeds ⊆ assigned) :
    pack edge cands seeds assigned = [] := by
  induction seeds with
  | nil => rfl
  | cons seed seeds ih =>
    rw [pack, if_pos (h List.mem_cons_self)]
    exact ih fun x hx => h (List.mem_cons_of_mem seed hx)

/-- Nodes that are a clique are one cluster. -/
theorem pack_of_clique [DecidableEq α] (hclique : IsClique edge (seed :: seeds))
    (hnodup : (seed :: seeds).Nodup) (hne : seeds ≠ [])
    (hcands : (cands [] seed).Perm seeds) :
    ∃ cluster, pack edge cands (seed :: seeds) [] = [cluster] ∧ cluster.Perm (seed :: seeds) := by
  have hcandsNodup : (seed :: cands [] seed).Nodup := (hcands.cons seed).nodup_iff.mpr hnodup
  have hedge : ∀ {a b : α}, a ∈ seed :: cands [] seed → b ∈ seed :: cands [] seed → a ≠ b →
      edge a b = true := fun ha hb hab =>
    hclique _ ((hcands.cons seed).subset ha) _ ((hcands.cons seed).subset hb) hab
  rw [List.nodup_cons] at hcandsNodup
  have hgrow : grow edge seed (cands [] seed) = seed :: cands [] seed := by
    refine foldl_accept_of_clique (fun m hm c hc => ?_) ?_
    · rw [List.mem_singleton.mp hm]
      refine hedge List.mem_cons_self (List.mem_cons_of_mem seed hc) ?_
      rintro rfl
      exact hcandsNodup.1 hc
    · refine hcandsNodup.2.imp_of_mem fun ha hb hab => ?_
      exact hedge (List.mem_cons_of_mem seed ha) (List.mem_cons_of_mem seed hb) hab
  have hlen : 1 < (seed :: cands [] seed).length := by
    have hpos := List.length_pos_iff.mpr hne
    rw [List.length_cons, hcands.length_eq]
    omega
  refine ⟨seed :: cands [] seed, ?_, hcands.cons seed⟩
  rw [pack, if_neg List.not_mem_nil, hgrow]
  dsimp only
  rw [if_pos hlen, pack_of_assigned]
  intro x hx
  exact List.mem_append_right _ (List.mem_cons_of_mem seed (hcands.mem_iff.mpr hx))

end CliquePacking
