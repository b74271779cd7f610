import AtlasMemory.Foundations.CliquePacking
import AtlasMemory.L3Procedural.DeclarativeCascade
import Mathlib.Data.List.Perm.Basic

/-!
# Clusters of similar keys

`connected_components` over any list of keys and any list of similarity pairs, with the order in
which each set is iterated given on its own: Python promises no order, and two sets with the same
elements need not be iterated alike.  Within a fiber the components of the pairs are found by a
breadth-first search; a component of two keys is a cluster, and a larger one is packed greedily with
cliques around its keys, the most central first.
-/

namespace AtlasMemory

namespace DeclarativeConsolidator

/-- The orders in which the sets are iterated: that of `adj[n]`, and that of the candidates of a
seed. -/
structure SetOrders where
  neighbours : String → List String → List String
  neighbours_perm : ∀ n l, (neighbours n l).Perm l
  candidates : String → List String → List String
  candidates_perm : ∀ seed l, (candidates seed l).Perm l

/-- A pair of keys with their similarity. -/
abbrev SimilarityPair := String × String × ℚ

variable (nodes : List String) (pairs : List SimilarityPair)

def isPairOf (p : SimilarityPair) : Bool := decide (p.1 ∈ nodes ∧ p.2.1 ∈ nodes)

/-- `edge_sim`. -/
def pairSims : PyDict (String × String) ℚ :=
  (pairs.filter (isPairOf nodes)).foldl (fun d p => d.set (ends p.1 p.2.1) p.2.2) ∅

/-- `(min(a, b), max(a, b)) in edge_sim`. -/
def hasSim (a b : String) : Bool := (pairSims nodes pairs).contains (ends a b)

/-- `edge_sim.get((min(a, b), max(a, b)), 0.0)`. -/
def simOf (a b : String) : ℚ := ((pairSims nodes pairs).get? (ends a b)).getD 0

/-- The elements of `adj[n]`. -/
def adjacent (n : String) : List String :=
  ((pairs.filter (isPairOf nodes)).filterMap fun p =>
    if p.1 = n then some p.2.1 else if p.2.1 = n then some p.1 else none).eraseDups

variable (orders : SetOrders)

/-- The candidates of a seed, the most similar first. -/
def candidatesOf (comp assigned : List String) (seed : String) : List String :=
  sortDescending (fun v => (simOf nodes pairs seed v, 0))
    (orders.candidates seed
      ((adjacent nodes pairs seed).filter fun v => decide (v ∈ comp ∧ v ∉ assigned)))

/-- `(len(adj[u] & set(comp)), sum(edge_sim …))`. -/
def centrality (comp : List String) (u : String) : ℚ × ℚ :=
  (((adjacent nodes pairs u).filter (· ∈ comp)).length,
    ((comp.filter (· ≠ u)).map (simOf nodes pairs u)).sum)

def packComponent (comp : List String) : List (List String) :=
  match comp with
  | [] | [_] => []
  | [a, b] => if hasSim nodes pairs a b then [sortKeys [a, b]] else []
  | _ =>
    (CliquePacking.pack (hasSim nodes pairs) (candidatesOf nodes pairs orders comp)
      (sortDescending (centrality nodes pairs comp) comp) []).map sortKeys

def fiberComponents (fiber : List String) : List (List String) :=
  BreadthFirst.components
    (fun n => (orders.neighbours n (adjacent nodes pairs n)).filter (· ∈ fiber)) fiber

/-- `connected_components`. -/
def clusters (env : CascadeEnv) : List (List String) :=
  if nodes = [] ∨ pairs = [] then []
  else (fibers env nodes).flatMap fun fiber =>
    if fiber.length < 2 then []
    else (fiberComponents nodes pairs orders fiber).flatMap (packComponent nodes pairs orders)

/-- A similarity pair of the list is between the two nodes. -/
def Linked (a b : String) : Prop :=
  ∃ p ∈ pairs, isPairOf nodes p = true ∧ (p.1 = a ∧ p.2.1 = b ∨ p.1 = b ∧ p.2.1 = a)

/-- The pairs are between distinct keys. -/
def ProperPairs : Prop := ∀ p ∈ pairs, p.1 ≠ p.2.1

variable {nodes pairs orders}

/-! ## The pairs as a graph -/

lemma ends_eq_iff {a b c d : String} :
    ends a b = ends c d ↔ a = c ∧ b = d ∨ a = d ∧ b = c := by
  unfold ends
  split_ifs with h h' h' <;> simp only [Prod.mk.injEq]
  · constructor
    · exact Or.inl
    · rintro (heq | ⟨rfl, rfl⟩)
      · exact heq
      · have heq := le_antisymm h h'
        exact ⟨heq, heq.symm⟩
  · constructor
    · exact Or.inr
    · rintro (⟨rfl, rfl⟩ | heq)
      · exact absurd h h'
      · exact heq
  · constructor
    · rintro ⟨rfl, rfl⟩
      exact Or.inr ⟨rfl, rfl⟩
    · rintro (⟨rfl, rfl⟩ | ⟨rfl, rfl⟩)
      · exact absurd h' h
      · exact ⟨rfl, rfl⟩
  · constructor
    · rintro ⟨rfl, rfl⟩
      exact Or.inl ⟨rfl, rfl⟩
    · rintro (⟨rfl, rfl⟩ | ⟨rfl, rfl⟩)
      · exact ⟨rfl, rfl⟩
      · have h₁ := not_le.mp h
        exact absurd (le_of_lt h₁) h'

lemma linked_comm {a b : String} : Linked nodes pairs a b ↔ Linked nodes pairs b a := by
  unfold Linked
  simp only [or_comm]

lemma hasSim_iff {a b : String} : hasSim nodes pairs a b = true ↔ Linked nodes pairs a b := by
  have hfold : ∀ (ps : List SimilarityPair) (d : PyDict (String × String) ℚ),
      ((ps.foldl (fun d p => d.set (ends p.1 p.2.1) p.2.2) d).get? (ends a b)).isSome = true ↔
        (d.get? (ends a b)).isSome = true ∨ ∃ p ∈ ps, ends p.1 p.2.1 = ends a b := by
    intro ps
    induction ps with
    | nil => simp
    | cons p ps ih =>
      intro d
      rw [List.foldl_cons, ih, PyDict.get?_set]
      by_cases hp : ends p.1 p.2.1 = ends a b <;> simp [hp]
  unfold hasSim PyDict.contains pairSims
  rw [hfold, Linked]
  simp only [PyDict.get?_empty, Option.isSome_none, Bool.false_eq_true, false_or, List.mem_filter,
    ends_eq_iff, and_assoc]

lemma hasSim_comm (a b : String) : hasSim nodes pairs a b = hasSim nodes pairs b a := by
  rw [Bool.eq_iff_iff, hasSim_iff, hasSim_iff, linked_comm]

lemma not_linked_self (hpairs : ProperPairs pairs) (a : String) : ¬Linked nodes pairs a a := by
  rintro ⟨p, hp, -, ⟨h₁, h₂⟩ | ⟨h₁, h₂⟩⟩
  · exact hpairs p hp (h₁.trans h₂.symm)
  · exact hpairs p hp (h₁.trans h₂.symm)

lemma hasSim_self (hpairs : ProperPairs pairs) (a : String) : hasSim nodes pairs a a = false := by
  rw [← Bool.not_eq_true, hasSim_iff]
  exact not_linked_self hpairs a

lemma mem_adjacent {n v : String} : v ∈ adjacent nodes pairs n ↔ Linked nodes pairs n v := by
  unfold adjacent Linked
  rw [List.mem_eraseDups, List.mem_filterMap]
  constructor
  · rintro ⟨p, hp, hv⟩
    obtain ⟨hmem, hof⟩ := List.mem_filter.mp hp
    refine ⟨p, hmem, hof, ?_⟩
    split_ifs at hv with h₁ h₂
    · exact Or.inl ⟨h₁, Option.some.inj hv⟩
    · exact Or.inr ⟨Option.some.inj hv, h₂⟩
  · rintro ⟨p, hmem, hof, ⟨h₁, h₂⟩ | ⟨h₁, h₂⟩⟩
    · exact ⟨p, List.mem_filter.mpr ⟨hmem, hof⟩, by rw [if_pos h₁, h₂]⟩
    · refine ⟨p, List.mem_filter.mpr ⟨hmem, hof⟩, ?_⟩
      by_cases h : p.1 = n
      · rw [if_pos h, h₂, ← h, h₁]
      · rw [if_neg h, if_pos h₂, h₁]

lemma perm_sortDescending {α : Type} (key : α → ℚ × ℚ) (l : List α) :
    (sortDescending key l).Perm l := List.perm_insertionSort _ l

lemma perm_sortKeys (l : List String) : (sortKeys l).Perm l := List.perm_insertionSort _ l

/-! ## One component -/

lemma candidates_candidatesOf (comp : List String) :
    CliquePacking.Candidates (hasSim nodes pairs) comp (candidatesOf nodes pairs orders comp) := by
  intro assigned seed v
  unfold candidatesOf
  rw [(perm_sortDescending _ _).mem_iff, (orders.candidates_perm seed _).mem_iff, List.mem_filter,
    mem_adjacent, decide_eq_true_eq, hasSim_iff]
  constructor
  · rintro ⟨hlink, hcomp, hfree⟩
    exact ⟨hcomp, hlink, hfree⟩
  · rintro ⟨hcomp, hlink, hfree⟩
    exact ⟨hlink, hcomp, hfree⟩

/-- The clusters of some nodes: cliques of at least two of them that share none, such that no pair
is left over. -/
structure Packs (nodes : List String) (pairs : List SimilarityPair) (comp : List String)
    (result : List (List String)) : Prop where
  clique : ∀ cluster ∈ result, ∀ a ∈ cluster, ∀ b ∈ cluster, a ≠ b → Linked nodes pairs a b
  size : ∀ cluster ∈ result, 2 ≤ cluster.length
  nodup : result.flatten.Nodup
  subset : ∀ cluster ∈ result, cluster ⊆ comp
  covered : ∀ a ∈ comp, ∀ b ∈ comp, Linked nodes pairs a b →
    ∃ cluster ∈ result, a ∈ cluster ∨ b ∈ cluster

lemma perm_flatten_map_sortKeys (L : List (List String)) :
    (L.map sortKeys).flatten.Perm L.flatten := by
  induction L with
  | nil => exact List.Perm.refl _
  | cons l L ih =>
    rw [List.map_cons, List.flatten_cons, List.flatten_cons]
    exact (perm_sortKeys l).append ih

lemma Packs.map_sortKeys {comp : List String} {result : List (List String)}
    (h : Packs nodes pairs comp result) : Packs nodes pairs comp (result.map sortKeys) where
  clique cluster hcluster a ha b hb := by
    obtain ⟨c, hc, rfl⟩ := List.mem_map.mp hcluster
    exact h.clique c hc a ((perm_sortKeys c).mem_iff.mp ha) b ((perm_sortKeys c).mem_iff.mp hb)
  size cluster hcluster := by
    obtain ⟨c, hc, rfl⟩ := List.mem_map.mp hcluster
    rw [(perm_sortKeys c).length_eq]
    exact h.size c hc
  nodup := (perm_flatten_map_sortKeys result).nodup_iff.mpr h.nodup
  subset cluster hcluster := by
    obtain ⟨c, hc, rfl⟩ := List.mem_map.mp hcluster
    exact fun x hx => h.subset c hc ((perm_sortKeys c).mem_iff.mp hx)
  covered a ha b hb hab := by
    obtain ⟨c, hc, hmem⟩ := h.covered a ha b hb hab
    refine ⟨sortKeys c, List.mem_map_of_mem hc, ?_⟩
    rwa [(perm_sortKeys c).mem_iff, (perm_sortKeys c).mem_iff]

lemma packs_pack (hpairs : ProperPairs pairs) (comp : List String) :
    Packs nodes pairs comp (CliquePacking.pack (hasSim nodes pairs)
      (candidatesOf nodes pairs orders comp)
      (sortDescending (centrality nodes pairs comp) comp) []) := by
  have hseeds := perm_sortDescending (centrality nodes pairs comp) comp
  obtain ⟨hclusters, hnodup, -, hcovered⟩ := @CliquePacking.pack_spec _ (hasSim nodes pairs) comp []
    (sortDescending (centrality nodes pairs comp) comp) (candidatesOf nodes pairs orders comp) _
    hasSim_comm (hasSim_self hpairs) (candidates_candidatesOf comp) hseeds.subset
  refine ⟨fun cluster h a ha b hb hne => ?_, fun cluster h => (hclusters cluster h).2.1, hnodup,
    fun cluster h => (hclusters cluster h).2.2, fun a ha b hb hab => ?_⟩
  · exact hasSim_iff.mp ((hclusters cluster h).1 a ha b hb hne)
  · rcases hcovered a (hseeds.mem_iff.mpr ha) b hb (hasSim_iff.mpr hab) with h | h | h | h
    · exact absurd h List.not_mem_nil
    · exact absurd h List.not_mem_nil
    · obtain ⟨cluster, hcluster, hmem⟩ := List.mem_flatten.mp h
      exact ⟨cluster, hcluster, Or.inl hmem⟩
    · obtain ⟨cluster, hcluster, hmem⟩ := List.mem_flatten.mp h
      exact ⟨cluster, hcluster, Or.inr hmem⟩

lemma packs_nil {comp : List String} (h : ∀ a ∈ comp, ∀ b ∈ comp, ¬Linked nodes pairs a b) :
    Packs nodes pairs comp [] where
  clique := nofun
  size := nofun
  nodup := List.nodup_nil
  subset := nofun
  covered a ha b hb hab := absurd hab (h a ha b hb)

lemma packs_packComponent (hpairs : ProperPairs pairs) {comp : List String} (hcomp : comp.Nodup) :
    Packs nodes pairs comp (packComponent nodes pairs orders comp) := by
  unfold packComponent
  split
  · exact packs_nil nofun
  · rename_i x
    refine packs_nil fun a ha b hb => ?_
    rw [List.mem_singleton.mp ha, List.mem_singleton.mp hb]
    exact not_linked_self hpairs x
  · rename_i x y
    have hxy : x ≠ y := by
      rintro rfl
      exact (List.nodup_cons.mp hcomp).1 (List.mem_singleton_self x)
    split_ifs with hsim
    · have hlink := hasSim_iff.mp hsim
      refine @Packs.map_sortKeys _ _ _ [[x, y]] ⟨?_, ?_, ?_, ?_, ?_⟩
      · intro cluster hcluster a ha b hb hne
        rw [List.mem_singleton.mp hcluster] at ha hb
        simp only [List.mem_cons, List.not_mem_nil, or_false] at ha hb
        rcases ha with rfl | rfl <;> rcases hb with rfl | rfl
        · exact absurd rfl hne
        · exact hlink
        · exact linked_comm.mp hlink
        · exact absurd rfl hne
      · intro cluster hcluster
        rw [List.mem_singleton.mp hcluster]
        exact le_rfl
      · simpa using hxy
      · intro cluster hcluster
        rw [List.mem_singleton.mp hcluster]
        exact List.Subset.refl _
      · exact fun a ha b _ _ => ⟨[x, y], List.mem_singleton_self _, Or.inl ha⟩
    · refine packs_nil fun a ha b hb hab => hsim ?_
      simp only [List.mem_cons, List.not_mem_nil, or_false] at ha hb
      rcases ha with rfl | rfl <;> rcases hb with rfl | rfl
      · exact absurd hab (not_linked_self hpairs _)
      · exact hasSim_iff.mpr hab
      · exact hasSim_iff.mpr (linked_comm.mp hab)
      · exact absurd hab (not_linked_self hpairs _)
  · exact (packs_pack hpairs comp).map_sortKeys

/-! ## All components -/

/-- Packings of parts that share nothing make up a packing that shares nothing. -/
lemma nodup_flatten_flatMap {parts : List (List String)} {pack : List String → List (List String)}
    (hparts : parts.flatten.Nodup)
    (hpack : ∀ part ∈ parts, (pack part).flatten.Nodup ∧ ∀ x ∈ (pack part).flatten, x ∈ part) :
    (parts.flatMap pack).flatten.Nodup := by
  induction parts with
  | nil => exact List.nodup_nil
  | cons part parts ih =>
    rw [List.flatten_cons, List.nodup_append] at hparts
    obtain ⟨-, hrest, hdisjoint⟩ := hparts
    obtain ⟨hnodup, hsub⟩ := hpack part List.mem_cons_self
    rw [List.flatMap_cons, List.flatten_append, List.nodup_append]
    refine ⟨hnodup, ih hrest fun p hp => hpack p (List.mem_cons_of_mem part hp), ?_⟩
    rintro x hx y hy rfl
    obtain ⟨cluster, hcluster, hxc⟩ := List.mem_flatten.mp hy
    obtain ⟨p, hp, hmem⟩ := List.mem_flatMap.mp hcluster
    have hxp := (hpack p (List.mem_cons_of_mem part hp)).2 x
      (List.mem_flatten.mpr ⟨cluster, hmem, hxc⟩)
    exact hdisjoint x (hsub x hx) x (List.mem_flatten.mpr ⟨p, hp, hxp⟩) rfl

lemma Packs.mem_of_mem_flatten {comp : List String} {result : List (List String)}
    (h : Packs nodes pairs comp result) : ∀ x ∈ result.flatten, x ∈ comp := by
  intro x hx
  obtain ⟨cluster, hcluster, hmem⟩ := List.mem_flatten.mp hx
  exact h.subset cluster hcluster hmem

/-- Packings of parts, with no pair between two of them. -/
lemma packs_flatMap {whole : List String} {parts : List (List String)}
    {pack : List String → List (List String)} (hparts : parts.flatten.Nodup)
    (hwhole : ∀ x, x ∈ parts.flatten ↔ x ∈ whole)
    (hclosed : ∀ part ∈ parts, ∀ a ∈ part, ∀ b ∈ whole, Linked nodes pairs a b → b ∈ part)
    (hpack : ∀ part ∈ parts, Packs nodes pairs part (pack part)) :
    Packs nodes pairs whole (parts.flatMap pack) where
  clique cluster hcluster := by
    obtain ⟨part, hpart, hmem⟩ := List.mem_flatMap.mp hcluster
    exact (hpack part hpart).clique cluster hmem
  size cluster hcluster := by
    obtain ⟨part, hpart, hmem⟩ := List.mem_flatMap.mp hcluster
    exact (hpack part hpart).size cluster hmem
  nodup := nodup_flatten_flatMap hparts fun part hpart =>
    ⟨(hpack part hpart).nodup, (hpack part hpart).mem_of_mem_flatten⟩
  subset cluster hcluster := by
    obtain ⟨part, hpart, hmem⟩ := List.mem_flatMap.mp hcluster
    intro x hx
    have hsub := (hpack part hpart).subset cluster hmem hx
    exact (hwhole x).mp (List.mem_flatten.mpr ⟨part, hpart, hsub⟩)
  covered a ha b hb hab := by
    obtain ⟨part, hpart, hmem⟩ := List.mem_flatten.mp ((hwhole a).mpr ha)
    obtain ⟨cluster, hcluster, h⟩ :=
      (hpack part hpart).covered a hmem b (hclosed part hpart a hmem b hb hab) hab
    exact ⟨cluster, List.mem_flatMap.mpr ⟨part, hpart, hcluster⟩, h⟩

lemma mem_fiberNeighbours {fiber : List String} {a b : String} :
    b ∈ (orders.neighbours a (adjacent nodes pairs a)).filter (· ∈ fiber) ↔
      Linked nodes pairs a b ∧ b ∈ fiber := by
  rw [List.mem_filter, (orders.neighbours_perm a _).mem_iff, mem_adjacent, decide_eq_true_eq]

lemma fiberComponents_spec (fiber : List String) :
    (fiberComponents nodes pairs orders fiber).flatten.Nodup ∧
      ∀ x, x ∈ (fiberComponents nodes pairs orders fiber).flatten ↔ x ∈ fiber :=
  @BreadthFirst.components_spec _ _
    (fun n => (orders.neighbours n (adjacent nodes pairs n)).filter (· ∈ fiber)) fiber
    fun _ _ hy => (mem_fiberNeighbours.mp hy).2

/-- A component of a fiber contains what its keys are paired with in the fiber. -/
lemma fiberComponents_closed {fiber comp : List String}
    (hcomp : comp ∈ fiberComponents nodes pairs orders fiber) {a b : String} (ha : a ∈ comp)
    (hb : b ∈ fiber) (hab : Linked nodes pairs a b) : b ∈ comp := by
  have hclosed := @BreadthFirst.components_closed _ _
    (fun n => (orders.neighbours n (adjacent nodes pairs n)).filter (· ∈ fiber)) fiber
    (fun x y hy => (mem_fiberNeighbours.mp hy).2) fun x hx y hy =>
      mem_fiberNeighbours.mpr ⟨linked_comm.mp (mem_fiberNeighbours.mp hy).1, hx⟩
  exact hclosed comp hcomp a ha (mem_fiberNeighbours.mpr ⟨hab, hb⟩)

lemma packs_fiber (hpairs : ProperPairs pairs) (fiber : List String) :
    Packs nodes pairs fiber
      ((fiberComponents nodes pairs orders fiber).flatMap (packComponent nodes pairs orders)) := by
  obtain ⟨hnodup, hall⟩ := fiberComponents_spec fiber
  refine packs_flatMap hnodup hall (fun part hpart a ha b hb hab => ?_) fun part hpart => ?_
  · exact fiberComponents_closed hpart ha hb hab
  · exact packs_packComponent hpairs ((List.nodup_flatten.mp hnodup).1 part hpart)

/-! ## Fibers -/

variable {env : CascadeEnv}

lemma mem_fibers_iff {fiber : List String} : fiber ∈ fibers env nodes ↔
    ∃ n ∈ nodes, fiber = nodes.filter fun m => fiberKey env m = fiberKey env n := by
  unfold fibers
  simp only [List.mem_map, List.mem_eraseDups]
  constructor
  · rintro ⟨k, ⟨n, hn, rfl⟩, rfl⟩
    exact ⟨n, hn, rfl⟩
  · rintro ⟨n, hn, rfl⟩
    exact ⟨_, ⟨n, hn, rfl⟩, rfl⟩

lemma nodup_eraseDups {α : Type} [BEq α] [LawfulBEq α] : ∀ l : List α, l.eraseDups.Nodup
  | [] => by simp
  | a :: l => by
    rw [List.eraseDups_cons, List.nodup_cons]
    refine ⟨fun h => ?_, nodup_eraseDups _⟩
    rw [List.mem_eraseDups, List.mem_filter] at h
    simp at h
termination_by l => l.length
decreasing_by exact Nat.lt_succ_of_le (List.length_filter_le _ l)

lemma nodup_flatten_fibers (hnodes : nodes.Nodup) : (fibers env nodes).flatten.Nodup := by
  unfold fibers
  rw [List.nodup_flatten, List.pairwise_map]
  refine ⟨fun l hl => ?_, (nodup_eraseDups _).imp fun hne => ?_⟩
  · obtain ⟨k, -, rfl⟩ := List.mem_map.mp hl
    exact hnodes.filter _
  · intro x hx hy
    have h₁ := (List.mem_filter.mp hx).2
    have h₂ := (List.mem_filter.mp hy).2
    rw [decide_eq_true_eq] at h₁ h₂
    exact hne (h₁.symm.trans h₂)

lemma clusters_eq (hne : ¬(nodes = [] ∨ pairs = [])) : clusters nodes pairs orders env =
    (fibers env nodes).flatMap fun fiber =>
      if fiber.length < 2 then []
      else (fiberComponents nodes pairs orders fiber).flatMap (packComponent nodes pairs orders) :=
  if_neg hne

lemma packs_fiberClusters (hpairs : ProperPairs pairs) (fiber : List String) :
    Packs nodes pairs fiber (if fiber.length < 2 then []
      else (fiberComponents nodes pairs orders fiber).flatMap
        (packComponent nodes pairs orders)) := by
  split_ifs with hlen
  · refine packs_nil fun a ha b hb hab => ?_
    match fiber with
    | [] => exact absurd ha List.not_mem_nil
    | [x] =>
      rw [List.mem_singleton.mp ha, List.mem_singleton.mp hb] at hab
      exact not_linked_self hpairs x hab
    | x :: y :: rest => exact absurd hlen (by simp)
  · exact packs_fiber hpairs fiber

/-- **The clusters**, for distinct keys and pairs between distinct keys, and whatever the order in
which the sets are iterated: no two share a key, each has at least two keys, of one fiber and with a
pair between every two of them, and of each pair of two keys of one fiber one key is in a cluster. -/
theorem clusters_pack (env : CascadeEnv) (orders : SetOrders) {nodes : List String}
    {pairs : List SimilarityPair} (hnodes : nodes.Nodup) (hpairs : ProperPairs pairs) :
    (clusters nodes pairs orders env).Pairwise List.Disjoint ∧
    (∀ cluster ∈ clusters nodes pairs orders env,
      cluster.Nodup ∧ 2 ≤ cluster.length ∧ cluster ⊆ nodes ∧
      (∀ a ∈ cluster, ∀ b ∈ cluster, fiberKey env a = fiberKey env b) ∧
      ∀ a ∈ cluster, ∀ b ∈ cluster, a ≠ b → Linked nodes pairs a b) ∧
    ∀ a ∈ nodes, ∀ b ∈ nodes, fiberKey env a = fiberKey env b → Linked nodes pairs a b →
      ∃ cluster ∈ clusters nodes pairs orders env, a ∈ cluster ∨ b ∈ cluster := by
  by_cases hne : nodes = [] ∨ pairs = []
  · have hempty : clusters nodes pairs orders env = [] := if_pos hne
    rw [hempty]
    refine ⟨List.Pairwise.nil, nofun, ?_⟩
    rintro a ha b - - ⟨p, hp, -⟩
    rcases hne with rfl | rfl
    · exact absurd ha List.not_mem_nil
    · exact absurd hp List.not_mem_nil
  rw [clusters_eq hne]
  have hfiber := @packs_fiberClusters nodes pairs orders hpairs
  have hflat : ((fibers env nodes).flatMap fun fiber =>
      if fiber.length < 2 then []
      else (fiberComponents nodes pairs orders fiber).flatMap
        (packComponent nodes pairs orders)).flatten.Nodup :=
    nodup_flatten_flatMap (nodup_flatten_fibers hnodes) fun fiber _ =>
      ⟨(hfiber fiber).nodup, (hfiber fiber).mem_of_mem_flatten⟩
  refine ⟨(List.nodup_flatten.mp hflat).2, fun cluster hcluster => ?_, ?_⟩
  · have hnodup := (List.nodup_flatten.mp hflat).1 cluster hcluster
    obtain ⟨fiber, hmem, hin⟩ := List.mem_flatMap.mp hcluster
    obtain ⟨n, -, rfl⟩ := mem_fibers_iff.mp hmem
    have hsub := (hfiber _).subset cluster hin
    have hkey : ∀ a ∈ cluster, fiberKey env a = fiberKey env n := fun a ha =>
      of_decide_eq_true (List.mem_filter.mp (hsub ha)).2
    exact ⟨hnodup, (hfiber _).size cluster hin, fun a ha => (List.mem_filter.mp (hsub ha)).1,
      fun a ha b hb => (hkey a ha).trans (hkey b hb).symm, (hfiber _).clique cluster hin⟩
  · intro a ha b hb hkey hab
    obtain ⟨cluster, hcluster, h⟩ := (hfiber (nodes.filter fun m => fiberKey env m =
      fiberKey env a)).covered a (List.mem_filter.mpr ⟨ha, decide_eq_true rfl⟩) b
        (List.mem_filter.mpr ⟨hb, decide_eq_true hkey.symm⟩) hab
    exact ⟨cluster, List.mem_flatMap.mpr ⟨_, mem_fibers_iff.mpr ⟨a, ha, rfl⟩, hcluster⟩, h⟩

/-- A consolidator without an encoder, for keys in lower case. -/
def plainCascade : CascadeEnv where
  rt := .sample
  lex := sampleLexicon
  rawText v := v.dumps
  isGarbageSubject _ := false
  cosine := none
  setOrder keys := keys

/-- Sets iterated in the order of insertion. -/
def plainOrders : SetOrders where
  neighbours _ l := l
  neighbours_perm _ l := List.Perm.refl l
  candidates _ l := l
  candidates_perm _ l := List.Perm.refl l

/-- Three notes on one entity, of which the middle one is like the other two. -/
def chainNodes : List String := ["note:alpha:a", "note:alpha:b", "note:alpha:c"]

def chainPairs : List SimilarityPair :=
  [("note:alpha:a", "note:alpha:b", 9 / 10), ("note:alpha:b", "note:alpha:c", 9 / 10)]

theorem clusters_pack_chain :
    (clusters chainNodes chainPairs plainOrders plainCascade).Pairwise List.Disjoint ∧
    ∃ cluster ∈ clusters chainNodes chainPairs plainOrders plainCascade,
      "note:alpha:b" ∈ cluster ∨ "note:alpha:c" ∈ cluster := by
  have hnodes : chainNodes.Nodup := by decide
  have hpairs : ProperPairs chainPairs := by
    unfold ProperPairs
    decide
  obtain ⟨hdisjoint, -, hcovered⟩ := clusters_pack plainCascade plainOrders hnodes hpairs
  refine ⟨hdisjoint, hcovered "note:alpha:b" (by decide) "note:alpha:c" (by decide)
    (by decide +kernel) ?_⟩
  exact ⟨_, List.mem_cons_of_mem _ (List.mem_singleton_self _), by decide, Or.inl ⟨rfl, rfl⟩⟩

end DeclarativeConsolidator

end AtlasMemory
