import AtlasMemory.L3Procedural.CliqueClusters
import Mathlib.Algebra.BigOperators.Group.List.Basic
import Mathlib.Data.Prod.Lex
import Mathlib.Logic.Relation

/-!
# The clusters and the order of iteration

`connected_components` sorts the seeds of a component and the candidates of a seed with a stable
sort, which leaves keys of the same score in the order in which a set or a search gave them.  Where
no such tie is left open the clusters are the same for every order: in a component that is a single
clique, and in one whose keys differ in their centrality and in which two neighbours of a key that
are equally similar to it are paired themselves.
-/

namespace AtlasMemory

namespace DeclarativeConsolidator

/-- The list has a pair of these two keys with this similarity. -/
def Listed (pairs : List SimilarityPair) (a b : String) (s : ℚ) : Prop :=
  (a, b, s) ∈ pairs ∨ (b, a, s) ∈ pairs

/-- The lists have the same pairs, in any order, either way round and as often as they like. -/
def SamePairs (pairs pairs' : List SimilarityPair) : Prop :=
  ∀ a b s, Listed pairs a b s ↔ Listed pairs' a b s

variable (env : CascadeEnv) (nodes : List String) (pairs : List SimilarityPair)

/-- Paired, and in one fiber. -/
def FiberLinked (a b : String) : Prop :=
  Linked nodes pairs a b ∧ fiberKey env a = fiberKey env b

/-- In one component of a fiber. -/
def Joined : String → String → Prop := Relation.ReflTransGen (FiberLinked env nodes pairs)

/-- The keys of the fiber that are paired with a key. -/
def peers (u : String) : List String :=
  (adjacent nodes pairs u).filter fun v => fiberKey env v = fiberKey env u

/-- How many peers a key has, and how similar they are in sum. -/
def weight (u : String) : ℚ × ℚ :=
  ((peers env nodes pairs u).length,
    (((peers env nodes pairs u).filter (· ≠ u)).map (simOf nodes pairs u)).sum)

/-- The component of a key has at most one other key. -/
def Small (a : String) : Prop :=
  ∀ b c, Joined env nodes pairs a b → Joined env nodes pairs a c → b ≠ a → c ≠ a → b = c

/-- The component of a key is a clique. -/
structure Complete (a : String) : Prop where
  linked : ∀ b c, Joined env nodes pairs a b → Joined env nodes pairs a c → b ≠ c →
    Linked nodes pairs b c
  loopless : ∀ b, Joined env nodes pairs a b → ¬Linked nodes pairs b b

/-- In the component of a key no tie is left open. -/
structure TieFree (a : String) : Prop where
  seeds : ∀ b c, Joined env nodes pairs a b → Joined env nodes pairs a c → b ≠ c →
    weight env nodes pairs b ≠ weight env nodes pairs c
  candidates : ∀ b c d, Joined env nodes pairs a b → FiberLinked env nodes pairs b c →
    FiberLinked env nodes pairs b d → c ≠ d → simOf nodes pairs b c = simOf nodes pairs b d →
      Linked nodes pairs c d

/-- No two keys are listed with two similarities, and no component leaves a tie open. -/
structure Settled : Prop where
  one_sim : ∀ a ∈ nodes, ∀ b ∈ nodes, ∀ s t, Listed pairs a b s → Listed pairs a b t → s = t
  component : ∀ a ∈ nodes,
    Small env nodes pairs a ∨ Complete env nodes pairs a ∨ TieFree env nodes pairs a

variable {env nodes pairs} {nodes' : List String} {pairs' : List SimilarityPair}

/-! ## Sorted lists -/

lemma pairwise_sortDescending {α : Type} (key : α → ℚ × ℚ) (l : List α) :
    (sortDescending key l).Pairwise fun a b => toLex (key b) ≤ toLex (key a) := by
  have hrel : ∀ a b : α, ((key b).1 < (key a).1 ∨ (key b).1 = (key a).1 ∧ (key b).2 ≤ (key a).2) ↔
      toLex (key b) ≤ toLex (key a) := fun a b => (Prod.Lex.toLex_le_toLex).symm
  have htotal : Std.Total fun a b : α =>
      (key b).1 < (key a).1 ∨ (key b).1 = (key a).1 ∧ (key b).2 ≤ (key a).2 :=
    ⟨fun a b => by rw [hrel, hrel]; exact le_total _ _⟩
  have htrans : IsTrans α fun a b : α =>
      (key b).1 < (key a).1 ∨ (key b).1 = (key a).1 ∧ (key b).2 ≤ (key a).2 :=
    ⟨fun a b c => by rw [hrel, hrel, hrel]; exact fun h₁ h₂ => h₂.trans h₁⟩
  exact (List.pairwise_insertionSort _ l).imp fun h => (hrel _ _).mp h

/-- Without ties the sorted list does not depend on the order. -/
lemma sortDescending_eq_of_perm {α : Type} {key key' : α → ℚ × ℚ} {l l' : List α} (h : l.Perm l')
    (hkey : ∀ a ∈ l, key' a = key a) (hties : ∀ a ∈ l, ∀ b ∈ l, key a = key b → a = b) :
    sortDescending key l = sortDescending key' l' := by
  have hmem : ∀ {a}, a ∈ sortDescending key l → a ∈ l := fun ha =>
    (perm_sortDescending key l).mem_iff.mp ha
  have hmem' : ∀ {a}, a ∈ sortDescending key' l' → a ∈ l := fun ha =>
    h.mem_iff.mpr ((perm_sortDescending key' l').mem_iff.mp ha)
  have hperm : (sortDescending key l).Perm (sortDescending key' l') :=
    ((perm_sortDescending key l).trans h).trans (perm_sortDescending key' l').symm
  have hsorted' : (sortDescending key' l').Pairwise fun a b => toLex (key b) ≤ toLex (key a) := by
    refine (pairwise_sortDescending key' l').imp_of_mem fun ha hb hab => ?_
    rwa [hkey _ (hmem' ha), hkey _ (hmem' hb)] at hab
  refine List.Perm.eq_of_pairwise (fun a b ha hb h₁ h₂ => ?_) (pairwise_sortDescending key l)
    hsorted' hperm
  exact hties a (hmem ha) b (hmem' hb) (toLex.injective (le_antisymm h₂ h₁))

lemma sortKeys_eq_of_perm {l l' : List String} (h : l.Perm l') : sortKeys l = sortKeys l' := by
  have hperm : (sortKeys l).Perm (sortKeys l') :=
    ((perm_sortKeys l).trans h).trans (perm_sortKeys l').symm
  exact List.Perm.eq_of_pairwise (fun a b _ _ h₁ h₂ => le_antisymm h₁ h₂)
    (List.pairwise_insertionSort _ l) (List.pairwise_insertionSort _ l') hperm

/-! ## The same pairs -/

lemma linked_iff_listed {a b : String} : Linked nodes pairs a b ↔
    a ∈ nodes ∧ b ∈ nodes ∧ ∃ s, Listed pairs a b s := by
  unfold Linked isPairOf Listed
  simp only [decide_eq_true_eq]
  constructor
  · rintro ⟨⟨x, y, s⟩, hp, ⟨hx, hy⟩, ⟨rfl, rfl⟩ | ⟨rfl, rfl⟩⟩
    · exact ⟨hx, hy, s, Or.inl hp⟩
    · exact ⟨hy, hx, s, Or.inr hp⟩
  · rintro ⟨ha, hb, s, hp | hp⟩
    · exact ⟨_, hp, ⟨ha, hb⟩, Or.inl ⟨rfl, rfl⟩⟩
    · exact ⟨_, hp, ⟨hb, ha⟩, Or.inr ⟨rfl, rfl⟩⟩

lemma linked_congr (hnodes : nodes.Perm nodes') (hpairs : SamePairs pairs pairs') :
    Linked nodes pairs = Linked nodes' pairs' := by
  funext a b
  rw [eq_iff_iff, linked_iff_listed, linked_iff_listed, hnodes.mem_iff, hnodes.mem_iff]
  simp only [hpairs a b]

lemma hasSim_congr (hnodes : nodes.Perm nodes') (hpairs : SamePairs pairs pairs') :
    hasSim nodes pairs = hasSim nodes' pairs' := by
  funext a b
  rw [Bool.eq_iff_iff, hasSim_iff, hasSim_iff, linked_congr hnodes hpairs]

/-- What `edge_sim` has for two keys is listed for them. -/
lemma listed_of_get? {a b : String} {s : ℚ}
    (h : (pairSims nodes pairs).get? (ends a b) = some s) : Listed pairs a b s := by
  have hfold : ∀ (ps : List SimilarityPair) (d : PyDict (String × String) ℚ),
      (ps.foldl (fun d p => d.set (ends p.1 p.2.1) p.2.2) d).get? (ends a b) = some s →
        d.get? (ends a b) = some s ∨ ∃ p ∈ ps, ends p.1 p.2.1 = ends a b ∧ p.2.2 = s := by
    intro ps
    induction ps with
    | nil => exact fun _ h => Or.inl h
    | cons p ps ih =>
      intro d h
      rcases ih _ h with h | ⟨q, hq, hqs⟩
      · rw [PyDict.get?_set] at h
        split_ifs at h with hp
        · exact Or.inr ⟨p, List.mem_cons_self, hp, Option.some.inj h⟩
        · exact Or.inl h
      · exact Or.inr ⟨q, List.mem_cons_of_mem p hq, hqs⟩
  rcases hfold _ _ h with h | ⟨⟨x, y, t⟩, hp, hends, rfl⟩
  · rw [PyDict.get?_empty] at h
    cases h
  · have hmem := (List.mem_filter.mp hp).1
    rcases ends_eq_iff.mp hends with ⟨rfl, rfl⟩ | ⟨rfl, rfl⟩
    · exact Or.inl hmem
    · exact Or.inr hmem

lemma simOf_congr (h : Settled env nodes pairs) (hnodes : nodes.Perm nodes')
    (hpairs : SamePairs pairs pairs') : simOf nodes pairs = simOf nodes' pairs' := by
  funext a b
  unfold simOf
  have hsome : ((pairSims nodes pairs).get? (ends a b)).isSome =
      ((pairSims nodes' pairs').get? (ends a b)).isSome :=
    congrFun (congrFun (hasSim_congr hnodes hpairs) a) b
  cases hs : (pairSims nodes pairs).get? (ends a b) with
  | none =>
    rw [hs, Option.isSome_none] at hsome
    rw [Option.isSome_eq_false_iff.mp hsome.symm |> Option.isNone_iff_eq_none.mp]
  | some s =>
    rw [hs, Option.isSome_some] at hsome
    obtain ⟨t, ht⟩ := Option.isSome_iff_exists.mp hsome.symm
    have hlink : Linked nodes pairs a b := hasSim_iff.mp (by simp [hasSim, PyDict.contains, hs])
    obtain ⟨ha, hb, -⟩ := linked_iff_listed.mp hlink
    have heq := h.one_sim a ha b hb s t (listed_of_get? hs)
      ((hpairs a b t).mpr (listed_of_get? ht))
    rw [ht, heq]

lemma nodup_adjacent (n : String) : (adjacent nodes pairs n).Nodup := nodup_eraseDups _

lemma perm_adjacent (hnodes : nodes.Perm nodes') (hpairs : SamePairs pairs pairs') (n : String) :
    (adjacent nodes pairs n).Perm (adjacent nodes' pairs' n) := by
  refine (List.perm_ext_iff_of_nodup (nodup_adjacent n) (nodup_adjacent n)).mpr fun v => ?_
  rw [mem_adjacent, mem_adjacent, linked_congr hnodes hpairs]

lemma weight_congr (h : Settled env nodes pairs) (hnodes : nodes.Perm nodes')
    (hpairs : SamePairs pairs pairs') : weight env nodes pairs = weight env nodes' pairs' := by
  funext u
  have hpeers : (peers env nodes pairs u).Perm (peers env nodes' pairs' u) :=
    (perm_adjacent hnodes hpairs u).filter _
  unfold weight
  rw [hpeers.length_eq, simOf_congr h hnodes hpairs, ((hpeers.filter _).map _).sum_eq]

lemma joined_congr (hnodes : nodes.Perm nodes') (hpairs : SamePairs pairs pairs') :
    Joined env nodes pairs = Joined env nodes' pairs' := by
  unfold Joined FiberLinked
  rw [linked_congr hnodes hpairs]

lemma Complete.congr (hnodes : nodes.Perm nodes') (hpairs : SamePairs pairs pairs') {a : String}
    (h : Complete env nodes pairs a) : Complete env nodes' pairs' a := by
  refine ⟨fun b c hb hc => ?_, fun b hb => ?_⟩
  · rw [← linked_congr hnodes hpairs]
    rw [← joined_congr hnodes hpairs] at hb hc
    exact h.linked b c hb hc
  · rw [← linked_congr hnodes hpairs]
    rw [← joined_congr hnodes hpairs] at hb
    exact h.loopless b hb

lemma SamePairs.symm (h : SamePairs pairs pairs') : SamePairs pairs' pairs :=
  fun a b s => (h a b s).symm

lemma Settled.congr (h : Settled env nodes pairs) (hnodes : nodes.Perm nodes')
    (hpairs : SamePairs pairs pairs') : Settled env nodes' pairs' := by
  refine ⟨fun a ha b hb s t hs ht => ?_, fun a ha => ?_⟩
  · exact h.one_sim a (hnodes.mem_iff.mpr ha) b (hnodes.mem_iff.mpr hb) s t
      ((hpairs a b s).mpr hs) ((hpairs a b t).mpr ht)
  · rcases h.component a (hnodes.mem_iff.mpr ha) with hsmall | hcomplete | hfree
    · refine Or.inl fun b c hb hc => ?_
      rw [← joined_congr hnodes hpairs] at hb hc
      exact hsmall b c hb hc
    · exact Or.inr (Or.inl (hcomplete.congr hnodes hpairs))
    · refine Or.inr (Or.inr ⟨fun b c hb hc => ?_, fun b c d hb hc hd => ?_⟩)
      · rw [← joined_congr hnodes hpairs] at hb hc
        rw [← weight_congr h hnodes hpairs]
        exact hfree.seeds b c hb hc
      · unfold FiberLinked at hc hd
        rw [← joined_congr hnodes hpairs] at hb
        rw [← linked_congr hnodes hpairs] at hc hd ⊢
        rw [← simOf_congr h hnodes hpairs]
        exact hfree.candidates b c d hb hc hd

/-! ## Components -/

section Components

variable {fiber comp : List String} {k : String × String} {orders : SetOrders}

lemma joined_symm {a b : String} (h : Joined env nodes pairs a b) : Joined env nodes pairs b a := by
  induction h with
  | refl => exact Relation.ReflTransGen.refl
  | tail _ hstep ih => exact ih.head ⟨linked_comm.mp hstep.1, hstep.2.symm⟩

lemma mem_nodes_of_linked {a b : String} (h : Linked nodes pairs a b) : a ∈ nodes ∧ b ∈ nodes := by
  obtain ⟨ha, hb, -⟩ := linked_iff_listed.mp h
  exact ⟨ha, hb⟩

/-- A component of a fiber is what is joined with one of its keys. -/
lemma mem_component_iff (hfiber : fiber = nodes.filter fun n => fiberKey env n = k)
    (hcomp : comp ∈ fiberComponents nodes pairs orders fiber) {a b : String} (ha : a ∈ comp) :
    b ∈ comp ↔ Joined env nodes pairs a b := by
  have hkey : ∀ {x}, x ∈ fiber ↔ x ∈ nodes ∧ fiberKey env x = k := by
    intro x
    rw [hfiber, List.mem_filter, decide_eq_true_eq]
  have hin : ∀ x ∈ comp, x ∈ fiber := fun x hx =>
    ((fiberComponents_spec fiber).2 x).mp (List.mem_flatten.mpr ⟨comp, hcomp, hx⟩)
  constructor
  · -- what is joined with the first key of the component is a closed set
    intro hb
    obtain ⟨n, hn, hleast⟩ := BreadthFirst.components_minimal comp hcomp
    have hjoined := hleast {x | x ∈ fiber ∧ Joined env nodes pairs n x}
      ⟨hin n hn, Relation.ReflTransGen.refl⟩ fun x hx y hy => by
        obtain ⟨hlink, hy'⟩ := mem_fiberNeighbours.mp hy
        have hkeys : fiberKey env x = fiberKey env y :=
          (hkey.mp hx.1).2.trans (hkey.mp hy').2.symm
        exact ⟨hy', hx.2.tail ⟨hlink, hkeys⟩⟩
    exact (joined_symm (hjoined a ha).2).trans (hjoined b hb).2
  · intro hab
    induction hab with
    | refl => exact ha
    | tail _ hstep ih =>
      refine fiberComponents_closed hcomp ih (hkey.mpr ⟨?_, ?_⟩) hstep.1
      · exact (mem_nodes_of_linked hstep.1).2
      · rw [← hstep.2]
        exact (hkey.mp (hin _ ih)).2

/-- The sum of a function that is zero outside of a part is its sum over the part. -/
lemma sum_map_filter_of_zero (f : String → ℚ) (p : String → Bool) (l : List String)
    (h : ∀ x ∈ l, p x = false → f x = 0) : (l.map f).sum = ((l.filter p).map f).sum := by
  induction l with
  | nil => rfl
  | cons x l ih =>
    have hrest := ih fun y hy => h y (List.mem_cons_of_mem x hy)
    cases hx : p x with
    | true => rw [List.filter_cons_of_pos hx, List.map_cons, List.map_cons, List.sum_cons,
        List.sum_cons, hrest]
    | false => rw [List.filter_cons_of_neg (by simp [hx]), List.map_cons, List.sum_cons,
        h x List.mem_cons_self hx, zero_add, hrest]

lemma simOf_of_not_linked {a b : String} (h : ¬Linked nodes pairs a b) :
    simOf nodes pairs a b = 0 := by
  have hnone : (pairSims nodes pairs).get? (ends a b) = none := by
    rw [← Option.not_isSome_iff_eq_none]
    exact fun hsome => h (hasSim_iff.mp hsome)
  unfold simOf
  rw [hnone, Option.getD_none]

/-- Within a component the centrality of a key is its weight. -/
lemma centrality_eq_weight (hnodup : comp.Nodup)
    (hcomp : ∀ a ∈ comp, ∀ b, b ∈ comp ↔ Joined env nodes pairs a b)
    (hkeys : ∀ a ∈ comp, ∀ b ∈ comp, fiberKey env a = fiberKey env b) {u : String} (hu : u ∈ comp) :
    centrality nodes pairs comp u = weight env nodes pairs u := by
  have hpeers : (adjacent nodes pairs u).filter (· ∈ comp) = peers env nodes pairs u := by
    unfold peers
    refine List.filter_congr fun v hv => ?_
    rw [decide_eq_decide]
    constructor
    · exact fun hmem => hkeys v hmem u hu
    · intro hkey
      exact (hcomp u hu v).mpr (Relation.ReflTransGen.single ⟨mem_adjacent.mp hv, hkey.symm⟩)
  have hsum : (((peers env nodes pairs u).filter (· ≠ u)).map (simOf nodes pairs u)).sum =
      ((comp.filter (· ≠ u)).map (simOf nodes pairs u)).sum := by
    rw [sum_map_filter_of_zero _ (fun v => decide (v ∈ adjacent nodes pairs u)) (comp.filter _)]
    · refine List.Perm.sum_eq (List.Perm.map _ ?_)
      have hn : (peers env nodes pairs u).Nodup := (nodup_adjacent u).filter _
      refine (List.perm_ext_iff_of_nodup (hn.filter _) ((hnodup.filter _).filter _)).mpr fun v => ?_
      rw [← hpeers]
      simp only [List.mem_filter, decide_eq_true_eq]
      tauto
    · intro v _ hv
      refine simOf_of_not_linked fun hlink => ?_
      rw [decide_eq_false_iff_not, mem_adjacent] at hv
      exact hv hlink
  unfold centrality weight
  rw [hpeers, hsum]

end Components

/-! ## The clusters of a component -/

/-- A component of a fiber, as a list without repetition. -/
structure IsComponent (env : CascadeEnv) (nodes : List String) (pairs : List SimilarityPair)
    (comp : List String) : Prop where
  nodup : comp.Nodup
  joined : ∀ a ∈ comp, ∀ b, b ∈ comp ↔ Joined env nodes pairs a b
  keys : ∀ a ∈ comp, ∀ b ∈ comp, fiberKey env a = fiberKey env b
  nodes : comp ⊆ nodes

section Packing

variable {comp comp' : List String} {orders orders' : SetOrders}

lemma packComponent_of_length_lt (h : comp.length < 2) :
    packComponent nodes pairs orders comp = [] := by
  match comp with
  | [] | [_] => rfl
  | _ :: _ :: _ => exact absurd h (by simp)

lemma packComponent_of_lt_length (h : 2 < comp.length) :
    packComponent nodes pairs orders comp =
      (CliquePacking.pack (hasSim nodes pairs) (candidatesOf nodes pairs orders comp)
        (sortDescending (centrality nodes pairs comp) comp) []).map sortKeys := by
  match comp with
  | [] | [_] | [_, _] => exact absurd h (by simp)
  | _ :: _ :: _ :: _ => rfl

/-- The candidates of a seed are the same up to their order. -/
lemma perm_candidatesOf (hnodes : nodes.Perm nodes') (hpairs : SamePairs pairs pairs')
    (hcomp : comp.Perm comp') {assigned assigned' : List String} (h : assigned.Perm assigned')
    (seed : String) : (candidatesOf nodes pairs orders comp assigned seed).Perm
      (candidatesOf nodes' pairs' orders' comp' assigned' seed) := by
  have hfilter : ((adjacent nodes pairs seed).filter fun v => decide (v ∈ comp ∧ v ∉ assigned)).Perm
      ((adjacent nodes' pairs' seed).filter fun v => decide (v ∈ comp' ∧ v ∉ assigned')) := by
    have hpred : (fun v => decide (v ∈ comp ∧ v ∉ assigned)) =
        fun v => decide (v ∈ comp' ∧ v ∉ assigned') := by
      funext v
      rw [decide_eq_decide, hcomp.mem_iff, h.mem_iff]
    rw [hpred]
    exact (perm_adjacent hnodes hpairs seed).filter _
  unfold candidatesOf
  refine ((perm_sortDescending _ _).trans (orders.candidates_perm seed _)).trans ?_
  exact (hfilter.trans (orders'.candidates_perm seed _).symm).trans (perm_sortDescending _ _).symm

/-- A complete component of more than two keys is one cluster. -/
lemma packComponent_of_complete {a : String} (hcomp : IsComponent env nodes pairs comp)
    (ha : a ∈ comp) (hlen : 2 < comp.length) (h : Complete env nodes pairs a) :
    packComponent nodes pairs orders comp = [sortKeys comp] := by
  have hseeds := perm_sortDescending (centrality nodes pairs comp) comp
  have hlinked : ∀ {b c}, b ∈ comp → c ∈ comp → b ≠ c → Linked nodes pairs b c :=
    fun hb hc => h.linked _ _ ((hcomp.joined a ha _).mp hb) ((hcomp.joined a ha _).mp hc)
  rw [packComponent_of_lt_length hlen]
  generalize sortDescending (centrality nodes pairs comp) comp = seeds at hseeds
  match seeds with
  | [] => exact absurd hseeds.length_eq (by simp; omega)
  | seed :: seeds =>
    have hmem : ∀ {x}, x ∈ seed :: seeds → x ∈ comp := fun hx => hseeds.mem_iff.mp hx
    have hnodup := hseeds.nodup_iff.mpr hcomp.nodup
    have hne : seeds ≠ [] := by
      rintro rfl
      have hlength := hseeds.length_eq
      rw [List.length_singleton] at hlength
      omega
    have hcands : (candidatesOf nodes pairs orders comp [] seed).Perm seeds := by
      have hnd : (candidatesOf nodes pairs orders comp [] seed).Nodup := by
        unfold candidatesOf
        rw [(perm_sortDescending _ _).nodup_iff, (orders.candidates_perm seed _).nodup_iff]
        exact (nodup_adjacent seed).filter _
      rw [List.nodup_cons] at hnodup
      refine (List.perm_ext_iff_of_nodup hnd hnodup.2).mpr fun v => ?_
      rw [candidates_candidatesOf comp [] seed v, hasSim_iff]
      constructor
      · rintro ⟨hv, hlink, -⟩
        rcases List.mem_cons.mp (hseeds.mem_iff.mpr hv) with rfl | hv
        · exact absurd hlink (h.loopless v ((hcomp.joined a ha v).mp hv))
        · exact hv
      · intro hv
        have hv' := hmem (List.mem_cons_of_mem seed hv)
        refine ⟨hv', hlinked (hmem List.mem_cons_self) hv' ?_, List.not_mem_nil⟩
        rintro rfl
        exact hnodup.1 hv
    obtain ⟨cluster, hpack, hperm⟩ := CliquePacking.pack_of_clique
      (fun b hb c hc hbc => hasSim_iff.mpr (hlinked (hmem hb) (hmem hc) hbc)) hnodup hne hcands
    rw [hpack, List.map_singleton, sortKeys_eq_of_perm (hperm.trans hseeds)]

lemma nodup_candidatesOf (assigned : List String) (seed : String) :
    (candidatesOf nodes pairs orders comp assigned seed).Nodup := by
  unfold candidatesOf
  rw [(perm_sortDescending _ _).nodup_iff, (orders.candidates_perm seed _).nodup_iff]
  exact (nodup_adjacent seed).filter _

lemma pairwise_candidatesOf (assigned : List String) (seed : String) :
    (candidatesOf nodes pairs orders comp assigned seed).Pairwise
      fun v w => simOf nodes pairs seed w ≤ simOf nodes pairs seed v := by
  refine (pairwise_sortDescending _ _).imp fun h => ?_
  rcases Prod.Lex.toLex_le_toLex.mp h with h | h
  · exact h.le
  · exact h.1.le

/-- Where no tie is left open, a seed grows the same cluster from its candidates in every order. -/
lemma perm_grow {a seed : String} (hsettled : Settled env nodes pairs)
    (hnodes : nodes.Perm nodes') (hpairs : SamePairs pairs pairs')
    (hcomp : IsComponent env nodes pairs comp) (hperm : comp.Perm comp') (ha : a ∈ comp)
    (h : TieFree env nodes pairs a) (hseed : seed ∈ comp) {assigned assigned' : List String}
    (hassigned : assigned.Perm assigned') :
    (CliquePacking.grow (hasSim nodes' pairs') seed
      (candidatesOf nodes pairs orders comp assigned seed)).Perm
    (CliquePacking.grow (hasSim nodes' pairs') seed
      (candidatesOf nodes' pairs' orders' comp' assigned' seed)) := by
  have hsorted' : (candidatesOf nodes' pairs' orders' comp' assigned' seed).Pairwise
      fun v w => simOf nodes' pairs' seed w ≤ simOf nodes' pairs' seed v :=
    pairwise_candidatesOf assigned' seed
  rw [← simOf_congr hsettled hnodes hpairs] at hsorted'
  rw [← hasSim_congr hnodes hpairs]
  refine CliquePacking.foldl_accept_perm (simOf nodes pairs seed) hasSim_comm
    (perm_candidatesOf hnodes hpairs hperm hassigned seed) (nodup_candidatesOf assigned seed)
    (pairwise_candidatesOf assigned seed) hsorted' (fun v hv w hw hne heq => ?_) [seed]
  have hlinked : ∀ v ∈ candidatesOf nodes pairs orders comp assigned seed,
      FiberLinked env nodes pairs seed v := by
    intro v hv
    obtain ⟨hmem, hsim, -⟩ := (candidates_candidatesOf comp assigned seed v).mp hv
    exact ⟨hasSim_iff.mp hsim, hcomp.keys seed hseed v hmem⟩
  exact hasSim_iff.mpr (h.candidates seed v w ((hcomp.joined a ha seed).mp hseed) (hlinked v hv)
    (hlinked w hw) hne heq)

lemma map_sortKeys_of_forall₂ {L L' : List (List String)} (h : List.Forall₂ List.Perm L L') :
    L.map sortKeys = L'.map sortKeys := by
  induction h with
  | nil => rfl
  | cons hperm _ ih => rw [List.map_cons, List.map_cons, sortKeys_eq_of_perm hperm, ih]

/-- A component without open ties is packed the same way in every order. -/
lemma packComponent_of_tieFree {a : String} (hsettled : Settled env nodes pairs)
    (hnodes : nodes.Perm nodes') (hpairs : SamePairs pairs pairs')
    (hcomp : IsComponent env nodes pairs comp) (hcomp' : IsComponent env nodes' pairs' comp')
    (hperm : comp.Perm comp') (ha : a ∈ comp) (hlen : 2 < comp.length)
    (h : TieFree env nodes pairs a) :
    packComponent nodes pairs orders comp = packComponent nodes' pairs' orders' comp' := by
  have hcentral : ∀ u ∈ comp, centrality nodes pairs comp u = weight env nodes pairs u :=
    fun u hu => centrality_eq_weight hcomp.nodup hcomp.joined hcomp.keys hu
  have hcentral' : ∀ u ∈ comp, centrality nodes' pairs' comp' u = weight env nodes pairs u := by
    intro u hu
    rw [weight_congr hsettled hnodes hpairs]
    exact centrality_eq_weight hcomp'.nodup hcomp'.joined hcomp'.keys (hperm.mem_iff.mp hu)
  -- the seeds come in one order
  have hseeds : sortDescending (centrality nodes pairs comp) comp =
      sortDescending (centrality nodes' pairs' comp') comp' := by
    refine sortDescending_eq_of_perm hperm (fun u hu => ?_) fun b hb c hc heq => ?_
    · rw [hcentral u hu, hcentral' u hu]
    · rw [hcentral b hb, hcentral c hc] at heq
      by_contra hne
      exact h.seeds b c ((hcomp.joined a ha b).mp hb) ((hcomp.joined a ha c).mp hc) hne heq
  have hgrow : ∀ seed ∈ sortDescending (centrality nodes' pairs' comp') comp',
      ∀ assigned assigned' : List String, assigned.Perm assigned' →
        (CliquePacking.grow (hasSim nodes' pairs') seed
          (candidatesOf nodes pairs orders comp assigned seed)).Perm
        (CliquePacking.grow (hasSim nodes' pairs') seed
          (candidatesOf nodes' pairs' orders' comp' assigned' seed)) := by
    intro seed hseed assigned assigned' hassigned
    have hseed' : seed ∈ comp :=
      hperm.mem_iff.mpr ((perm_sortDescending _ comp').mem_iff.mp hseed)
    exact perm_grow hsettled hnodes hpairs hcomp hperm ha h hseed' hassigned
  rw [packComponent_of_lt_length hlen, packComponent_of_lt_length (hperm.length_eq ▸ hlen), hseeds,
    hasSim_congr hnodes hpairs]
  exact map_sortKeys_of_forall₂ (CliquePacking.pack_perm hgrow (List.Perm.refl []))

lemma pair_of_perm {a b c d : String} (h : [a, b].Perm [c, d]) :
    a = c ∧ b = d ∨ a = d ∧ b = c := by
  have ha : a ∈ [c, d] := h.subset List.mem_cons_self
  simp only [List.mem_cons, List.not_mem_nil, or_false] at ha
  rcases ha with rfl | rfl
  · exact Or.inl ⟨rfl, List.singleton_inj.mp (List.perm_singleton.mp h.cons_inv)⟩
  · have hrest := h.trans (List.Perm.swap a c [])
    exact Or.inr ⟨rfl, List.singleton_inj.mp (List.perm_singleton.mp hrest.cons_inv)⟩

/-- A list of more than two has two elements beside a given one. -/
lemma exists_two_others {a : String} (hnodup : comp.Nodup) (ha : a ∈ comp)
    (hlen : 2 < comp.length) : ∃ b c, b ∈ comp ∧ c ∈ comp ∧ b ≠ a ∧ c ≠ a ∧ b ≠ c := by
  have hlength := List.length_erase_of_mem ha
  match herase : comp.erase a with
  | [] | [_] =>
    rw [herase] at hlength
    simp only [List.length_nil, List.length_singleton] at hlength
    omega
  | b :: c :: rest =>
    have hmem : ∀ x ∈ comp.erase a, x ∈ comp ∧ x ≠ a := fun x hx =>
      (hnodup.mem_erase_iff.mp hx).symm
    have hb := hmem b (herase ▸ List.mem_cons_self)
    have hc := hmem c (herase ▸ List.mem_cons_of_mem b List.mem_cons_self)
    have hbc : (b :: c :: rest).Nodup := herase ▸ hnodup.erase a
    refine ⟨b, c, hb.1, hc.1, hb.2, hc.2, ?_⟩
    rintro rfl
    exact (List.nodup_cons.mp hbc).1 List.mem_cons_self

lemma packComponent_congr (hsettled : Settled env nodes pairs) (hnodes : nodes.Perm nodes')
    (hpairs : SamePairs pairs pairs') (hcomp : IsComponent env nodes pairs comp)
    (hcomp' : IsComponent env nodes' pairs' comp') (hperm : comp.Perm comp') :
    packComponent nodes pairs orders comp = packComponent nodes' pairs' orders' comp' := by
  by_cases hshort : comp.length < 2
  · rw [packComponent_of_length_lt hshort, packComponent_of_length_lt (hperm.length_eq ▸ hshort)]
  by_cases htwo : comp.length = 2
  · obtain ⟨a, b, rfl⟩ := List.length_eq_two.mp htwo
    obtain ⟨c, d, rfl⟩ := List.length_eq_two.mp (hperm.length_eq ▸ htwo)
    have hsim : hasSim nodes pairs a b = hasSim nodes' pairs' c d := by
      rw [hasSim_congr hnodes hpairs]
      rcases pair_of_perm hperm with ⟨rfl, rfl⟩ | ⟨rfl, rfl⟩
      · rfl
      · exact hasSim_comm _ _
    show (if hasSim nodes pairs a b then [sortKeys [a, b]] else []) =
      if hasSim nodes' pairs' c d then [sortKeys [c, d]] else []
    rw [hsim, sortKeys_eq_of_perm hperm]
  have hlen : 2 < comp.length := by omega
  obtain ⟨a, ha⟩ := List.exists_mem_of_length_pos (by omega : 0 < comp.length)
  rcases hsettled.component a (hcomp.nodes ha) with h | h | h
  · obtain ⟨b, c, hb, hc, hba, hca, hbc⟩ := exists_two_others hcomp.nodup ha hlen
    have hjoined := hcomp.joined a ha
    exact absurd (h b c ((hjoined b).mp hb) ((hjoined c).mp hc) hba hca) hbc
  · have h' := h.congr hnodes hpairs
    rw [packComponent_of_complete hcomp ha hlen h, packComponent_of_complete hcomp'
      (hperm.mem_iff.mp ha) (hperm.length_eq ▸ hlen) h', sortKeys_eq_of_perm hperm]
  · exact packComponent_of_tieFree hsettled hnodes hpairs hcomp hcomp' hperm ha hlen h

end Packing

/-! ## All clusters -/

section Orders

variable {orders orders' : SetOrders}

lemma isComponent_of_mem {k : String × String} {comp : List String}
    (hcomp : comp ∈ fiberComponents nodes pairs orders (nodes.filter fun n => fiberKey env n = k)) :
    IsComponent env nodes pairs comp := by
  obtain ⟨hflat, hall⟩ := @fiberComponents_spec nodes pairs orders
    (nodes.filter fun n => fiberKey env n = k)
  have hin : ∀ x ∈ comp, x ∈ nodes ∧ fiberKey env x = k := by
    intro x hx
    have hmem := (hall x).mp (List.mem_flatten.mpr ⟨comp, hcomp, hx⟩)
    rwa [List.mem_filter, decide_eq_true_eq] at hmem
  exact ⟨(List.nodup_flatten.mp hflat).1 comp hcomp, fun a ha b => mem_component_iff rfl hcomp ha,
    fun a ha b hb => (hin a ha).2.trans (hin b hb).2.symm, fun x hx => (hin x hx).1⟩

/-- Whatever the order, a component is one for any other order. -/
lemma exists_component_perm (hnodes : nodes.Perm nodes')
    (hpairs : SamePairs pairs pairs') {k : String × String} {comp : List String} {a : String}
    (hcomp : comp ∈ fiberComponents nodes pairs orders (nodes.filter fun n => fiberKey env n = k))
    (ha : a ∈ comp) :
    ∃ comp' ∈ fiberComponents nodes' pairs' orders' (nodes'.filter fun n => fiberKey env n = k),
      comp.Perm comp' := by
  have hmem : a ∈ nodes.filter fun n => fiberKey env n = k :=
    ((fiberComponents_spec _).2 a).mp (List.mem_flatten.mpr ⟨comp, hcomp, ha⟩)
  obtain ⟨comp', hcomp', ha'⟩ := List.mem_flatten.mp
    (((@fiberComponents_spec nodes' pairs' orders' _).2 a).mpr ((hnodes.filter _).mem_iff.mp hmem))
  have h := isComponent_of_mem hcomp
  have h' := isComponent_of_mem hcomp'
  refine ⟨comp', hcomp', (List.perm_ext_iff_of_nodup h.nodup h'.nodup).mpr fun b => ?_⟩
  rw [h.joined a ha, h'.joined a ha', joined_congr hnodes hpairs]

lemma mem_clusters_iff {cluster : List String} : cluster ∈ clusters nodes pairs orders env ↔
    pairs ≠ [] ∧ ∃ n ∈ nodes, 2 ≤ (nodes.filter fun m => fiberKey env m = fiberKey env n).length ∧
      ∃ comp ∈ fiberComponents nodes pairs orders
          (nodes.filter fun m => fiberKey env m = fiberKey env n),
        cluster ∈ packComponent nodes pairs orders comp := by
  by_cases hne : nodes = [] ∨ pairs = []
  · have hempty : clusters nodes pairs orders env = [] := if_pos hne
    rw [hempty]
    refine ⟨nofun, ?_⟩
    rintro ⟨hpairs, n, hn, -⟩
    rcases hne with rfl | rfl
    · exact absurd hn List.not_mem_nil
    · exact absurd rfl hpairs
  rw [clusters_eq hne, List.mem_flatMap]
  have hpairs : pairs ≠ [] := fun h => hne (Or.inr h)
  constructor
  · rintro ⟨fiber, hfiber, hcluster⟩
    obtain ⟨n, hn, rfl⟩ := mem_fibers_iff.mp hfiber
    split_ifs at hcluster with hlen
    · exact absurd hcluster List.not_mem_nil
    · exact ⟨hpairs, n, hn, by omega, List.mem_flatMap.mp hcluster⟩
  · rintro ⟨-, n, hn, hlen, hcluster⟩
    refine ⟨_, mem_fibers_iff.mpr ⟨n, hn, rfl⟩, ?_⟩
    rw [if_neg (by omega)]
    exact List.mem_flatMap.mpr hcluster

/-- Every cluster for one order is a cluster for the other. -/
lemma mem_clusters_of_perm (h : Settled env nodes pairs)
    (hnodes : nodes.Perm nodes') (hpairs : SamePairs pairs pairs') {cluster : List String}
    (hcluster : cluster ∈ clusters nodes pairs orders env) :
    cluster ∈ clusters nodes' pairs' orders' env := by
  obtain ⟨hne, n, hn, hlen, comp, hcomp, hpack⟩ := mem_clusters_iff.mp hcluster
  have hfiber : (nodes.filter fun m => fiberKey env m = fiberKey env n).Perm
      (nodes'.filter fun m => fiberKey env m = fiberKey env n) := hnodes.filter _
  have hpos : 0 < comp.length := by
    by_contra hzero
    rw [packComponent_of_length_lt (by omega)] at hpack
    exact absurd hpack List.not_mem_nil
  obtain ⟨a, ha⟩ := List.exists_mem_of_length_pos hpos
  obtain ⟨comp', hcomp', hperm⟩ :=
    @exists_component_perm _ _ _ nodes' pairs' orders orders' hnodes hpairs _ _ _ hcomp ha
  refine mem_clusters_iff.mpr ⟨?_, n, hnodes.mem_iff.mp hn, hfiber.length_eq ▸ hlen, comp', hcomp',
    ?_⟩
  · rintro rfl
    obtain ⟨p, hp⟩ := List.exists_mem_of_ne_nil pairs hne
    rcases (hpairs p.1 p.2.1 p.2.2).mp (Or.inl hp) with h | h <;> exact absurd h List.not_mem_nil
  · rwa [← packComponent_congr h hnodes hpairs (isComponent_of_mem hcomp)
      (isComponent_of_mem hcomp') hperm]

def reversedOrders : SetOrders where
  neighbours _ l := l.reverse
  neighbours_perm _ l := List.reverse_perm l
  candidates _ l := l.reverse
  candidates_perm _ l := List.reverse_perm l

/-- The same three keys, the first pair more similar than the second. -/
def unevenPairs : List SimilarityPair :=
  [("note:alpha:a", "note:alpha:b", 9 / 10), ("note:alpha:b", "note:alpha:c", 88 / 100)]

/-- The same pairs, listed backwards and the other way round. -/
def unevenPairs' : List SimilarityPair :=
  [("note:alpha:c", "note:alpha:b", 88 / 100), ("note:alpha:b", "note:alpha:a", 9 / 10)]

lemma listed_iff {a b : String} {s : ℚ} :
    Listed pairs a b s ↔ ∃ p ∈ pairs, ends p.1 p.2.1 = ends a b ∧ p.2.2 = s := by
  constructor
  · rintro (h | h)
    · exact ⟨_, h, rfl, rfl⟩
    · exact ⟨_, h, ends_eq_iff.mpr (Or.inr ⟨rfl, rfl⟩), rfl⟩
  · rintro ⟨⟨x, y, t⟩, hp, hends, rfl⟩
    rcases ends_eq_iff.mp hends with ⟨rfl, rfl⟩ | ⟨rfl, rfl⟩
    · exact Or.inl hp
    · exact Or.inr hp

lemma mem_nodes_of_joined {a b : String} (ha : a ∈ nodes) (h : Joined env nodes pairs a b) :
    b ∈ nodes := by
  induction h with
  | refl => exact ha
  | tail _ hstep _ => exact (mem_nodes_of_linked hstep.1).2

end Orders

end DeclarativeConsolidator

end AtlasMemory
