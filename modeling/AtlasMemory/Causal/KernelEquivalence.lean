import AtlasMemory.Causal.Annealer
import Mathlib.Algebra.Order.BigOperators.Group.Finset
import Mathlib.Analysis.Complex.Exponential
import Mathlib.Analysis.Real.Sqrt
import Mathlib.Data.List.Induction

/-!
# The equivalence of the annealing kernels

The sums and degrees of the incremental path are those that the critic of the reference path finds
in the index, and every accepted update keeps this so.  What differs is the number of known nodes:
the reference path divides by the number of its index's keys, which are the sources, and the
incremental path by the number of all nodes.
-/

namespace AtlasMemory
namespace Annealing

variable {K : Type} [Field K] [LinearOrder K]

/-! ## The sources and the nodes of a graph -/

section Names

variable (graph : List (CausalEdge K))

/-- The nodes with an edge that leaves them. -/
def sources : Finset String := (graph.map CausalEdge.source).toFinset

def nodes : Finset String := sources graph ∪ (graph.map CausalEdge.target).toFinset

/-- The number of edges that leave a node. -/
def degree (x : String) : ℕ := graph.countP fun e => e.source = x

lemma mem_addName {names : List String} {x y : String} :
    y ∈ addName names x ↔ y ∈ names ∨ y = x := by
  unfold addName
  split_ifs with h
  · exact ⟨Or.inl, fun hy => hy.elim id fun hyx => hyx ▸ h⟩
  · rw [List.mem_append, List.mem_singleton]

lemma nodup_addName {names : List String} (hnames : names.Nodup) (x : String) :
    (addName names x).Nodup := by
  unfold addName
  split_ifs with h
  · exact hnames
  · exact List.nodup_append.mpr ⟨hnames, List.nodup_singleton x, by
      intro a ha b hb hab
      rw [List.mem_singleton.mp hb] at hab
      exact h (hab ▸ ha)⟩

lemma nodeNames_spec :
    (nodeNames graph).Nodup ∧ ∀ x, x ∈ nodeNames graph ↔ x ∈ nodes graph := by
  induction graph using List.reverseRecOn with
  | nil => exact ⟨List.nodup_nil, fun x => by simp [nodeNames, nodes, sources]⟩
  | append_singleton es e ih =>
    have hfold : nodeNames (es ++ [e]) = addName (addName (nodeNames es) e.source) e.target := by
      rw [nodeNames, nodeNames, List.foldl_append, List.foldl_cons, List.foldl_nil]
    rw [hfold]
    refine ⟨nodup_addName (nodup_addName ih.1 _) _, fun x => ?_⟩
    rw [mem_addName, mem_addName, ih.2]
    simp only [nodes, sources, List.map_append, List.map_cons, List.map_nil, List.toFinset_append,
      List.toFinset_cons, List.toFinset_nil, Finset.mem_union, List.mem_toFinset, Finset.mem_insert,
      Finset.notMem_empty, or_false]
    tauto

lemma length_nodeNames : (nodeNames graph).length = (nodes graph).card := by
  obtain ⟨hnodup, hmem⟩ := nodeNames_spec graph
  rw [← List.toFinset_card_of_nodup hnodup]
  congr 1
  ext x
  rw [List.mem_toFinset, hmem]

variable {graph}

lemma nodeToId_inj {x y : String} (hx : x ∈ nodes graph) :
    nodeToId graph x = nodeToId graph y ↔ x = y :=
  List.idxOf_inj ((nodeNames_spec graph).2 x |>.mpr hx)

lemma source_mem_nodes (i : Fin graph.length) : (graph.get i).source ∈ nodes graph := by
  rw [nodes, Finset.mem_union, sources, List.mem_toFinset]
  exact Or.inl (List.mem_map_of_mem (List.get_mem graph i))

lemma degree_pos_iff {x : String} : 0 < degree graph x ↔ x ∈ sources graph := by
  rw [degree, List.countP_pos_iff, sources, List.mem_toFinset, List.mem_map]
  simp only [decide_eq_true_eq]

end Names

/-! ## Sums over edges -/

section Sums

variable {n : ℕ}

omit [LinearOrder K] in
lemma sum_map_filter_places {ι : Type} (p : ι → Bool) (f : ι → K) (l : List ι) :
    ((l.filter p).map f).sum = (l.map fun i => if p i then f i else 0).sum := by
  induction l with
  | nil => rfl
  | cons i l ih =>
    by_cases hp : p i
    · rw [List.filter_cons_of_pos hp, List.map_cons, List.map_cons, List.sum_cons, List.sum_cons,
        ih, if_pos hp]
    · rw [List.filter_cons_of_neg hp, List.map_cons, List.sum_cons, ih, if_neg hp, zero_add]

/-- One new weight moves a sum over some of the edges by the difference. -/
lemma sum_update_weight (p : Fin n → Prop) [DecidablePred p] (w : Fin n → UnitWeight K) (i : Fin n)
    (w' : UnitWeight K) :
    (∑ j, if p j then (Function.update w i w' j : K) else 0) =
      (∑ j, if p j then (w j : K) else 0) + if p i then (w' : K) - w i else 0 := by
  rw [← sub_eq_iff_eq_add', ← Finset.sum_sub_distrib, Finset.sum_eq_single i]
  · by_cases hp : p i
    · simp only [if_pos hp, Function.update_self]
    · simp only [if_neg hp, sub_zero]
  · intro j _ hj
    rw [Function.update_of_ne hj, sub_self]
  · exact fun hi => absurd (Finset.mem_univ i) hi

omit [LinearOrder K] in
lemma addAt_apply (a : ℕ → K) (updates : List (ℕ × K)) (k : ℕ) :
    addAt a updates k = a k + (updates.map fun p => if p.1 = k then p.2 else 0).sum := by
  induction updates generalizing a with
  | nil => exact (add_zero _).symm
  | cons p ps ih =>
    have hcons : addAt a (p :: ps) = addAt (Function.update a p.1 (a p.1 + p.2)) ps := rfl
    rw [hcons, ih, List.map_cons, List.sum_cons, ← add_assoc]
    congr 1
    by_cases hk : p.1 = k
    · rw [if_pos hk, ← hk, Function.update_self]
    · rw [if_neg hk, Function.update_of_ne (Ne.symm hk), add_zero]

variable (graph : List (CausalEdge K))

/-- Additions for the edges of a graph, at the ids of their sources. -/
lemma addAt_nodes (f : CausalEdge K → K) (x : String) :
    addAt (fun _ => 0) (graph.map fun e => (nodeToId graph e.source, f e)) (nodeToId graph x) =
      ∑ i : Fin graph.length, if (graph.get i).source = x then f (graph.get i) else 0 := by
  have hsum : ∀ g : CausalEdge K → K, (graph.map g).sum = ∑ i : Fin graph.length, g (graph.get i) :=
    fun g => (Fin.sum_univ_fun_getElem graph g).symm
  rw [addAt_apply, zero_add, List.map_map, hsum]
  refine Finset.sum_congr rfl fun i _ => ?_
  have hid : nodeToId graph (graph.get i).source = nodeToId graph x ↔ (graph.get i).source = x :=
    nodeToId_inj (source_mem_nodes i)
  simp only [Function.comp_apply, hid]

/-- The places of the edges that leave a node. -/
def placesFrom (x : String) : List (Fin graph.length) :=
  (List.finRange graph.length).filter fun i => (graph.get i).source = x

lemma length_placesFrom (x : String) : (placesFrom graph x).length = degree graph x := by
  have hmap : (List.finRange graph.length).map graph.get = graph := List.map_get_finRange graph
  have hcount := List.countP_map (p := fun e : CausalEdge K => decide (e.source = x))
    (f := graph.get) (l := List.finRange graph.length)
  rw [hmap] at hcount
  rw [degree, hcount, placesFrom, List.countP_eq_length_filter]
  rfl

lemma outDegree_nodes (x : String) :
    (outDegree graph (nodeToId graph x) : K) = degree graph x := by
  have hones : ((placesFrom graph x).map fun _ => (1 : K)).sum = (placesFrom graph x).length := by
    rw [List.map_const', List.sum_replicate, nsmul_one]
  rw [outDegree, addAt_nodes graph (fun _ => 1), ← length_placesFrom, ← hones, placesFrom,
    sum_map_filter_places, Fin.sum_univ_def]
  simp only [decide_eq_true_eq]

end Sums

/-! ## The index of the reference path -/

section Index

variable {n : ℕ}

lemma buildIndex_append (es : List (Fin n × CausalEdge K)) (e : Fin n × CausalEdge K) :
    buildIndex (es ++ [e]) =
      (buildIndex es).set e.2.source ((buildIndex es).getD e.2.source [] ++ [e]) := by
  rw [buildIndex, List.foldl_append, List.foldl_cons, List.foldl_nil, buildIndex]

/-- The list of a source: the edges that leave it, in order. -/
lemma getD_buildIndex (edges : List (Fin n × CausalEdge K)) (x : String) :
    (buildIndex edges).getD x [] = edges.filter fun e => e.2.source = x := by
  induction edges using List.reverseRecOn generalizing x with
  | nil => rfl
  | append_singleton es e ih =>
    rw [buildIndex_append, PyDict.getD, PyDict.get?_set, List.filter_append]
    by_cases hx : e.2.source = x
    · rw [if_pos hx, Option.getD_some, ih, hx,
        List.filter_cons_of_pos (by simpa using hx), List.filter_nil]
    · rw [if_neg hx, List.filter_cons_of_neg (by simpa using hx), List.filter_nil, List.append_nil]
      exact ih x

lemma mem_keys_buildIndex (edges : List (Fin n × CausalEdge K)) (x : String) :
    x ∈ (buildIndex edges).keys ↔ x ∈ edges.map fun e => e.2.source := by
  induction edges using List.reverseRecOn with
  | nil => exact Iff.rfl
  | append_singleton es e ih =>
    rw [PyDict.mem_keys_iff, buildIndex_append, PyDict.get?_set, List.map_append, List.mem_append,
      List.map_cons, List.map_nil, List.mem_singleton, ← ih, PyDict.mem_keys_iff]
    by_cases hx : e.2.source = x
    · simp only [hx, if_true, Option.isSome_some, or_true]
    · simp only [if_neg hx, Ne.symm hx, or_false]

lemma map_replaceEdge (i : Fin n) (working : Fin n → CausalEdge K) (candEdge : CausalEdge K)
    {places : List (Fin n)} (hplaces : places.Nodup) :
    replaceEdge i candEdge (places.map fun j => (j, working j)) =
      places.map fun j => (j, Function.update working i candEdge j) := by
  induction places with
  | nil => rfl
  | cons j js ih =>
    obtain ⟨hj, hjs⟩ := List.nodup_cons.mp hplaces
    rw [List.map_cons, List.map_cons, replaceEdge]
    by_cases hij : j = i
    · have hrest : ∀ l ∈ js, (l, working l) = (l, Function.update working i candEdge l) := by
        intro l hl
        have hne : l ≠ i := fun h => hj (hij ▸ h ▸ hl)
        rw [Function.update_of_ne hne]
      rw [if_pos hij, hij, Function.update_self, List.map_congr_left hrest]
    · rw [if_neg hij, ih hjs, Function.update_of_ne hij]

end Index

/-! ## The simulation -/

section Simulation

variable (m : EnergyModule K) (precisionTensor : Option (String → K)) (lambdaReg : K)
  {graph : List (CausalEdge K)}

/-- The arrays hold what the list and the index of the reference path hold. -/
structure Mirrors (s : ReferenceState K graph.length) (t : IncrementalState K graph.length) :
    Prop where
  working : ∀ i, s.working i = (graph.get i).withConfidence (t.wArr i)
  index : ∀ x, s.edgeIndex.getD x [] = (placesFrom graph x).map fun i => (i, s.working i)
  keys : ∀ x, x ∈ s.edgeIndex.keys ↔ x ∈ sources graph
  total : ∀ x, t.totalConfSum (nodeToId graph x) =
    ∑ i, if (graph.get i).source = x then (t.wArr i : K) else 0
  crit : ∀ x, t.critConfSum (nodeToId graph x) =
    ∑ i, if (graph.get i).source = x ∧ m.isCritical (graph.get i) = true then (t.wArr i : K) else 0

variable {m} {s : ReferenceState K graph.length} {t : IncrementalState K graph.length}

lemma Mirrors.size (h : Mirrors m s t) : s.edgeIndex.size = (sources graph).card := by
  have hcard : s.edgeIndex.keys.toFinset.card = s.edgeIndex.keys.length :=
    List.toFinset_card_of_nodup s.edgeIndex.nodupKeys
  have hset : s.edgeIndex.keys.toFinset = sources graph := by
    ext x
    rw [List.mem_toFinset, h.keys]
  rw [← hset, hcard, PyDict.size, PyDict.keys, List.length_map]

lemma Mirrors.get?_source (h : Mirrors m s t) (i : Fin graph.length) :
    s.edgeIndex.get? (graph.get i).source =
      some ((placesFrom graph (graph.get i).source).map fun j => (j, s.working j)) := by
  have hmem : (graph.get i).source ∈ s.edgeIndex.keys := by
    rw [h.keys, sources, List.mem_toFinset]
    exact List.mem_map_of_mem (List.get_mem graph i)
  obtain ⟨l, hl⟩ := Option.isSome_iff_exists.mp (PyDict.mem_keys_iff.mp hmem)
  rw [← h.index, PyDict.getD, hl, Option.getD_some]

lemma ite_mul_isCrit (p : Prop) [Decidable p] (w : K) (e : CausalEdge K) :
    (if p then w * isCrit m e else 0) = if p ∧ m.isCritical e = true then w else 0 := by
  unfold isCrit
  by_cases hp : p <;> by_cases hcrit : m.isCritical e = true <;> simp [hp, hcrit]

section Steps

variable [IsStrictOrderedRing K]

lemma mirrors_start : Mirrors m (referenceStart graph) (incrementalStart m graph) where
  working i := by
    show graph.get i = (graph.get i).withConfidence (clampUnit ((graph.get i).confidence : K))
    rw [clampUnit_of_mem]
    rfl
  index x := by
    rw [referenceStart, getD_buildIndex, List.filter_map]
    rfl
  keys x := by
    have hsources : (List.finRange graph.length).map (fun i => (graph.get i).source) =
        graph.map CausalEdge.source := by
      have hmap := congrArg (List.map CausalEdge.source) (List.map_get_finRange graph)
      rw [List.map_map] at hmap
      exact hmap
    rw [referenceStart, mem_keys_buildIndex, List.map_map, sources, List.mem_toFinset, ← hsources]
    rfl
  total x := by
    simp only [incrementalStart, addAt_nodes graph fun e => (clampUnit (e.confidence : K) : K)]
  crit x := by
    simp only [incrementalStart, ite_mul_isCrit,
      addAt_nodes graph fun e => (clampUnit (e.confidence : K) : K) * isCrit m e]

omit [IsStrictOrderedRing K] in
/-- An accepted weight moves the sum of its own source by the difference and no other sum. -/
lemma update_sum {a : ℕ → K} {x : String} {i : Fin graph.length} {d : K} :
    Function.update a (nodeToId graph (graph.get i).source)
        (a (nodeToId graph (graph.get i).source) + d) (nodeToId graph x) =
      a (nodeToId graph x) + if (graph.get i).source = x then d else 0 := by
  by_cases hx : (graph.get i).source = x
  · rw [if_pos hx, ← hx, Function.update_self]
  · have hid : nodeToId graph x ≠ nodeToId graph (graph.get i).source :=
      fun h => hx ((nodeToId_inj (source_mem_nodes i)).mp h.symm)
    rw [if_neg hx, Function.update_of_ne hid, add_zero]

lemma mirrors_store (h : Mirrors m s t) (i : Fin graph.length) (w : UnitWeight K) :
    Mirrors m (s.store i w) (t.store m i w) := by
  have hsource : ((s.working i).withConfidence w).source = (graph.get i).source := by
    rw [h.working]
    rfl
  have hnodup : (placesFrom graph (graph.get i).source).Nodup := (List.nodup_finRange _).filter _
  have hindex : (s.store i w).edgeIndex = s.edgeIndex.set (graph.get i).source
      ((placesFrom graph (graph.get i).source).map fun j => (j, (s.store i w).working j)) := by
    simp only [ReferenceState.store, hsource, h.get?_source]
    rw [map_replaceEdge i s.working _ hnodup]
  refine ⟨fun j => ?_, fun x => ?_, fun x => ?_, fun x => ?_, fun x => ?_⟩
  · by_cases hj : j = i
    · subst hj
      simp only [ReferenceState.store, IncrementalState.store, Function.update_self, h.working j]
      rfl
    · simp only [ReferenceState.store, IncrementalState.store, Function.update_of_ne hj,
        h.working j]
  · rw [hindex, PyDict.getD, PyDict.get?_set]
    by_cases hx : (graph.get i).source = x
    · rw [if_pos hx, Option.getD_some, hx]
    · have hkept : ∀ j ∈ placesFrom graph x, (j, s.working j) = (j, (s.store i w).working j) := by
        intro j hj
        have hjx : (graph.get j).source = x := by simpa [placesFrom] using hj
        have hne : j ≠ i := fun hji => hx (hji ▸ hjx)
        simp only [ReferenceState.store, Function.update_of_ne hne]
      rw [if_neg hx, ← List.map_congr_left hkept]
      exact h.index x
  · rw [hindex, PyDict.mem_keys_iff, PyDict.get?_set, ← h.keys, PyDict.mem_keys_iff]
    by_cases hx : (graph.get i).source = x
    · rw [if_pos hx, ← hx, h.get?_source]
      exact Iff.rfl
    · rw [if_neg hx]
  · simp only [IncrementalState.store]
    rw [update_sum, h.total, sum_update_weight]
  · have hsum := sum_update_weight
      (fun j => (graph.get j).source = x ∧ m.isCritical (graph.get j) = true) t.wArr i w
    simp only [IncrementalState.store]
    rw [hsum, ← h.crit]
    by_cases hcrit : m.isCritical (graph.get i) = true
    · have hpos : 0 < isCrit m (graph.get i) := by
        rw [isCrit, if_pos hcrit]
        exact zero_lt_one
      rw [if_pos hpos, update_sum]
      simp only [hcrit, and_true]
    · have hzero : ¬ 0 < isCrit m (graph.get i) := by
        rw [isCrit, if_neg hcrit]
        exact lt_irrefl 0
      rw [if_neg hzero, if_neg fun hboth => hcrit hboth.2, add_zero]

variable [FloorRing K]

/-- The kernels stay in step, whatever their critics say. -/
lemma coupled : (referenceKernel m precisionTensor lambdaReg).Coupled
    (incrementalKernel m precisionTensor lambdaReg graph) (Mirrors m) where
  weight {s t} h i := by
    show (s.working i).confidence = t.wArr i
    rw [h.working]
    rfl
  precision {s t} h i := by
    show channelPrecision precisionTensor (s.working i) = channelPrecision precisionTensor _
    rw [h.working]
    rfl
  store h i w := mirrors_store h i w

end Steps

/-! ## The critics -/

section Critics

variable [FloorRing K]

/-- What the critic of the reference path finds in the index. -/
lemma Mirrors.trainableCritic_eq (h : Mirrors m s t) (x : String) :
    m.trainableCritic x s.edgeIndex =
      risk (degree graph x : K) (sources graph).card (t.totalConfSum (nodeToId graph x))
        (t.critConfSum (nodeToId graph x)) := by
  have hrelevant : (s.edgeIndex.getD x []).map Prod.snd =
      (placesFrom graph x).map fun i => s.working i := by
    rw [h.index, List.map_map]
    rfl
  have hweight : ∀ i, ((s.working i).confidence : K) = t.wArr i := by
    intro i
    rw [h.working]
    rfl
  have hcritical : ∀ i, m.isCritical (s.working i) = m.isCritical (graph.get i) := by
    intro i
    rw [h.working]
    rfl
  have htotal : (((placesFrom graph x).map fun i => s.working i).map fun e =>
      (e.confidence : K)).sum = t.totalConfSum (nodeToId graph x) := by
    rw [List.map_map, placesFrom, sum_map_filter_places, h.total, Fin.sum_univ_def]
    simp only [Function.comp_apply, hweight, decide_eq_true_eq]
  have hcrit : ((((placesFrom graph x).map fun i => s.working i).filter m.isCritical).map fun e =>
      (e.confidence : K)).sum = t.critConfSum (nodeToId graph x) := by
    rw [List.filter_map, List.map_map, placesFrom, List.filter_filter, sum_map_filter_places,
      h.crit, Fin.sum_univ_def]
    simp only [Function.comp_apply, hweight, hcritical, Bool.and_eq_true, decide_eq_true_eq,
      and_comm]
  rw [EnergyModule.trainableCritic]
  simp only [hrelevant, htotal, hcrit, h.size, List.length_map, length_placesFrom,
    List.isEmpty_iff_length_eq_zero]
  by_cases hdeg : degree graph x = 0
  · rw [if_pos hdeg, hdeg, risk, Nat.cast_zero, if_pos le_rfl]
  · rw [if_neg hdeg]

/-- What the critic of the incremental path finds in the arrays. -/
lemma criticForNode_eq (x : String) :
    criticForNode graph t (nodeToId graph x) =
      risk (degree graph x : K) (nodes graph).card (t.totalConfSum (nodeToId graph x))
        (t.critConfSum (nodeToId graph x)) := by
  rw [criticForNode, outDegree_nodes, length_nodeNames]

end Critics

end Simulation

/-! ## Where the kernels agree -/

section Agreement

variable [FloorRing K] (graph : List (CausalEdge K))

/-- For each edge with a target that has edges of its own: the share of these in the sources and
their share in all nodes round to the same six places. -/
def SharesRoundAlike : Prop :=
  ∀ e ∈ graph, e.target ∈ sources graph →
    round6 (reachabilityImpact (degree graph e.target : K) (sources graph).card) =
      round6 (reachabilityImpact (degree graph e.target : K) (nodes graph).card)

variable [IsStrictOrderedRing K]

/-- The two paths return the same result on every stream of random numbers, for every schedule,
regularisation, tensor of precisions and limit of the sweeps. -/
def KernelsAgree (math : ExactMath K) (m : EnergyModule K) : Prop :=
  ∀ (σ : Type) (rng : Rng K σ) (seed : σ) (schedule : AnnealingSchedule K) (maxIter : ℕ)
    (lambdaReg : K) (precisionTensor : Option (String → K)),
    runVectorizedNumpy m precisionTensor lambdaReg graph math rng seed schedule maxIter =
      runReferenceScalar m precisionTensor lambdaReg math rng seed schedule maxIter graph

variable {graph} {m : EnergyModule K}

/-- Where the shares round alike, both paths see the same energies. -/
lemma energies_eq (hshares : SharesRoundAlike graph) (lambdaReg : K)
    {s : ReferenceState K graph.length} {t : IncrementalState K graph.length} (h : Mirrors m s t)
    (i : Fin graph.length) (w : UnitWeight K) :
    m.computeEdgeEnergyAndGradient ((s.working i).withConfidence w) s.edgeIndex lambdaReg =
      edgeEnergyAndGrad m lambdaReg graph t i w := by
  have hrisk : ∀ total crit : K,
      risk (degree graph (graph.get i).target : K) (sources graph).card total crit =
        risk (degree graph (graph.get i).target : K) (nodes graph).card total crit := by
    intro total crit
    refine risk_congr fun hdeg => hshares _ (List.get_mem graph i) ?_
    exact degree_pos_iff.mp (by exact_mod_cast hdeg)
  rw [EnergyModule.computeEdgeEnergyAndGradient, edgeEnergyAndGrad, h.working, criticForNode_eq,
    h.trainableCritic_eq, ← hrisk]
  rfl

lemma kernelsAgree_of_shares (math : ExactMath K) (hshares : SharesRoundAlike graph) :
    KernelsAgree graph math m := by
  intro σ rng seed schedule maxIter lambdaReg precisionTensor
  have hcoupled : (referenceKernel m precisionTensor lambdaReg).Coupled
    (incrementalKernel m precisionTensor lambdaReg graph) (Mirrors m) := coupled _ _
  obtain ⟨hstate, htrace, hiter, hconv, htemp⟩ := AnnealingKernel.anneal_alike math rng hcoupled
    (energies_eq hshares lambdaReg) energyConvergenceEps schedule maxIter mirrors_start seed
  have hedges := List.ofFn_inj.mpr (funext hstate.working)
  simp only [runVectorizedNumpy, runReferenceScalar, AnnealingResult.ofOutcome, htrace, hiter,
    hconv, htemp, hedges]

/-! ## Where they do not

When all weights have been driven to zero, the rating of a node is its rounded share, so the
energies of the two paths differ for each target whose shares round differently; and they never
differ in opposite directions, as the larger number of nodes makes each share smaller. -/

variable (graph m) in
/-- The energy of an edge when all weights are zero and so many nodes are known. -/
def idleEnergy (known : ℕ) (i : Fin graph.length) : K :=
  (1 - (costAndSlope (m.intrinsicCost (graph.get i).source (graph.get i).predicate) 0).1) *
    (1 - risk (degree graph (graph.get i).target : K) known 0 0)

omit [FloorRing K] [IsStrictOrderedRing K] in
lemma sources_card_le : (sources graph).card ≤ (nodes graph).card :=
  Finset.card_le_card Finset.subset_union_left

variable (graph) in
lemma risk_idle_anti (x : String) :
    risk (degree graph x : K) (nodes graph).card 0 0 ≤
      risk (degree graph x : K) (sources graph).card 0 0 := by
  rcases Nat.eq_zero_or_pos (degree graph x) with hdeg | hdeg
  · rw [hdeg, Nat.cast_zero, risk, risk, if_pos le_rfl, if_pos le_rfl]
  · have hpos : (0 : K) < degree graph x := by exact_mod_cast hdeg
    have hcard : ((sources graph).card : K) ≤ (nodes graph).card := by
      exact_mod_cast sources_card_le
    rw [risk_zero_sums hpos, risk_zero_sums hpos]
    exact round6_mono (reachabilityImpact_anti hpos.le hcard)

lemma certain_pos (i : Fin graph.length) :
    0 < 1 - (costAndSlope (m.intrinsicCost (graph.get i).source (graph.get i).predicate) 0).1 := by
  have hcost := m.intrinsicCost_mem (graph.get i).source (graph.get i).predicate
  linarith [costAndSlope_zero_lt hcost.2]

lemma idleEnergy_le (i : Fin graph.length) :
    idleEnergy graph m (sources graph).card i ≤ idleEnergy graph m (nodes graph).card i := by
  have hrisk := risk_idle_anti graph (graph.get i).target
  exact mul_le_mul_of_nonneg_left (by linarith) (certain_pos i).le

lemma sum_idleEnergy_lt (hnot : ¬ SharesRoundAlike graph) :
    ∑ i, idleEnergy graph m (sources graph).card i <
      ∑ i, idleEnergy graph m (nodes graph).card i := by
  unfold SharesRoundAlike at hnot
  push Not at hnot
  obtain ⟨e, he, htarget, hshares⟩ := hnot
  obtain ⟨i, rfl⟩ := List.mem_iff_get.mp he
  have hpos : (0 : K) < degree graph (graph.get i).target := by
    exact_mod_cast degree_pos_iff.mpr htarget
  have hrisk := risk_idle_anti graph (graph.get i).target
  refine Finset.sum_lt_sum (fun j _ => idleEnergy_le j) ⟨i, Finset.mem_univ i, ?_⟩
  have hlt : risk (degree graph (graph.get i).target : K) (nodes graph).card 0 0 <
      risk (degree graph (graph.get i).target : K) (sources graph).card 0 0 := by
    refine lt_of_le_of_ne hrisk fun heq => hshares ?_
    rw [risk_zero_sums hpos, risk_zero_sums hpos] at heq
    exact heq.symm
  exact mul_lt_mul_of_pos_left (by linarith) (certain_pos i)

/-- The state of the reference path mirrors some arrays. -/
def Mirrored (m : EnergyModule K) (s : ReferenceState K graph.length) : Prop :=
  ∃ t : IncrementalState K graph.length, Mirrors m s t

/-- The arrays mirror some state of the reference path. -/
def Mirroring (m : EnergyModule K) (t : IncrementalState K graph.length) : Prop :=
  ∃ s : ReferenceState K graph.length, Mirrors m s t

omit [FloorRing K] in
lemma Mirrors.sums_zero {s : ReferenceState K graph.length} {t : IncrementalState K graph.length}
    (h : Mirrors m s t) (hzero : ∀ j, t.wArr j = 0) (x : String) :
    t.totalConfSum (nodeToId graph x) = 0 ∧ t.critConfSum (nodeToId graph x) = 0 := by
  rw [h.total, h.crit]
  simp only [hzero, Set.Icc.coe_zero, ite_self, Finset.sum_const_zero, and_self]

lemma reference_idle {s : ReferenceState K graph.length} (hs : Mirrored m s)
    (hzero : ∀ j, (s.working j).confidence = 0) (i : Fin graph.length) :
    (m.computeEdgeEnergyAndGradient ((s.working i).withConfidence 0) s.edgeIndex 0).1 =
      idleEnergy graph m (sources graph).card i := by
  obtain ⟨t, h⟩ := hs
  have hweights : ∀ j, t.wArr j = 0 := by
    intro j
    rw [← hzero j, h.working]
    rfl
  obtain ⟨htotal, hcrit⟩ := h.sums_zero hweights (graph.get i).target
  have hrisk := h.trainableCritic_eq (graph.get i).target
  rw [htotal, hcrit] at hrisk
  rw [idleEnergy, ← hrisk, ← energy_zero, h.working]
  rfl

lemma incremental_idle {t : IncrementalState K graph.length} (ht : Mirroring m t)
    (hzero : ∀ j, t.wArr j = 0) (i : Fin graph.length) :
    (edgeEnergyAndGrad m 0 graph t i 0).1 = idleEnergy graph m (nodes graph).card i := by
  obtain ⟨s, h⟩ := ht
  obtain ⟨htotal, hcrit⟩ := h.sums_zero hzero (graph.get i).target
  have hrisk := criticForNode_eq (t := t) (graph.get i).target
  rw [htotal, hcrit] at hrisk
  rw [idleEnergy, ← hrisk, ← energy_zero]
  rfl

lemma trainableCritic_mem {α : Type} (x : String)
    (edges : PyDict String (List (α × CausalEdge K))) :
    0 ≤ m.trainableCritic x edges ∧ m.trainableCritic x edges ≤ 1 := by
  unfold EnergyModule.trainableCritic
  dsimp only
  split_ifs
  · exact ⟨le_rfl, zero_le_one⟩
  · exact risk_mem

variable (m) in
lemma reference_tame (n : ℕ) : (referenceKernel (n := n) m none 0).Tame where
  precision s i := rfl
  energy s i w := energy_mem (trainableCritic_mem _ _).1 (trainableCritic_mem _ _).2 _
  grad s i w := grad_ge (m.intrinsicCost_mem _ _).1 (m.intrinsicCost_mem _ _).2
    (trainableCritic_mem _ _).1 (trainableCritic_mem _ _).2 _
  weight_store s i w j := by
    show (Function.update s.working i _ j).confidence = _
    by_cases hj : j = i
    · rw [if_pos hj, hj, Function.update_self]
      rfl
    · rw [if_neg hj, Function.update_of_ne hj]
      rfl

variable (graph m) in
lemma incremental_tame : (incrementalKernel m none 0 graph).Tame where
  precision s i := rfl
  energy s i w := energy_mem risk_mem.1 risk_mem.2 _
  grad s i w := grad_ge (m.intrinsicCost_mem _ _).1 (m.intrinsicCost_mem _ _).2 risk_mem.1
    risk_mem.2 _
  weight_store s i w j := by
    show Function.update s.wArr i w j = _
    by_cases hj : j = i
    · rw [if_pos hj, hj, Function.update_self]
    · rw [if_neg hj, Function.update_of_ne hj]
      rfl

/-- A run that ends at temperature one returns its trace. -/
lemma energyTrace_ofOutcome {S : Type} (finalEdges : S → List (CausalEdge K))
    {o : AnnealingOutcome K S} (htemp : o.temperature = 1) :
    (AnnealingResult.ofOutcome finalEdges o).map AnnealingResult.energyTrace = some o.trace := by
  have hvalid : 0 ≤ round6 o.temperature ∧ round6 o.temperature ≤ 1 := by
    rw [htemp, round6_one]
    exact ⟨zero_le_one, le_rfl⟩
  simp only [AnnealingResult.ofOutcome, if_pos hvalid, Option.map_some]

/-- The runs that freeze return different traces. -/
lemma frozen_runs_differ (math : ExactMath K) (hnot : ¬ SharesRoundAlike graph) :
    runVectorizedNumpy m none 0 graph math AnnealingKernel.frozenRng ()
        AnnealingKernel.frozenSchedule 2 ≠
      runReferenceScalar m none 0 math AnnealingKernel.frozenRng ()
        AnnealingKernel.frozenSchedule 2 graph := by
  have hmirrored : Mirrored m (referenceStart graph) := ⟨_, mirrors_start⟩
  have hmirroring : Mirroring m (incrementalStart m graph) := ⟨_, mirrors_start⟩
  obtain ⟨hreference, htempReference⟩ := (reference_tame m graph.length).anneal_frozen math
    (fun i w hs => hs.elim fun t h => ⟨_, mirrors_store h i w⟩) reference_idle
    energyConvergenceEps hmirrored
  obtain ⟨hincremental, htempIncremental⟩ := (incremental_tame graph m).anneal_frozen math
    (fun i w ht => ht.elim fun s h => ⟨_, mirrors_store h i w⟩) incremental_idle
    energyConvergenceEps hmirroring
  intro hsame
  have htraces := congrArg (Option.map AnnealingResult.energyTrace) hsame
  rw [runVectorizedNumpy, runReferenceScalar, energyTrace_ofOutcome _ htempIncremental,
    energyTrace_ofOutcome _ htempReference, Option.some.injEq] at htraces
  rw [htraces, hreference, Option.some.injEq] at hincremental
  exact (sum_idleEnergy_lt hnot).ne hincremental

end Agreement

/-! ## A chain with a sink, and two edges without one -/

section Examples

variable [IsStrictOrderedRing K]

def freshModule : EnergyModule K where
  lower := String.toLower
  errorPenalties := ∅
  errorHistory := none
  isVolatile _ := false

def dependsOn (source target : String) : CausalEdge K where
  source := source
  predicate := "depends_on"
  target := target
  confidence := 1
  impactType := "dependency"
  sourceType := none

/-- `a` depends on `b`, and `b` on `c`, which depends on nothing. -/
def sinkChain : List (CausalEdge K) := [dependsOn "a" "b", dependsOn "b" "c"]

lemma sinkChain_counts : degree (sinkChain (K := K)) "b" = 1 ∧
    (sources (sinkChain (K := K))).card = 2 ∧ (nodes (sinkChain (K := K))).card = 3 := by
  refine ⟨?_, ?_, ?_⟩
  · simp [degree, sinkChain, dependsOn]
  · simp [sources, sinkChain, dependsOn]
  · simp [nodes, sources, sinkChain, dependsOn]

/-- The sources see one half of themselves in `b`, all nodes one third. -/
lemma sinkChain_shares [FloorRing K] : ¬ SharesRoundAlike (sinkChain (K := K)) := by
  obtain ⟨hdegree, hsources, hnodes⟩ := sinkChain_counts (K := K)
  have hmem : "b" ∈ sources (sinkChain (K := K)) := degree_pos_iff.mp (by omega)
  have hhalf : roundHalfEven (1 / 2 * 10 ^ 6 : K) = 500000 := by
    have hint : (1 / 2 * 10 ^ 6 : K) = ((500000 : ℤ) : K) := by norm_num
    rw [hint, roundHalfEven_intCast]
  have hthird : roundHalfEven (1 / 3 * 10 ^ 6 : K) = 333333 := by
    have hfloor : ⌊(1 / 3 * 10 ^ 6 : K)⌋ = 333333 := by
      rw [Int.floor_eq_iff]
      norm_num
    rw [roundHalfEven, Int.fract, hfloor]
    norm_num
  intro hshares
  have hb := hshares (dependsOn "a" "b") (List.mem_cons_self ..) hmem
  have htwo : min 1 (((1 : ℕ) : K) / max 1 ((2 : ℕ) : K)) = 1 / 2 := by norm_num
  have hthree : min 1 (((1 : ℕ) : K) / max 1 ((3 : ℕ) : K)) = 1 / 3 := by norm_num
  simp only [dependsOn, hdegree, hsources, hnodes, reachabilityImpact, htwo, hthree, round6, hhalf,
    hthird] at hb
  norm_num at hb

/-- The square root and the exponential of the real numbers. -/
noncomputable def realMath : ExactMath ℝ where
  sqrt := Real.sqrt
  exp := Real.exp
  one_le_sqrt _ hx := Real.one_le_sqrt.mpr hx
  exp_pos := Real.exp_pos

/-- `a` and `b` depend on each other. -/
def mutualPair : List (CausalEdge K) := [dependsOn "a" "b", dependsOn "b" "a"]

omit [IsStrictOrderedRing K] in
/-- Where each target is a source, the numbers of known nodes are the same. -/
lemma shares_of_no_sinks [FloorRing K] {graph : List (CausalEdge K)}
    (h : nodes graph = sources graph) : SharesRoundAlike graph := by
  intro e _ _
  rw [h]

lemma mutualPair_no_sinks : nodes (mutualPair (K := K)) = sources (mutualPair (K := K)) := by
  simp [nodes, sources, mutualPair, dependsOn, Finset.pair_comm]

/-- The kernels agree on a graph exactly if the shares of its targets round alike. -/
theorem kernelsAgree_iff [FloorRing K] (math : ExactMath K) (m : EnergyModule K)
    (graph : List (CausalEdge K)) :
    KernelsAgree graph math m ↔ SharesRoundAlike graph := by
  constructor
  · intro hagree
    by_contra hnot
    exact frozen_runs_differ math hnot (hagree Unit _ () _ 2 0 none)
  · exact kernelsAgree_of_shares math

theorem mutualPair_kernels_agree : KernelsAgree mutualPair realMath freshModule :=
  (kernelsAgree_iff realMath freshModule mutualPair).mpr (shares_of_no_sinks mutualPair_no_sinks)

/-- The kernels disagree on a chain of two edges. -/
theorem sinkChain_kernels_disagree :
    runVectorizedNumpy freshModule none 0 sinkChain realMath AnnealingKernel.frozenRng ()
        AnnealingKernel.frozenSchedule 2 ≠
      runReferenceScalar freshModule none 0 realMath AnnealingKernel.frozenRng ()
        AnnealingKernel.frozenSchedule 2 sinkChain :=
  frozen_runs_differ realMath sinkChain_shares

end Examples

end Annealing
end AtlasMemory
