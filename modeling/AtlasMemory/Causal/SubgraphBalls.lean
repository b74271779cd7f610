import AtlasMemory.Causal.Recalibration
import AtlasMemory.Foundations.LayerSearch

/-!
# The nodes of a subgraph

`get_subgraph_relations` for a list of entities: the roots are a set, which is iterated in any order,
and each is searched for at least one layer.  The nodes that are found are near a root, and every
root with its neighbours is found; what is near a root is found if the searches from the roots
before do not cut the way to it off, since all searches share the set of the nodes that were found.
-/

namespace AtlasMemory

/-- The order in which a set is iterated. -/
structure SetIteration where
  iterate : List String → List String
  iterate_perm : ∀ l, (iterate l).Perm l

/-- What `get_subgraph_relations` returns. -/
structure SubgraphRelations where
  activeRoots : List String
  matchedNodesCount : ℕ
  nodes : List String
  relations : List (Edge × EdgeAttrs)

namespace RetroCausalEngine

variable {ρ : Type} (engine : RetroCausalEngine ρ) (sets : SetIteration)

/-- `matched_roots`. -/
def matchedRoots (g : KuzuGraphStore) (entities : List String) : List String :=
  g.nodes.keys.filter fun n =>
    entities.any fun entity => decide (entity ≠ "") && engine.matchesRoot entity n

/-- `subgraph_nodes`. -/
def subgraphNodes (g : KuzuGraphStore) (entities : List String) (maxDepth : ℤ) : List String :=
  (sets.iterate (engine.matchedRoots g entities)).foldl (fun seen root =>
    expand g (max 1 maxDepth).toNat [root] (if root ∈ seen then seen else seen ++ [root])) []

/-- `get_subgraph_relations`. -/
def getSubgraphRelations (g : KuzuGraphStore) (entities : List String) (maxDepth : ℤ) :
    SubgraphRelations :=
  let roots := engine.matchedRoots g entities
  let nodes := engine.subgraphNodes sets g entities maxDepth
  { activeRoots := if roots = [] then entities else sets.iterate roots
    matchedNodesCount := nodes.length
    nodes := sets.iterate nodes
    relations := g.edges.entries.filter fun e =>
      decide (e.1.subject ∈ nodes ∧ e.1.object ∈ nodes) }

/-- There is an edge between the nodes, in either direction. -/
def Neighbour (g : KuzuGraphStore) (x y : String) : Prop :=
  y ∈ g.nodes.keys ∧ ∃ e ∈ g.edges.keys,
    (e.subject = x ∧ e.object = y) ∨ (e.object = x ∧ e.subject = y)

/-- The node is within so many steps of the root. -/
def WithinSteps (g : KuzuGraphStore) : ℕ → String → String → Prop :=
  LayerSearch.Within (Neighbour g) fun _ => False

variable {engine sets} {g : KuzuGraphStore}

lemma isNext_nextLayer (g : KuzuGraphStore) : LayerSearch.IsNext (nextLayer g) (Neighbour g) := by
  intro layer seen y
  unfold nextLayer
  rw [List.mem_filter, List.mem_filter, List.any_eq_true]
  simp only [Bool.or_eq_true, decide_eq_true_eq]
  constructor
  · rintro ⟨⟨hy, e, he, ⟨hx, rfl⟩ | ⟨hx, rfl⟩⟩, hfree⟩
    · exact ⟨hfree, e.subject, hx, hy, e, he, Or.inl ⟨rfl, rfl⟩⟩
    · exact ⟨hfree, e.object, hx, hy, e, he, Or.inr ⟨rfl, rfl⟩⟩
  · rintro ⟨hfree, x, hx, hy, e, he, ⟨rfl, rfl⟩ | ⟨rfl, rfl⟩⟩
    · exact ⟨⟨hy, e, he, Or.inl ⟨hx, rfl⟩⟩, hfree⟩
    · exact ⟨⟨hy, e, he, Or.inr ⟨hx, rfl⟩⟩, hfree⟩

lemma expand_eq (g : KuzuGraphStore) (n : ℕ) (layer seen : List String) :
    expand g n layer seen = LayerSearch.expand (nextLayer g) n layer seen := by
  induction n generalizing layer seen with
  | zero => rfl
  | succ n ih =>
      rw [expand, LayerSearch.expand]
      simp only [ih]

lemma subgraphNodes_eq (entities : List String) (maxDepth : ℤ) :
    engine.subgraphNodes sets g entities maxDepth = LayerSearch.searchAll (nextLayer g)
      (max 1 maxDepth).toNat (sets.iterate (engine.matchedRoots g entities)) := by
  unfold subgraphNodes LayerSearch.searchAll LayerSearch.searchRoot
  simp only [expand_eq]

/-- The relations for one entity are those of the relations around it. -/
lemma relations_getSubgraphRelations {entity : String} (maxDepth : ℕ)
    (hsets : ∀ l, sets.iterate l = l) :
    (engine.getSubgraphRelations sets g [entity] maxDepth).relations.map
      (fun e => (e.1, e.2.confidence)) = engine.subgraphRelations g entity maxDepth := by
  have hdepth : (max 1 (maxDepth : ℤ)).toNat = max 1 maxDepth := by omega
  have hroots : engine.matchedRoots g [entity] =
      if entity = "" then [] else g.nodes.keys.filter (engine.matchesRoot entity) := by
    unfold matchedRoots
    split_ifs with hentity
    · simp [hentity]
    · simp [hentity]
  simp only [getSubgraphRelations, subgraphNodes, subgraphRelations, hdepth, hsets, hroots]

lemma mem_nodes_iff {entities : List String} {maxDepth : ℤ} {v : String} :
    v ∈ (engine.getSubgraphRelations sets g entities maxDepth).nodes ↔
      v ∈ LayerSearch.searchAll (nextLayer g) (max 1 maxDepth).toNat
        (sets.iterate (engine.matchedRoots g entities)) := by
  rw [← subgraphNodes_eq]
  exact (sets.iterate_perm _).mem_iff

/-- What is found is within the depth of a root, the least depth being one; every root and its
neighbours are found; and if no root is cut off, everything within the depth of a root is. -/
theorem getSubgraphRelations_balls (engine : RetroCausalEngine ρ) (sets : SetIteration)
    (g : KuzuGraphStore) (entities : List String) (maxDepth : ℤ) :
    let nodes := (engine.getSubgraphRelations sets g entities maxDepth).nodes
    let roots := sets.iterate (engine.matchedRoots g entities)
    let depth := (max 1 maxDepth).toNat
    (∀ v ∈ nodes, ∃ root ∈ engine.matchedRoots g entities, WithinSteps g depth root v) ∧
      (∀ root ∈ engine.matchedRoots g entities, ∀ v, v = root ∨ Neighbour g root v → v ∈ nodes) ∧
      (LayerSearch.Uncut (Neighbour g) depth roots → ∀ v, v ∈ nodes ↔
        ∃ root ∈ engine.matchedRoots g entities, WithinSteps g depth root v) := by
  have hroots : ∀ {root}, root ∈ sets.iterate (engine.matchedRoots g entities) ↔
      root ∈ engine.matchedRoots g entities := fun {root} => (sets.iterate_perm _).mem_iff
  have hnext := isNext_nextLayer g
  refine ⟨?_, ?_, ?_⟩
  · intro v hv
    obtain ⟨root, hroot, hnear⟩ := LayerSearch.exists_root_of_mem hnext (mem_nodes_iff.mp hv)
    exact ⟨root, hroots.mp hroot, hnear⟩
  · intro root hroot v hv
    exact mem_nodes_iff.mpr
      (LayerSearch.mem_searchAll_of_step hnext (by omega) (hroots.mpr hroot) hv)
  · intro huncut v
    rw [mem_nodes_iff, LayerSearch.mem_searchAll_of_uncut hnext huncut]
    simp only [hroots]
    rfl

/-! ## A chain of two services -/

/-- Sets that are iterated as they were made. -/
def madeOrder : SetIteration := ⟨fun l => l, fun l => List.Perm.refl l⟩

def halfEngine : RetroCausalEngine Unit := constantEngine (1 / 2) (by norm_num)

/-- A search from one root is not cut off. -/
theorem getSubgraphRelations_balls_one (v : String) :
    v ∈ (halfEngine.getSubgraphRelations madeOrder sampleGraph ["service:api"] 2).nodes ↔
      WithinSteps sampleGraph 2 "service:api" v := by
  have hroots : halfEngine.matchedRoots sampleGraph ["service:api"] = ["service:api"] := by
    decide +kernel
  have hballs := (getSubgraphRelations_balls halfEngine madeOrder sampleGraph ["service:api"] 2).2.2
  rw [hroots] at hballs
  rw [hballs (LayerSearch.uncut_singleton "service:api")]
  simp

/-- At depth zero the neighbour of the root is found, although it is not within zero steps. -/
theorem neighbour_found_at_zero :
    "service:db" ∈
      (halfEngine.getSubgraphRelations madeOrder sampleGraph ["service:api"] 0).nodes ∧
    ¬ ∃ root ∈ halfEngine.matchedRoots sampleGraph ["service:api"],
      WithinSteps sampleGraph 0 root "service:db" := by
  have hroots : halfEngine.matchedRoots sampleGraph ["service:api"] = ["service:api"] := by
    decide +kernel
  refine ⟨by decide +kernel, ?_⟩
  rw [hroots]
  rintro ⟨root, hroot, hwithin⟩
  have hsame : root = "service:db" := hwithin
  rw [List.mem_singleton.mp hroot] at hsame
  exact absurd hsame (by decide)

end RetroCausalEngine

end AtlasMemory
