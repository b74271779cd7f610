import AtlasMemory.Foundations.PyText
import AtlasMemory.L2Semantic.RamMultigraph

/-!
# The index of the names

A node is found by its name in any case if the index of the names has it.  The index is kept by
`add_node`, `add_nodes_from`, `remove_node` and `clear`, and falls behind where a node comes or goes
past it: an edge adds its ends, an iterator is empty when the names are read from it, white space
around a name is cut off in the index only, and names that differ in case share one entry.

In a run without such a step every name is found and no entry is left behind,
`run_coherent`.  The index of the words keeps names of nodes that are gone, and is filtered when it
is read.
-/

namespace AtlasMemory

namespace AtlasMultiDiGraph

variable (txt : NodeText)

/-! ## Coherence -/

/-- The names of the nodes resolve in any case, no entry of the index names a node that is not
there, and the count of the edges is right. -/
structure Coherent (g : AtlasMultiDiGraph) : Prop where
  resolves : ∀ n ∈ g.nodes.keys, ∀ t, txt.lower t = txt.lower n →
    ∃ m ∈ g.nodes.keys, g.resolveCanonicalNode txt t = some m
  canonical : ∀ k m, g.canonicalLower.get? k = some m → m ∈ g.nodes.keys
  nodeIndex : ∀ k m, g.nodeIndexLower.get? k = some m → m ∈ g.nodes.keys
  cached : ∀ count, g.cachedEdgeCount = some count → count = g.edges.size
  counted : g.numberOfEdges.1 = g.edges.size

/-- The node is not missed if it appears without being indexed, along with others: it is there, or
its name has an entry, or every name that is the same in lower case is that of a node. -/
def MayAppear (g : AtlasMultiDiGraph) (along : List String) (n : String) : Prop :=
  n ∈ g.nodes.keys ∨ folded txt n ∈ g.canonicalLower.keys ∨
    ∀ t, txt.lower t = txt.lower n → t ∈ along ∨ t ∈ g.nodes.keys

/-- Nodes of these names may be added and their names read again for the index: what an entry has is
the name without the white space around it. -/
def MayBeIndexed (g : AtlasMultiDiGraph) (names : List String) : Prop :=
  ∀ n ∈ names, if PyString.strip n = "" then MayAppear txt g names n
    else PyString.strip n ∈ g.nodes.keys ∨ PyString.strip n ∈ names

/-- The entries of these names may be taken out: a node that stays has another entry, or all names
that are the same in lower case are those of nodes that stay. -/
def MayLose (g : AtlasMultiDiGraph) (popped gone : List String) : Prop :=
  ∀ m ∈ g.nodes.keys, m ∉ gone → (∃ n ∈ popped, folded txt n = folded txt m) →
    ∀ t, txt.lower t = txt.lower m → t ∉ gone ∧ t ∈ g.nodes.keys

def endsOf (ebunch : List EdgeItem) : List String := ebunch.flatMap fun e => [e.source, e.target]

/-- The step does not pass the index. -/
def KeepsIndex (g : AtlasMultiDiGraph) : Call → Prop
  | .addNode n _ => MayBeIndexed txt g [n]
  | .addNodesFrom nodes _ =>
    if nodes.reiterable then MayBeIndexed txt g (nodes.items.map Prod.fst)
    else ∀ n ∈ nodes.items.map Prod.fst, MayAppear txt g (nodes.items.map Prod.fst) n
  | .addEdge u v _ _ => ∀ n ∈ [u, v], MayAppear txt g [u, v] n
  | .addEdgesFrom ebunch _ => ∀ n ∈ endsOf ebunch, MayAppear txt g (endsOf ebunch) n
  | .removeNode n => MayLose txt g [n] [n]
  | .removeNodesFrom nodes => MayLose txt g nodes.items nodes.again
  | .removeEdge .. | .removeEdgesFrom _ | .clear | .clearEdges | .bumpRevision | .numberOfEdges
  | .writeEdge .. => True

/-- Every step of the run keeps the index. -/
def RunKeepsIndex : AtlasMultiDiGraph → List Call → Prop
  | _, [] => True
  | g, c :: cs => KeepsIndex txt g c ∧ RunKeepsIndex (g.step txt c) cs

/-! ## The invariant -/

/-- The invariant of the runs; the names of `pending` are still to be indexed. -/
structure IndexInvariant (g : AtlasMultiDiGraph) (pending : List String) : Prop where
  same : g.nodeIndexLower = g.canonicalLower
  entry : ∀ k m, g.canonicalLower.get? k = some m → m ∈ g.nodes.keys ∧ folded txt m = k
  found : ∀ n ∈ g.nodes.keys, n ∈ pending ∨ folded txt n ∈ g.canonicalLower.keys ∨
    ∀ t, txt.lower t = txt.lower n → t ∈ g.nodes.keys
  cached : ∀ count, g.cachedEdgeCount = some count → count = g.edges.size

variable {txt} {g : AtlasMultiDiGraph} {pending : List String}

lemma folded_congr {s t : String} (h : txt.lower t = txt.lower s) :
    folded txt t = folded txt s := by
  rw [folded, folded, ← txt.strip_lower, ← txt.strip_lower, h]

lemma counted_of_cached (h : ∀ count, g.cachedEdgeCount = some count → count = g.edges.size) :
    g.numberOfEdges.1 = g.edges.size := by
  unfold numberOfEdges
  split
  next count hcount => exact h count hcount
  next => rfl

theorem IndexInvariant.coherent (h : IndexInvariant txt g []) : Coherent txt g where
  resolves n hn t ht := by
    unfold resolveCanonicalNode
    by_cases hnode : g.hasNode t = true
    · exact ⟨t, PyDict.mem_keys_iff.mpr hnode, if_pos hnode⟩
    · rw [if_neg hnode]
      rcases (h.found n hn).resolve_left List.not_mem_nil with hentry | hcase
      · have hkey : PyString.strip (txt.lower t) = folded txt n := by
          rw [ht, txt.strip_lower]
          rfl
        obtain ⟨m, hm⟩ := Option.isSome_iff_exists.mp (PyDict.mem_keys_iff.mp hentry)
        exact ⟨m, (h.entry _ m hm).1, hkey ▸ hm⟩
      · exact absurd (PyDict.mem_keys_iff.mp (hcase t ht)) hnode
  canonical k m hm := (h.entry k m hm).1
  nodeIndex k m hm := (h.entry k m (h.same ▸ hm)).1
  cached := h.cached
  counted := counted_of_cached h.cached

/-! ## The names of the nodes -/

lemma mem_keys_addNode {g : MultiDiGraph} {n m : String} {attr : Attributes} :
    m ∈ (g.addNode n attr).nodes.keys ↔ m = n ∨ m ∈ g.nodes.keys := by
  simp only [MultiDiGraph.addNode, PyDict.mem_keys_iff, PyDict.get?_set]
  by_cases h : n = m
  · simp [h]
  · simp [h, Ne.symm h]

lemma mem_keys_addNodesFrom {g : MultiDiGraph} {items : List (String × Attributes)} {m : String}
    {attr : Attributes} : m ∈ (g.addNodesFrom items attr).nodes.keys ↔
      m ∈ items.map Prod.fst ∨ m ∈ g.nodes.keys := by
  unfold MultiDiGraph.addNodesFrom
  induction items generalizing g with
  | nil => simp
  | cons x items ih =>
      rw [List.foldl_cons, ih, mem_keys_addNode, List.map_cons, List.mem_cons]
      tauto

lemma edges_addNodesFrom (g : MultiDiGraph) (items : List (String × Attributes))
    (attr : Attributes) : (g.addNodesFrom items attr).edges = g.edges := by
  unfold MultiDiGraph.addNodesFrom
  induction items generalizing g with
  | nil => rfl
  | cons x items ih => exact ih _

lemma mem_keys_ensureNode {g : MultiDiGraph} {n m : String} :
    m ∈ (g.ensureNode n).nodes.keys ↔ m = n ∨ m ∈ g.nodes.keys := by
  unfold MultiDiGraph.ensureNode
  split_ifs with h
  · constructor
    · exact Or.inr
    · rintro (rfl | hm)
      · exact PyDict.mem_keys_iff.mpr h
      · exact hm
  · exact mem_keys_addNode

lemma mem_keys_addEdge {g : MultiDiGraph} {u v m : String} {key : Option EdgeKey}
    {attr : Attributes} : m ∈ (g.addEdge u v key attr).nodes.keys ↔
      m = v ∨ m = u ∨ m ∈ g.nodes.keys := by
  show m ∈ ((g.ensureNode u).ensureNode v).nodes.keys ↔ _
  rw [mem_keys_ensureNode, mem_keys_ensureNode]

lemma mem_keys_removeNode {g : MultiDiGraph} {n m : String} :
    m ∈ ((g.removeNode n).getD g).nodes.keys ↔ m ≠ n ∧ m ∈ g.nodes.keys := by
  unfold MultiDiGraph.removeNode
  split_ifs with h
  · simp only [Option.getD_some, PyDict.mem_keys_iff, PyDict.get?_erase]
    by_cases hm : n = m
    · simp [hm]
    · simp [hm, Ne.symm hm]
  · simp only [Option.getD_none]
    constructor
    · intro hm
      refine ⟨?_, hm⟩
      rintro rfl
      exact h (PyDict.mem_keys_iff.mp hm)
    · exact And.right

lemma mem_keys_removeNodesFrom {g : MultiDiGraph} {ns : List String} {m : String} :
    m ∈ (g.removeNodesFrom ns).nodes.keys ↔ m ∉ ns ∧ m ∈ g.nodes.keys := by
  unfold MultiDiGraph.removeNodesFrom
  induction ns generalizing g with
  | nil => simp
  | cons n ns ih =>
      rw [List.foldl_cons, ih, mem_keys_removeNode, List.mem_cons]
      tauto

lemma nodes_removeEdge (g : MultiDiGraph) (u v : String) (key : Option EdgeKey) :
    ((g.removeEdge u v key).getD g).nodes = g.nodes := by
  unfold MultiDiGraph.removeEdge
  cases key with
  | some k =>
      simp only
      split_ifs <;> rfl
  | none =>
      simp only
      cases (g.edgesBetween u v).getLast? <;> rfl

/-! ## The parts of the steps -/

/-- Nodes that may appear do so, and the index stays as it is. -/
lemma IndexInvariant.appear {g' : AtlasMultiDiGraph} {names : List String}
    (h : IndexInvariant txt g []) (hindex : g'.canonicalLower = g.canonicalLower)
    (hsame : g'.nodeIndexLower = g.nodeIndexLower)
    (hnodes : ∀ n, n ∈ g'.nodes.keys ↔ n ∈ names ∨ n ∈ g.nodes.keys)
    (hnew : ∀ n ∈ names, MayAppear txt g names n ∨ n ∈ pending)
    (hcached : ∀ count, g'.cachedEdgeCount = some count → count = g'.edges.size) :
    IndexInvariant txt g' pending where
  same := by rw [hsame, hindex, h.same]
  entry k m hm := by
    rw [hindex] at hm
    exact ⟨(hnodes m).mpr (Or.inr (h.entry k m hm).1), (h.entry k m hm).2⟩
  found n hn := by
    rw [hindex]
    have hkept : n ∈ g.nodes.keys → folded txt n ∈ g.canonicalLower.keys ∨
        ∀ t, txt.lower t = txt.lower n → t ∈ g'.nodes.keys := by
      intro hold
      rcases (h.found n hold).resolve_left List.not_mem_nil with hentry | hcase
      · exact Or.inl hentry
      · exact Or.inr fun t ht => (hnodes t).mpr (Or.inr (hcase t ht))
    rcases (hnodes n).mp hn with hname | hold
    · rcases hnew n hname with (hold | hentry | hcase) | hpending
      · exact Or.inr (hkept hold)
      · exact Or.inr (Or.inl hentry)
      · exact Or.inr (Or.inr fun t ht => (hnodes t).mpr (hcase t ht))
      · exact Or.inl hpending
    · exact Or.inr (hkept hold)
  cached := hcached

variable (txt) in
lemma nodes_indexNodeEntry (g : AtlasMultiDiGraph) (n : String) :
    (indexNodeEntry txt g n).toMultiDiGraph = g.toMultiDiGraph := by
  unfold indexNodeEntry
  simp only
  split_ifs <;> rfl

lemma IndexInvariant.indexed {n : String} (h : IndexInvariant txt g (n :: pending))
    (hblank : PyString.strip n ≠ "") (hn : PyString.strip n ∈ g.nodes.keys) :
    IndexInvariant txt (indexNodeEntry txt g n) pending := by
  have hgraph := nodes_indexNodeEntry txt g n
  have hindex : (indexNodeEntry txt g n).canonicalLower =
      g.canonicalLower.set (folded txt n) (PyString.strip n) := by
    simp only [indexNodeEntry, if_neg hblank, folded]
  have hother : (indexNodeEntry txt g n).nodeIndexLower =
      g.nodeIndexLower.set (folded txt n) (PyString.strip n) := by
    simp only [indexNodeEntry, if_neg hblank, folded]
  have hcount : (indexNodeEntry txt g n).cachedEdgeCount = g.cachedEdgeCount := by
    simp only [indexNodeEntry, if_neg hblank]
  constructor
  · rw [hother, hindex, h.same]
  · intro k m hm
    rw [hindex, PyDict.get?_set] at hm
    rw [hgraph]
    split_ifs at hm with hk
    · rw [← Option.some.inj hm]
      refine ⟨hn, ?_⟩
      rw [folded, PyString.strip_strip]
      exact hk
    · exact h.entry k m hm
  · intro m hm
    rw [hgraph] at hm
    have hmono : ∀ k, k ∈ g.canonicalLower.keys ∨ k = folded txt n →
        k ∈ (indexNodeEntry txt g n).canonicalLower.keys := by
      intro k hk
      rw [hindex, PyDict.mem_keys_iff, PyDict.get?_set]
      rcases hk with hk | rfl
      · split_ifs
        · rfl
        · exact PyDict.mem_keys_iff.mp hk
      · simp
    rcases h.found m hm with hmem | hentry | hcase
    · rcases List.mem_cons.mp hmem with rfl | hmem
      · exact Or.inr (Or.inl (hmono _ (Or.inr rfl)))
      · exact Or.inl hmem
    · exact Or.inr (Or.inl (hmono _ (Or.inl hentry)))
    · rw [hgraph]
      exact Or.inr (Or.inr hcase)
  · rw [hcount, hgraph]
    exact h.cached

/-- The names are indexed one after the other; the blank ones are passed over. -/
lemma IndexInvariant.indexedAll {names : List String}
    (h : IndexInvariant txt g (names.filter fun n => decide (PyString.strip n ≠ "")))
    (hnames : ∀ n ∈ names, PyString.strip n ≠ "" → PyString.strip n ∈ g.nodes.keys) :
    IndexInvariant txt (names.foldl (indexNodeEntry txt) g) [] := by
  induction names generalizing g with
  | nil => exact h
  | cons n names ih =>
      rw [List.foldl_cons]
      have hgraph := nodes_indexNodeEntry txt g n
      have hrest : ∀ m ∈ names, PyString.strip m ≠ "" →
          PyString.strip m ∈ (indexNodeEntry txt g n).nodes.keys := by
        intro m hm hne
        rw [hgraph]
        exact hnames m (List.mem_cons_of_mem _ hm) hne
      by_cases hblank : PyString.strip n = ""
      · rw [List.filter_cons_of_neg (by simpa using hblank)] at h
        refine ih ?_ hrest
        rw [show indexNodeEntry txt g n = g by simp only [indexNodeEntry, if_pos hblank]]
        exact h
      · rw [List.filter_cons_of_pos (by simpa using hblank)] at h
        exact ih (h.indexed hblank (hnames n List.mem_cons_self hblank)) hrest

lemma IndexInvariant.added {g' : AtlasMultiDiGraph} {names : List String}
    (h : IndexInvariant txt g []) (hmay : MayBeIndexed txt g names)
    (hindex : g'.canonicalLower = g.canonicalLower) (hsame : g'.nodeIndexLower = g.nodeIndexLower)
    (hnodes : ∀ n, n ∈ g'.nodes.keys ↔ n ∈ names ∨ n ∈ g.nodes.keys)
    (hcached : ∀ count, g'.cachedEdgeCount = some count → count = g'.edges.size) :
    IndexInvariant txt (names.foldl (indexNodeEntry txt) g') [] := by
  apply IndexInvariant.indexedAll
  · refine h.appear hindex hsame hnodes ?_ hcached
    intro n hname
    by_cases hblank : PyString.strip n = ""
    · have hmay' := hmay n hname
      rw [if_pos hblank] at hmay'
      exact Or.inl hmay'
    · exact Or.inr (List.mem_filter.mpr ⟨hname, by simpa using hblank⟩)
  · intro n hn hblank
    have hmay' := hmay n hn
    rw [if_neg hblank] at hmay'
    rw [hnodes]
    exact hmay'.symm

lemma popEntries (g : AtlasMultiDiGraph) (ns : List String) :
    (ns.foldl (popEntry txt) g).toMultiDiGraph = g.toMultiDiGraph ∧
      (ns.foldl (popEntry txt) g).cachedEdgeCount = g.cachedEdgeCount ∧
      ∀ k, (ns.foldl (popEntry txt) g).canonicalLower.get? k =
        if k ∈ ns.map (folded txt) then none else g.canonicalLower.get? k := by
  induction ns generalizing g with
  | nil => exact ⟨rfl, rfl, fun k => by simp⟩
  | cons n ns ih =>
      obtain ⟨hgraph, hcount, hget⟩ := ih (popEntry txt g n)
      refine ⟨hgraph, hcount, fun k => ?_⟩
      rw [List.foldl_cons, hget]
      have hpop : (popEntry txt g n).canonicalLower.get? k =
          if folded txt n = k then none else g.canonicalLower.get? k :=
        PyDict.get?_erase g.canonicalLower (folded txt n) k
      simp only [hpop, List.map_cons, List.mem_cons]
      by_cases hk : folded txt n = k
      · simp [hk]
      · by_cases hmem : k ∈ ns.map (folded txt)
        · simp [hmem]
        · simp [hmem, hk, Ne.symm hk]

lemma same_popEntries (ns : List String) (h : g.nodeIndexLower = g.canonicalLower) :
    (ns.foldl (popEntry txt) g).nodeIndexLower = (ns.foldl (popEntry txt) g).canonicalLower := by
  induction ns generalizing g with
  | nil => exact h
  | cons n ns ih =>
      apply ih
      show g.nodeIndexLower.erase _ = g.canonicalLower.erase _
      rw [h]

lemma IndexInvariant.removed {g' : AtlasMultiDiGraph} {popped gone : List String}
    (h : IndexInvariant txt g []) (hmay : MayLose txt g popped gone)
    (hsub : ∀ n ∈ gone, n ∈ popped) (hsame : g'.nodeIndexLower = g'.canonicalLower)
    (hindex : ∀ k, g'.canonicalLower.get? k =
      if k ∈ popped.map (folded txt) then none else g.canonicalLower.get? k)
    (hnodes : ∀ n, n ∈ g'.nodes.keys ↔ n ∉ gone ∧ n ∈ g.nodes.keys)
    (hcached : g'.cachedEdgeCount = none) : IndexInvariant txt g' [] where
  same := hsame
  entry k m hm := by
    rw [hindex] at hm
    split_ifs at hm with hk
    obtain ⟨hmem, hfold⟩ := h.entry k m hm
    refine ⟨(hnodes m).mpr ⟨fun hgone => hk ?_, hmem⟩, hfold⟩
    exact List.mem_map.mpr ⟨m, hsub m hgone, hfold⟩
  found m hm := by
    obtain ⟨hgone, hmem⟩ := (hnodes m).mp hm
    by_cases hk : folded txt m ∈ popped.map (folded txt)
    · obtain ⟨n, hn, hfold⟩ := List.mem_map.mp hk
      exact Or.inr (Or.inr fun t ht => (hnodes t).mpr (hmay m hmem hgone ⟨n, hn, hfold⟩ t ht))
    · rcases (h.found m hmem).resolve_left List.not_mem_nil with hentry | hcase
      · refine Or.inr (Or.inl ?_)
        rw [PyDict.mem_keys_iff, hindex, if_neg hk]
        exact PyDict.mem_keys_iff.mp hentry
      · -- a name that is the same in lower case has the same entry
        refine Or.inr (Or.inr fun t ht => (hnodes t).mpr ⟨fun hgone' => hk ?_, hcase t ht⟩)
        exact List.mem_map.mpr ⟨t, hsub t hgone', folded_congr ht⟩
  cached count hcount := by
    rw [hcached] at hcount
    exact absurd hcount (by simp)

lemma size_set_of_mem {κ ν : Type*} [DecidableEq κ] {d : PyDict κ ν} {k : κ} {v : ν}
    (h : k ∈ d.keys) : (d.set k v).size = d.size := by
  have hkeys : (d.set k v).entries.map Prod.fst = d.entries.map Prod.fst := by
    rw [show (d.set k v).entries = PyDict.assign k v d.entries from rfl, PyDict.map_fst_assign]
    exact if_pos h
  simpa [PyDict.size] using congrArg List.length hkeys

/-- What a change of edges and of the nodes at them leaves as it is. -/
structure Extends (g g' : AtlasMultiDiGraph) (ends : List String) : Prop where
  canonical : g'.canonicalLower = g.canonicalLower
  nodeIndex : g'.nodeIndexLower = g.nodeIndexLower
  mem_iff : ∀ m, m ∈ g'.nodes.keys ↔ m ∈ ends ∨ m ∈ g.nodes.keys
  uncounted : g'.cachedEdgeCount = none

lemma extends_addEdge (g : AtlasMultiDiGraph) (u v : String) (key : Option EdgeKey)
    (attr : Attributes) : Extends g (g.addEdge u v key attr) [u, v] where
  canonical := rfl
  nodeIndex := rfl
  uncounted := rfl
  mem_iff m := by
    simp only [List.mem_cons, List.not_mem_nil, or_false]
    exact mem_keys_addEdge.trans (by tauto)

lemma extends_addEdgesFrom (g : AtlasMultiDiGraph) (ebunch : List EdgeItem) (attr : Attributes) :
    Extends g (g.addEdgesFrom ebunch attr) (endsOf ebunch) := by
  have hloop : ∀ g : AtlasMultiDiGraph, g.cachedEdgeCount = none →
      Extends g (ebunch.foldl (fun g e => g.addEdge e.source e.target e.key (updated attr e.data)) g)
        (endsOf ebunch) := by
    induction ebunch with
    | nil => exact fun g hg => ⟨rfl, rfl, fun m => by simp [endsOf], hg⟩
    | cons e ebunch ih =>
        intro g _
        have hfirst := extends_addEdge g e.source e.target e.key (updated attr e.data)
        have hrest := ih _ hfirst.uncounted
        refine ⟨hrest.canonical.trans hfirst.canonical, hrest.nodeIndex.trans hfirst.nodeIndex,
          fun m => ?_, hrest.uncounted⟩
        rw [List.foldl_cons, hrest.mem_iff, hfirst.mem_iff, endsOf, endsOf, List.flatMap_cons,
          List.mem_append]
        tauto
  have htouched := hloop g.touched rfl
  exact ⟨htouched.canonical, htouched.nodeIndex, htouched.mem_iff, htouched.uncounted⟩

lemma extends_removeEdge (g : AtlasMultiDiGraph) (u v : String) (key : Option EdgeKey) :
    Extends g (g.removeEdge u v key) [] where
  canonical := rfl
  nodeIndex := rfl
  uncounted := rfl
  mem_iff m := by
    have hnodes : (g.removeEdge u v key).nodes = g.nodes := nodes_removeEdge _ u v key
    rw [hnodes]
    simp

lemma extends_removeEdgesFrom (g : AtlasMultiDiGraph)
    (ebunch : List (String × String × Option EdgeKey)) :
    Extends g (g.removeEdgesFrom ebunch) [] := by
  have hloop : ∀ g : AtlasMultiDiGraph, g.cachedEdgeCount = none →
      Extends g (ebunch.foldl (fun g e => g.removeEdge e.1 e.2.1 e.2.2) g) [] := by
    induction ebunch with
    | nil => exact fun g hg => ⟨rfl, rfl, fun m => by simp, hg⟩
    | cons e ebunch ih =>
        intro g _
        have hfirst := extends_removeEdge g e.1 e.2.1 e.2.2
        have hrest := ih _ hfirst.uncounted
        exact ⟨hrest.canonical.trans hfirst.canonical, hrest.nodeIndex.trans hfirst.nodeIndex,
          fun m => by rw [List.foldl_cons, hrest.mem_iff, hfirst.mem_iff]; simp, hrest.uncounted⟩
  have htouched := hloop g.touched rfl
  exact ⟨htouched.canonical, htouched.nodeIndex, htouched.mem_iff, htouched.uncounted⟩

lemma IndexInvariant.extended {g' : AtlasMultiDiGraph} {ends : List String}
    (h : IndexInvariant txt g []) (hext : Extends g g' ends)
    (hends : ∀ n ∈ ends, MayAppear txt g ends n) : IndexInvariant txt g' [] := by
  refine h.appear hext.canonical hext.nodeIndex hext.mem_iff (fun n hn => Or.inl (hends n hn)) ?_
  intro count hcount
  rw [hext.uncounted] at hcount
  exact absurd hcount (by simp)

/-- A step that does not pass the index keeps the invariant. -/
theorem IndexInvariant.step (h : IndexInvariant txt g []) (c : Call) (hc : KeepsIndex txt g c) :
    IndexInvariant txt (g.step txt c) [] := by
  cases c with
  | addNode n attr =>
      have hmem : ∀ m, m ∈ (g.toMultiDiGraph.addNode n attr).nodes.keys ↔
          m ∈ [n] ∨ m ∈ g.nodes.keys := by
        intro m
        rw [List.mem_singleton]
        exact mem_keys_addNode
      show IndexInvariant txt ([n].foldl (indexNodeEntry txt)
        { g.bumpRevision with toMultiDiGraph := g.toMultiDiGraph.addNode n attr }) []
      exact h.added hc rfl rfl hmem h.cached
  | addNodesFrom nodes attr =>
      have hmem : ∀ m, m ∈ (g.toMultiDiGraph.addNodesFrom nodes.items attr).nodes.keys ↔
          m ∈ nodes.items.map Prod.fst ∨ m ∈ g.nodes.keys := fun m => mem_keys_addNodesFrom
      have hcached : ∀ count, g.cachedEdgeCount = some count →
          count = (g.toMultiDiGraph.addNodesFrom nodes.items attr).edges.size := by
        rw [edges_addNodesFrom]
        exact h.cached
      rw [AtlasMultiDiGraph.step, AtlasMultiDiGraph.addNodesFrom]
      simp only [KeepsIndex] at hc
      unfold Argument.again
      split_ifs at hc ⊢ with hre
      · exact h.added hc rfl rfl hmem hcached
      · -- the iterator is empty when the names are read
        exact h.appear rfl rfl hmem (fun n hn => Or.inl (hc n hn)) hcached
  | addEdge u v key attr =>
      exact h.extended (extends_addEdge g u v key attr) hc
  | addEdgesFrom ebunch attr => exact h.extended (extends_addEdgesFrom g ebunch attr) hc
  | removeEdge u v key => exact h.extended (extends_removeEdge g u v key) (by simp)
  | removeEdgesFrom ebunch => exact h.extended (extends_removeEdgesFrom g ebunch) (by simp)
  | removeNode n =>
      have hmay : MayLose txt g [n] [n] := hc
      have hsame : g.touched.nodeIndexLower = g.touched.canonicalLower := h.same
      refine h.removed hmay (fun _ hm => hm) (same_popEntries [n] hsame) (fun k => ?_)
        (fun m => ?_) rfl
      · exact (popEntries g.touched [n]).2.2 k
      · rw [List.mem_singleton]
        exact mem_keys_removeNode
  | removeNodesFrom nodes =>
      have hmay : MayLose txt g nodes.items nodes.again := hc
      have hsame : g.touched.nodeIndexLower = g.touched.canonicalLower := h.same
      refine h.removed hmay (fun m hm => ?_) (same_popEntries nodes.items hsame) (fun k => ?_)
        (fun m => ?_) ?_
      · unfold Argument.again at hm
        split_ifs at hm
        · exact hm
        · exact absurd hm List.not_mem_nil
      · exact (popEntries g.touched nodes.items).2.2 k
      · exact mem_keys_removeNodesFrom
      · exact (popEntries g.touched nodes.items).2.1
  | clear => exact ⟨rfl, nofun, nofun, fun count hcount => (Option.some.inj hcount).symm⟩
  | clearEdges => exact ⟨h.same, h.entry, h.found, fun count hcount => (Option.some.inj hcount).symm⟩
  | bumpRevision => exact ⟨h.same, h.entry, h.found, h.cached⟩
  | numberOfEdges =>
      show IndexInvariant txt g.numberOfEdges.2 []
      unfold numberOfEdges
      split
      next => exact h
      next => exact ⟨h.same, h.entry, h.found, fun count hcount => (Option.some.inj hcount).symm⟩
  | writeEdge r name value =>
      show IndexInvariant txt (g.writeEdge r name value) []
      unfold writeEdge
      split
      next attrs hattrs =>
        refine ⟨h.same, h.entry, h.found, fun count hcount => ?_⟩
        rw [size_set_of_mem (PyDict.mem_keys_of_get? hattrs)]
        exact h.cached count hcount
      next => exact h

/-! ## Runs -/

lemma indexInvariant_empty : IndexInvariant txt empty [] :=
  ⟨rfl, nofun, nofun, fun _ hcount => (Option.some.inj hcount).symm⟩

lemma IndexInvariant.run (h : IndexInvariant txt g []) (calls : List Call)
    (hcalls : RunKeepsIndex txt g calls) : IndexInvariant txt (g.run txt calls) [] := by
  induction calls generalizing g with
  | nil => exact h
  | cons c calls ih => exact ih (h.step c hcalls.1) hcalls.2

lemma runKeepsIndex_append {calls later : List Call} :
    RunKeepsIndex txt g (calls ++ later) → RunKeepsIndex txt g calls := by
  induction calls generalizing g with
  | nil => exact fun _ => trivial
  | cons c calls ih => exact fun h => ⟨h.1, ih h.2⟩

variable (txt) in
/-- In every state of a run whose steps do not pass the index, the index is coherent and the count
of the edges is right. -/
theorem run_coherent (calls later : List Call) (h : RunKeepsIndex txt empty (calls ++ later)) :
    Coherent txt (empty.run txt calls) :=
  (indexInvariant_empty.run calls (runKeepsIndex_append h)).coherent

/-! ## A graph from edges -/

lemma isPySpace_toLower (c : Char) : PyText.isPySpace c.toLower = PyText.isPySpace c := by
  unfold Char.toLower
  split_ifs with h
  · have hlow : 65 ≤ c.toNat := UInt32.le_iff_toNat_le.mp h.1
    have hhigh : c.toNat ≤ 90 := UInt32.le_iff_toNat_le.mp h.2
    have hval : (c.val + ('a'.val - 'A'.val)).toNat = c.toNat + 32 := by
      rw [UInt32.toNat_add]
      show (c.toNat + 32) % 2 ^ 32 = _
      omega
    rw [Bool.eq_iff_iff]
    simp only [PyText.isPySpace, Char.toNat, Bool.or_eq_true, Bool.and_eq_true, decide_eq_true_eq]
    simp only [Char.toNat] at hlow hhigh hval
    omega
  · rfl

/-- White space and case of the basic letters. -/
def basicText : NodeText where
  lower s := String.ofList (s.toList.map Char.toLower)
  hasDigit s := s.toList.any Char.isDigit
  fastLemma := id
  strip_lower s := by
    simp only [PyString.strip, PyString.stripWith, String.toList_ofList]
    rw [PyText.stripList_map _ isPySpace_toLower]

/-- An edge between two new nodes: neither is found in another case. -/
theorem edge_ends_unindexed :
    ¬Coherent basicText (empty.run basicText [.addEdge "Nas" "Volume" none ∅]) := by
  intro h
  obtain ⟨m, -, hm⟩ := h.resolves "Nas" (by decide) "NAS" (by decide)
  have hnone : (empty.run basicText [.addEdge "Nas" "Volume" none ∅]).resolveCanonicalNode basicText
      "NAS" = none := by decide
  rw [hnone] at hm
  exact absurd hm (by simp)


/-- Nodes before their edge, and a node that leaves with its entry. -/
theorem run_coherent_nodes_first : Coherent basicText (empty.run basicText
    [.addNode "Nas" ∅, .addNode "Volume" ∅, .addEdge "Nas" "Volume" none ∅, .removeNode "Nas"]) := by
  refine run_coherent basicText
    [.addNode "Nas" ∅, .addNode "Volume" ∅, .addEdge "Nas" "Volume" none ∅, .removeNode "Nas"] []
    ⟨?_, ?_, ?_, ?_, trivial⟩
  · show MayBeIndexed _ _ ["Nas"]
    simp only [MayBeIndexed, List.forall_mem_singleton]
    exact Or.inr (by decide)
  · show MayBeIndexed _ _ ["Volume"]
    simp only [MayBeIndexed, List.forall_mem_singleton]
    exact Or.inr (by decide)
  · intro n hn
    refine Or.inl ?_
    rcases List.mem_pair.mp hn with rfl | rfl
    · decide
    · decide
  · intro m hm hgone hfold
    have hkeys : m ∈ ["Nas", "Volume"] := hm
    rcases List.mem_pair.mp hkeys with rfl | rfl
    · exact absurd (List.mem_singleton_self _) hgone
    · exact absurd hfold (by decide)

end AtlasMultiDiGraph

end AtlasMemory
