import AtlasMemory.L2Semantic.IndexCoherence

/-!
# The revision of the multigraph

Every method that changes the graph raises the revision, but for two ways to change it:
`clear_edges`, which changes the number of the edges, and an attribute that is written in place,
after which `bump_revision` is to be called.  So two states of one run that agree in the revision and
in the number of edges are the same graph, if every write in place was followed by a call that
raises the revision.
-/

namespace AtlasMemory

namespace AtlasMultiDiGraph

def Call.raises : Call → Bool
  | .clearEdges | .numberOfEdges | .writeEdge .. => false
  | _ => true

/-- The call writes an attribute in place. -/
def Call.isWrite : Call → Bool
  | .writeEdge .. => true
  | _ => false

/-- Every write in place is followed by a call that raises the revision. -/
def Settled : List Call → Prop
  | [] => True
  | c :: cs => (c.isWrite = true → ∃ c' ∈ cs, c'.raises = true) ∧ Settled cs

/-- The count of the edges that is kept is right, and a graph whose revision was never raised has no
edges. -/
structure Counted (g : AtlasMultiDiGraph) : Prop where
  cached : ∀ count, g.cachedEdgeCount = some count → count = g.edges.size
  untouched : g.revision = 0 → g.edges.size = 0

variable {txt : NodeText} {g : AtlasMultiDiGraph}

lemma counted_empty : Counted empty where
  cached _ h := (Option.some.inj h).symm
  untouched _ := rfl

lemma Counted.numberOfEdges_fst (h : Counted g) : g.numberOfEdges.1 = g.edges.size :=
  counted_of_cached h.cached

/-! ## The revision after a call -/

lemma revision_indexNodeEntry (txt : NodeText) (g : AtlasMultiDiGraph) (n : String) :
    (indexNodeEntry txt g n).revision = g.revision := by
  unfold indexNodeEntry
  simp only
  split_ifs <;> rfl

lemma cachedEdgeCount_indexNodeEntry (txt : NodeText) (g : AtlasMultiDiGraph) (n : String) :
    (indexNodeEntry txt g n).cachedEdgeCount = g.cachedEdgeCount := by
  unfold indexNodeEntry
  simp only
  split_ifs <;> rfl

/-- Indexing names changes neither the graph nor its count and revision. -/
lemma foldl_indexNodeEntry (txt : NodeText) (g : AtlasMultiDiGraph) (ns : List String) :
    (ns.foldl (indexNodeEntry txt) g).toMultiDiGraph = g.toMultiDiGraph ∧
      (ns.foldl (indexNodeEntry txt) g).cachedEdgeCount = g.cachedEdgeCount ∧
      (ns.foldl (indexNodeEntry txt) g).revision = g.revision := by
  induction ns generalizing g with
  | nil => exact ⟨rfl, rfl, rfl⟩
  | cons n ns ih =>
      obtain ⟨hgraph, hcount, hrevision⟩ := ih (indexNodeEntry txt g n)
      rw [List.foldl_cons]
      exact ⟨hgraph.trans (nodes_indexNodeEntry txt g n),
        hcount.trans (cachedEdgeCount_indexNodeEntry txt g n),
        hrevision.trans (revision_indexNodeEntry txt g n)⟩

lemma revision_popEntries (txt : NodeText) (g : AtlasMultiDiGraph) (ns : List String) :
    (ns.foldl (popEntry txt) g).revision = g.revision := by
  induction ns generalizing g with
  | nil => rfl
  | cons n ns ih => exact ih (popEntry txt g n)

/-- A loop whose rounds do not lower the revision does not lower it. -/
lemma revision_le_foldl {ι : Type*} (round : AtlasMultiDiGraph → ι → AtlasMultiDiGraph)
    (hround : ∀ g i, g.revision ≤ (round g i).revision) (is : List ι) (g : AtlasMultiDiGraph) :
    g.revision ≤ (is.foldl round g).revision := by
  induction is generalizing g with
  | nil => exact le_refl _
  | cons i is ih => exact le_trans (hround g i) (ih _)

lemma revision_lt_step {c : Call} (h : c.raises = true) : g.revision < (g.step txt c).revision := by
  have htouched : g.revision < g.touched.revision := Nat.lt_succ_self _
  cases c with
  | addNode n attr =>
      show g.revision < (indexNodeEntry txt _ n).revision
      rw [revision_indexNodeEntry]
      exact Nat.lt_succ_self _
  | addNodesFrom nodes attr =>
      show g.revision < (List.foldl (indexNodeEntry txt) _ _).revision
      rw [(foldl_indexNodeEntry txt _ _).2.2]
      exact Nat.lt_succ_self _
  | addEdge u v key attr => exact htouched
  | addEdgesFrom ebunch attr =>
      exact lt_of_lt_of_le htouched (revision_le_foldl
        (fun g (e : EdgeItem) => g.addEdge e.source e.target e.key (updated attr e.data))
        (fun g _ => Nat.le_succ g.revision) ebunch g.touched)
  | removeEdge u v key => exact htouched
  | removeEdgesFrom ebunch =>
      exact lt_of_lt_of_le htouched (revision_le_foldl
        (fun g (e : String × String × Option EdgeKey) => g.removeEdge e.1 e.2.1 e.2.2)
        (fun g _ => Nat.le_succ g.revision) ebunch g.touched)
  | removeNode n => exact htouched
  | removeNodesFrom nodes =>
      show g.revision < (List.foldl (popEntry txt) g.touched nodes.items).revision
      rw [revision_popEntries]
      exact htouched
  | clear => exact Nat.lt_succ_self _
  | clearEdges => exact absurd h (by simp [Call.raises])
  | bumpRevision => exact Nat.lt_succ_self _
  | numberOfEdges => exact absurd h (by simp [Call.raises])
  | writeEdge r name value => exact absurd h (by simp [Call.raises])

/-- What the other calls do: they keep the revision, and the graph but for its edges. -/
lemma step_of_not_raises {c : Call} (h : c.raises = false) :
    (g.step txt c).revision = g.revision ∧ (g.step txt c).nodes = g.nodes ∧
      (c.isWrite = false →
        (g.step txt c).edges = g.edges ∨ (g.step txt c).edges = ∅) := by
  cases c with
  | clearEdges => exact ⟨rfl, rfl, fun _ => Or.inr rfl⟩
  | numberOfEdges =>
      simp only [step, numberOfEdges]
      split
      · exact ⟨rfl, rfl, fun _ => Or.inl rfl⟩
      · exact ⟨rfl, rfl, fun _ => Or.inl rfl⟩
  | writeEdge r name value =>
      simp only [step, writeEdge]
      split
      · exact ⟨rfl, rfl, fun hwrite => absurd hwrite (by simp [Call.isWrite])⟩
      · exact ⟨rfl, rfl, fun _ => Or.inl rfl⟩
  | _ => exact absurd h (by simp [Call.raises])

lemma revision_le_step (c : Call) : g.revision ≤ (g.step txt c).revision := by
  cases h : c.raises with
  | true => exact le_of_lt (revision_lt_step h)
  | false => exact le_of_eq (step_of_not_raises h).1.symm

lemma revision_le_run (calls : List Call) : g.revision ≤ (g.run txt calls).revision :=
  revision_le_foldl (step txt) (fun _ c => revision_le_step c) calls g

lemma revision_lt_run {calls : List Call} (h : ∃ c ∈ calls, c.raises = true) :
    g.revision < (g.run txt calls).revision := by
  obtain ⟨c, hc, hraises⟩ := h
  obtain ⟨before, after, rfl⟩ := List.append_of_mem hc
  rw [run, List.foldl_append, List.foldl_cons]
  exact lt_of_le_of_lt (revision_le_run before)
    (lt_of_lt_of_le (revision_lt_step hraises) (revision_le_run after))

/-! ## The count after a call -/

/-- The count is dropped by the methods that change edges. -/
lemma Counted.of_raises {g' : AtlasMultiDiGraph} (hrevision : g.revision < g'.revision)
    (hcached : ∀ count, g'.cachedEdgeCount = some count → count = g'.edges.size) : Counted g' where
  cached := hcached
  untouched hzero := by omega

lemma Counted.step (h : Counted g) (c : Call) : Counted (g.step txt c) := by
  have huncounted : ∀ {g' : AtlasMultiDiGraph}, g'.cachedEdgeCount = none →
      ∀ count, g'.cachedEdgeCount = some count → count = g'.edges.size := by
    intro g' hnone count hcount
    rw [hnone] at hcount
    exact absurd hcount (by simp)
  cases c with
  | addNode n attr =>
      refine Counted.of_raises (revision_lt_step rfl) fun count hcount => ?_
      have hkept := (cachedEdgeCount_indexNodeEntry txt _ n).symm.trans hcount
      have hedges := congrArg MultiDiGraph.edges (nodes_indexNodeEntry txt
        { g.bumpRevision with toMultiDiGraph := g.toMultiDiGraph.addNode n attr } n)
      exact (h.cached count hkept).trans (congrArg PyDict.size hedges.symm)
  | addNodesFrom nodes attr =>
      refine Counted.of_raises (revision_lt_step rfl) fun count hcount => ?_
      obtain ⟨hgraph, hkept, -⟩ := foldl_indexNodeEntry txt
        { g.bumpRevision with toMultiDiGraph := g.toMultiDiGraph.addNodesFrom nodes.items attr }
        (nodes.again.map Prod.fst)
      have hedges := (congrArg MultiDiGraph.edges hgraph).trans
        (edges_addNodesFrom g.toMultiDiGraph nodes.items attr)
      exact (h.cached count (hkept.symm.trans hcount)).trans (congrArg PyDict.size hedges.symm)
  | addEdge u v key attr => exact Counted.of_raises (revision_lt_step rfl) (huncounted rfl)
  | addEdgesFrom ebunch attr =>
      exact Counted.of_raises (revision_lt_step rfl)
        (huncounted (extends_addEdgesFrom g ebunch attr).uncounted)
  | removeEdge u v key => exact Counted.of_raises (revision_lt_step rfl) (huncounted rfl)
  | removeEdgesFrom ebunch =>
      exact Counted.of_raises (revision_lt_step rfl)
        (huncounted (extends_removeEdgesFrom g ebunch).uncounted)
  | removeNode n => exact Counted.of_raises (revision_lt_step rfl) (huncounted rfl)
  | removeNodesFrom nodes =>
      exact Counted.of_raises (revision_lt_step rfl)
        (huncounted (popEntries g.touched nodes.items).2.1)
  | clear => exact Counted.of_raises (revision_lt_step rfl) fun _ hcount =>
      (Option.some.inj hcount).symm
  | clearEdges => exact ⟨fun _ hcount => (Option.some.inj hcount).symm, fun _ => rfl⟩
  | bumpRevision => exact Counted.of_raises (revision_lt_step rfl) h.cached
  | numberOfEdges =>
      simp only [AtlasMultiDiGraph.step, numberOfEdges]
      split
      · exact h
      · exact ⟨fun _ hcount => (Option.some.inj hcount).symm, h.untouched⟩
  | writeEdge r name value =>
      simp only [AtlasMultiDiGraph.step, writeEdge]
      split
      next attrs hattrs =>
        have hsize : (g.edges.set r (attrs.set name value)).size = g.edges.size :=
          size_set_of_mem (PyDict.mem_keys_of_get? hattrs)
        exact ⟨fun count hcount => (h.cached count hcount).trans hsize.symm,
          fun hzero => hsize.trans (h.untouched hzero)⟩
      next => exact h

lemma Counted.run (h : Counted g) (calls : List Call) : Counted (g.run txt calls) := by
  induction calls generalizing g with
  | nil => exact h
  | cons c calls ih => exact ih (h.step c)

/-! ## One graph for a revision and a count -/

lemma eq_empty_of_size {κ ν : Type*} {d : PyDict κ ν} (h : d.size = 0) : d = ∅ :=
  PyDict.ext (List.length_eq_zero_iff.mp h)

/-- Without a raise there are no edges where there were none. -/
lemma edges_run_of_empty {calls : List Call} (hsize : g.edges = ∅)
    (hrevision : (g.run txt calls).revision = g.revision) : (g.run txt calls).edges = ∅ := by
  induction calls generalizing g with
  | nil => exact hsize
  | cons c calls ih =>
      have hle : (g.step txt c).revision ≤ ((g.step txt c).run txt calls).revision :=
        revision_le_run calls
      have hkeeps : c.raises = false := by
        by_contra hraises
        have hlt : g.revision < (g.step txt c).revision :=
          revision_lt_step (by simpa using hraises)
        have hsame : ((g.step txt c).run txt calls).revision = g.revision := hrevision
        omega
      have hstep : (g.step txt c).edges = ∅ := by
        cases hwrite : c.isWrite with
        | false =>
            rcases (step_of_not_raises hkeeps).2.2 hwrite with hedges | hedges
            · rw [hedges, hsize]
            · exact hedges
        | true =>
            cases c with
            | writeEdge r name value => simp [AtlasMultiDiGraph.step, writeEdge, hsize]
            | _ => exact absurd hwrite (by simp [Call.isWrite])
      exact ih hstep (hrevision.trans (step_of_not_raises hkeeps).1.symm)

/-- A settled run to the same revision and the same number of edges leads to the same graph. -/
theorem graph_run_of_same {calls : List Call} (hsettled : Settled calls)
    (hrevision : (g.run txt calls).revision = g.revision)
    (hsize : (g.run txt calls).edges.size = g.edges.size) :
    (g.run txt calls).toMultiDiGraph = g.toMultiDiGraph := by
  induction calls generalizing g with
  | nil => rfl
  | cons c calls ih =>
      obtain ⟨hwritten, hrest⟩ := hsettled
      have hsame : ((g.step txt c).run txt calls).revision = g.revision := hrevision
      have hstep : g.revision ≤ (g.step txt c).revision := revision_le_step c
      have hkeeps : c.raises = false := by
        by_contra hraises
        have hlt : g.revision < (g.step txt c).revision :=
          revision_lt_step (by simpa using hraises)
        have hle : (g.step txt c).revision ≤ ((g.step txt c).run txt calls).revision :=
          revision_le_run calls
        omega
      have hwrite : c.isWrite = false := by
        by_contra hwrite
        have hlt : (g.step txt c).revision < ((g.step txt c).run txt calls).revision :=
          revision_lt_run (hwritten (by simpa using hwrite))
        omega
      obtain ⟨hrevisionStep, hnodes, hedges⟩ := @step_of_not_raises txt g c hkeeps
      have hgraph : (g.step txt c).toMultiDiGraph = g.toMultiDiGraph := by
        refine MultiDiGraph.ext hnodes ?_
        rcases hedges hwrite with hedges | hedges
        · exact hedges
        -- the edges are cleared and do not come back, so that there were none
        · have hlast : ((g.step txt c).run txt calls).edges = ∅ :=
            edges_run_of_empty hedges (hsame.trans hrevisionStep.symm)
          have hnone : g.edges.size = 0 := by
            rw [← hsize]
            show ((g.step txt c).run txt calls).edges.size = 0
            rw [hlast]
            rfl
          rw [hedges, eq_empty_of_size hnone]
      rw [← hgraph]
      refine ih hrest (hsame.trans hrevisionStep.symm) ?_
      rw [hgraph]
      exact hsize

end AtlasMultiDiGraph

end AtlasMemory
