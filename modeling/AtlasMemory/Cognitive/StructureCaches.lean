import AtlasMemory.Cognitive.GraphStructures
import AtlasMemory.Cognitive.Lexicon
import Mathlib.Data.Finset.Sort

/-!
# The caches of the retrieval are coherent

In a run in which every attribute that is written in place is followed by a call that raises the
revision, before the structures are used again, the structures that are used are those that would be
built from the graph.  An earlier graph with the same signature is the same graph, so that the rule
of `SignedCache` applies to both caches.
-/

namespace AtlasMemory

namespace AtlasMultiDiGraph

lemma settled_append {calls later : List Call} (h : Settled calls) (hlater : Settled later) :
    Settled (calls ++ later) := by
  induction calls with
  | nil => exact hlater
  | cons c calls ih =>
      refine ⟨fun hwrite => ?_, ih h.2⟩
      obtain ⟨c', hc', hraises⟩ := h.1 hwrite
      exact ⟨c', List.mem_append_left _ hc', hraises⟩

/-- A graph of the run from which a settled run leads to the present one. -/
def Earlier (txt : NodeText) (g h : AtlasMultiDiGraph) : Prop :=
  Counted h ∧ ∃ calls, Settled calls ∧ h.run txt calls = g

variable {txt : NodeText} {g h : AtlasMultiDiGraph}

lemma earlier_refl (hg : Counted g) : Earlier txt g g := ⟨hg, [], trivial, rfl⟩

lemma Earlier.run (hearlier : Earlier txt g h) {calls : List Call} (hcalls : Settled calls) :
    Earlier txt (g.run txt calls) h := by
  obtain ⟨hh, before, hbefore, rfl⟩ := hearlier
  exact ⟨hh, before ++ calls, settled_append hbefore hcalls, List.foldl_append ..⟩

lemma settled_numberOfEdges : Settled [.numberOfEdges] :=
  ⟨fun hwrite => absurd hwrite (by simp [Call.isWrite]), trivial⟩

lemma counted_numberOfEdges (txt : NodeText) (hg : Counted g) : Counted g.numberOfEdges.2 :=
  @Counted.step txt g hg .numberOfEdges

lemma Earlier.numberOfEdges (hearlier : Earlier txt g h) : Earlier txt g.numberOfEdges.2 h :=
  hearlier.run settled_numberOfEdges

/-- An earlier graph with the same revision and the same count of edges is the same. -/
lemma Earlier.graph_eq (hearlier : Earlier txt g h) (hg : Counted g)
    (hrevision : h.revision = g.revision) (hcount : h.numberOfEdges.1 = g.numberOfEdges.1) :
    h.toMultiDiGraph = g.toMultiDiGraph := by
  obtain ⟨hh, calls, hsettled, rfl⟩ := hearlier
  rw [hh.numberOfEdges_fst, hg.numberOfEdges_fst] at hcount
  exact (graph_run_of_same hsettled hrevision.symm hcount.symm).symm

end AtlasMultiDiGraph

open AtlasMultiDiGraph

namespace RetrievalEnv

variable {env : RetrievalEnv} {ppr : HippoRAG2PPR} {txt : NodeText}

lemma structureSig_revision {g : AtlasMultiDiGraph} (hg : Counted g) :
    (env.structureSig ppr g).revision = g.revision := by
  have hnone : ¬ (g.revision = 0 ∧ 0 < g.numberOfEdges.1) := by
    rintro ⟨hzero, hpos⟩
    rw [hg.numberOfEdges_fst, hg.untouched hzero] at hpos
    omega
  exact if_neg hnone

lemma structures_separated {g h : AtlasMultiDiGraph} (hg : Counted g) (hearlier : Earlier txt g h)
    (hsig : env.structureSig ppr h = env.structureSig ppr g) :
    env.buildGraphStructures ppr h.toMultiDiGraph =
      env.buildGraphStructures ppr g.toMultiDiGraph := by
  have hrevision : h.revision = g.revision := by
    rw [← @structureSig_revision env ppr h hearlier.1, hsig, structureSig_revision hg]
  rw [hearlier.graph_eq hg hrevision (congrArg StructureSig.edges hsig)]

lemma triples_separated {g h : AtlasMultiDiGraph} (hg : Counted g) (hearlier : Earlier txt g h)
    (hsig : tripleSig h = tripleSig g) :
    env.buildTripleIndex h.toMultiDiGraph = env.buildTripleIndex g.toMultiDiGraph := by
  rw [hearlier.graph_eq hg (congrArg TripleSig.revision hsig) (congrArg TripleSig.edges hsig)]

/-! ## Copies -/

lemma counted_snapshot {g : AtlasMultiDiGraph} (hg : Counted g) : Counted (snapshot g) where
  cached count hcount := absurd hcount (by simp [snapshot])
  untouched := hg.untouched

lemma earlier_snapshot {g : AtlasMultiDiGraph} (hg : Counted g) :
    Earlier txt g.numberOfEdges.2 (snapshot g) := by
  refine ⟨counted_snapshot hg, [.numberOfEdges], settled_numberOfEdges, ?_⟩
  show (snapshot g).numberOfEdges.2 = g.numberOfEdges.2
  cases hcached : g.cachedEdgeCount with
  | none => simp [numberOfEdges, snapshot, hcached]
  | some count =>
      have hcount := hg.cached count hcached
      subst hcount
      simp only [numberOfEdges, snapshot, hcached]
      rw [← hcached]

lemma structureSig_snapshot {g : AtlasMultiDiGraph} (hg : Counted g) :
    env.structureSig ppr (snapshot g) = env.structureSig ppr g := by
  have hcount : (snapshot g).numberOfEdges.1 = g.numberOfEdges.1 :=
    (counted_snapshot hg).numberOfEdges_fst.trans hg.numberOfEdges_fst.symm
  simp only [structureSig, hcount]
  rfl

lemma tripleSig_snapshot {g : AtlasMultiDiGraph} (hg : Counted g) :
    tripleSig (snapshot g) = tripleSig g := by
  have hcount : (snapshot g).numberOfEdges.1 = g.numberOfEdges.1 :=
    (counted_snapshot hg).numberOfEdges_fst.trans hg.numberOfEdges_fst.symm
  simp only [tripleSig, hcount]
  rfl

/-! ## The invariant of the caches -/

variable (env ppr txt) in
/-- What is kept was built from earlier graphs. -/
structure CacheInvariant (s : RetrievalState) : Prop where
  counted : Counted s.graph
  structures : SignedCache.BuiltFrom (env.structureSig ppr)
    (fun g : AtlasMultiDiGraph => env.buildGraphStructures ppr g.toMultiDiGraph)
    (Earlier txt s.graph) s.structures
  tripleIndex : SignedCache.BuiltFrom tripleSig
    (fun g : AtlasMultiDiGraph => env.buildTripleIndex g.toMultiDiGraph)
    (Earlier txt s.graph) s.tripleIndex

lemma cacheInvariant_start :
    CacheInvariant env ppr txt ⟨AtlasMultiDiGraph.empty, none, none⟩ where
  counted := counted_empty
  structures := SignedCache.builtFrom_none _ _ _
  tripleIndex := SignedCache.builtFrom_none _ _ _

lemma CacheInvariant.afterCalls {s : RetrievalState} (h : CacheInvariant env ppr txt s)
    {calls : List Call} (hcalls : Settled calls) :
    CacheInvariant env ppr txt (afterCalls txt s calls) where
  counted := h.counted.run calls
  structures := h.structures.mono fun _ hearlier => hearlier.run hcalls
  tripleIndex := h.tripleIndex.mono fun _ hearlier => hearlier.run hcalls

/-! ### Lookups

On the graph itself or on a copy of it: `g` is either. -/

section Lookups

variable {s : RetrievalState} {g : AtlasMultiDiGraph}

variable (txt) in
/-- The graph of the state or a copy. -/
structure ReadFrom (s : RetrievalState) (g : AtlasMultiDiGraph) : Prop where
  same : g.toMultiDiGraph = s.graph.toMultiDiGraph
  structureSig : ∀ (env : RetrievalEnv) (ppr : HippoRAG2PPR),
    env.structureSig ppr g = env.structureSig ppr s.graph
  tripleSig : tripleSig g = RetrievalEnv.tripleSig s.graph
  earlier : Earlier txt s.graph.numberOfEdges.2 g

lemma readFrom_self (h : Counted s.graph) : ReadFrom txt s s.graph :=
  ⟨rfl, fun _ _ => rfl, rfl, (earlier_refl h).numberOfEdges⟩

lemma readFrom_snapshot (h : Counted s.graph) : ReadFrom txt s (snapshot s.graph) :=
  ⟨rfl, fun _ _ => structureSig_snapshot h, tripleSig_snapshot h, earlier_snapshot h⟩

lemma CacheInvariant.lookupStructures_fst (h : CacheInvariant env ppr txt s)
    (hg : ReadFrom txt s g) : (env.lookupStructures ppr g s.structures).1 =
      env.buildGraphStructures ppr s.graph.toMultiDiGraph := by
  refine (SignedCache.lookup_fst h.structures fun g' hearlier hsig => ?_).trans ?_
  · rw [hg.structureSig] at hsig
    rw [hg.same]
    exact structures_separated h.counted hearlier hsig
  · rw [hg.same]

lemma CacheInvariant.lookupTriples_fst (h : CacheInvariant env ppr txt s)
    (hg : ReadFrom txt s g) : (env.lookupTriples g s.tripleIndex).1 =
      env.buildTripleIndex s.graph.toMultiDiGraph := by
  refine (SignedCache.lookup_fst h.tripleIndex fun g' hearlier hsig => ?_).trans ?_
  · rw [hg.tripleSig] at hsig
    rw [hg.same]
    exact triples_separated h.counted hearlier hsig
  · rw [hg.same]

lemma CacheInvariant.builtFrom_structures (h : CacheInvariant env ppr txt s)
    (hg : ReadFrom txt s g) : SignedCache.BuiltFrom (env.structureSig ppr)
      (fun g : AtlasMultiDiGraph => env.buildGraphStructures ppr g.toMultiDiGraph)
      (Earlier txt s.graph.numberOfEdges.2) (env.lookupStructures ppr g s.structures).2 :=
  SignedCache.builtFrom_lookup (h.structures.mono fun _ hearlier => hearlier.numberOfEdges)
    hg.earlier

lemma CacheInvariant.builtFrom_tripleIndex (h : CacheInvariant env ppr txt s)
    (hg : ReadFrom txt s g) : SignedCache.BuiltFrom tripleSig
      (fun g : AtlasMultiDiGraph => env.buildTripleIndex g.toMultiDiGraph)
      (Earlier txt s.graph.numberOfEdges.2) (env.lookupTriples g s.tripleIndex).2 :=
  SignedCache.builtFrom_lookup (h.tripleIndex.mono fun _ hearlier => hearlier.numberOfEdges)
    hg.earlier

end Lookups

/-! ### Uses and rounds -/

section Uses

variable {s : RetrievalState} {g : AtlasMultiDiGraph}

lemma CacheInvariant.runOn_fst (h : CacheInvariant env ppr txt s) (hg : ReadFrom txt s g) :
    (env.runOn ppr g s).1 = env.freshlyBuilt ppr s.graph.toMultiDiGraph .pprRun := by
  have hstructures := h.lookupStructures_fst hg
  have htriples := h.lookupTriples_fst hg
  have hsize : g.nodes.size = s.graph.nodes.size := congrArg (fun g => g.nodes.size) hg.same
  unfold runOn freshlyBuilt
  rw [hsize]
  split_ifs with hempty
  · rfl
  · rw [← hstructures]
    split
    next kept hlookup => rw [hlookup]
    next b kept hlookup =>
      rw [hlookup]
      dsimp only
      rw [htriples]

/-- What is kept after a run of the engine was built from earlier graphs. -/
lemma CacheInvariant.runOn_kept (h : CacheInvariant env ppr txt s) (hg : ReadFrom txt s g)
    (hempty : s.graph.nodes.size ≠ 0) :
    SignedCache.BuiltFrom (env.structureSig ppr)
        (fun g : AtlasMultiDiGraph => env.buildGraphStructures ppr g.toMultiDiGraph)
        (Earlier txt s.graph.numberOfEdges.2) (env.runOn ppr g s).2.1 ∧
      SignedCache.BuiltFrom tripleSig
        (fun g : AtlasMultiDiGraph => env.buildTripleIndex g.toMultiDiGraph)
        (Earlier txt s.graph.numberOfEdges.2) (env.runOn ppr g s).2.2 := by
  have hstructures := h.builtFrom_structures hg
  have htriples := h.builtFrom_tripleIndex hg
  have hbefore : SignedCache.BuiltFrom tripleSig
      (fun g : AtlasMultiDiGraph => env.buildTripleIndex g.toMultiDiGraph)
      (Earlier txt s.graph.numberOfEdges.2) s.tripleIndex :=
    h.tripleIndex.mono fun _ hearlier => hearlier.numberOfEdges
  have hsize : g.nodes.size = s.graph.nodes.size := congrArg (fun g => g.nodes.size) hg.same
  unfold runOn
  rw [if_neg (hsize ▸ hempty)]
  split
  next kept hlookup =>
    rw [hlookup] at hstructures
    exact ⟨hstructures, hbefore⟩
  next b kept hlookup =>
    rw [hlookup] at hstructures
    exact ⟨hstructures, htriples⟩

/-- A use of the structures uses what would be built, and keeps the invariant. -/
lemma CacheInvariant.use (h : CacheInvariant env ppr txt s) (u : GraphUse) :
    (env.use ppr s u).1 = env.freshlyBuilt ppr s.graph.toMultiDiGraph u ∧
      CacheInvariant env ppr txt (env.use ppr s u).2 := by
  have hcounted := counted_numberOfEdges txt h.counted
  have hkeptTriples : SignedCache.BuiltFrom tripleSig
      (fun g : AtlasMultiDiGraph => env.buildTripleIndex g.toMultiDiGraph)
      (Earlier txt s.graph.numberOfEdges.2) s.tripleIndex :=
    h.tripleIndex.mono fun _ hearlier => hearlier.numberOfEdges
  have hkeptStructures : SignedCache.BuiltFrom (env.structureSig ppr)
      (fun g : AtlasMultiDiGraph => env.buildGraphStructures ppr g.toMultiDiGraph)
      (Earlier txt s.graph.numberOfEdges.2) s.structures :=
    h.structures.mono fun _ hearlier => hearlier.numberOfEdges
  cases u with
  | pprRun =>
      have hself : ReadFrom txt s s.graph := readFrom_self h.counted
      refine ⟨h.runOn_fst hself, ?_⟩
      by_cases hempty : s.graph.nodes.size = 0
      · have hstate : (env.use ppr s .pprRun).2 = s := by
          simp only [RetrievalEnv.use, runOn, if_pos hempty]
        rw [hstate]
        exact h
      · obtain ⟨hstructures, htriples⟩ := h.runOn_kept hself hempty
        simp only [RetrievalEnv.use, if_neg hempty]
        exact ⟨hcounted, hstructures, htriples⟩
  | fetch =>
      have hcopy : ReadFrom txt s (snapshot s.graph) := readFrom_snapshot h.counted
      refine ⟨h.runOn_fst hcopy, ?_⟩
      by_cases hempty : s.graph.nodes.size = 0
      · have hkept : (env.runOn ppr (snapshot s.graph) s).2.1 = s.structures := by
          have hcopied : (snapshot s.graph).nodes.size = 0 := hempty
          simp only [runOn, if_pos hcopied]
        simp only [RetrievalEnv.use, hkept]
        exact ⟨hcounted, hkeptStructures, hkeptTriples⟩
      · exact ⟨hcounted, (h.runOn_kept hcopy hempty).1, hkeptTriples⟩
  | scoreTriples =>
      have hself : ReadFrom txt s s.graph := readFrom_self h.counted
      refine ⟨?_, ⟨hcounted, hkeptStructures, h.builtFrom_tripleIndex hself⟩⟩
      show (⟨none, (env.lookupTriples s.graph s.tripleIndex).1⟩ : UsedStructures) = _
      rw [h.lookupTriples_fst hself]
      rfl

end Uses

lemma CacheInvariant.afterRounds {s : RetrievalState} (h : CacheInvariant env ppr txt s)
    {rounds : List GraphRound} (hrounds : ∀ r ∈ rounds, Settled r.calls) :
    CacheInvariant env ppr txt (rounds.foldl (env.round ppr txt) s) := by
  induction rounds generalizing s with
  | nil => exact h
  | cons r rounds ih =>
      have hfirst := (h.afterCalls (hrounds r List.mem_cons_self)).use r.use
      exact ih hfirst.2 fun r' hr' => hrounds r' (List.mem_cons_of_mem _ hr')

/-- In every run in which writes in place are followed by a call that raises the revision, the
structures that are used in a round are those that would be built from the graph. -/
theorem use_eq_freshlyBuilt (env : RetrievalEnv) (ppr : HippoRAG2PPR) (txt : NodeText)
    (rounds : List GraphRound) (r : GraphRound)
    (hrounds : ∀ r' ∈ rounds ++ [r], Settled r'.calls) :
    let s := afterCalls txt (env.afterRounds ppr txt rounds) r.calls
    (env.use ppr s r.use).1 = env.freshlyBuilt ppr s.graph.toMultiDiGraph r.use := by
  have hbefore : CacheInvariant env ppr txt (env.afterRounds ppr txt rounds) :=
    cacheInvariant_start.afterRounds fun r' hr' => hrounds r' (List.mem_append_left _ hr')
  have hlast : Settled r.calls := hrounds r (by simp)
  exact ((hbefore.afterCalls hlast).use r.use).1

end RetrievalEnv

/-! ## A confidence that changes -/

namespace RetrievalEnv

/-- An environment for evaluating the model: a text is one token. -/
def plainRetrieval : RetrievalEnv where
  num := HippoRAG2PPR.plainNumbers
  lower s := s
  tokenizeAndStem s := ({s}, {s})
  iterate := sampleLexicon.listOf
  detectCpof _ _ := false
  sampleDigest _ := 0
  hasIgraph := true

/-- A scoring of the triples after an edge is added with confidence `1`. -/
def firstScoring : GraphRound where
  calls := [.addEdge "db" "host" (some (.name "RUNS_ON")) (PyDict.ofEntries
    [("predicate", .text "RUNS_ON"), ("confidence", .number 1)])]
  use := .scoreTriples

/-- The confidence of the edge is written in place. -/
def halveConfidence : Call :=
  .writeEdge ⟨"db", "host", .name "RUNS_ON"⟩ "confidence" (.number (1 / 2))

/-- The confidences in the index that is used. -/
def usedConfidences (used : UsedStructures) : Option (List ℚ) :=
  used.tripleIndex.map fun index => index.edgeEntries.map TripleEntry.confidence

def plainEngine : HippoRAG2PPR := ⟨17 / 20, 100, 1 / 10 ^ 6, 1, 1⟩

/-- With `bump_revision` after the write the new confidence is used. -/
theorem use_eq_freshlyBuilt_bumped :
    usedConfidences (plainRetrieval.use plainEngine
      (afterCalls basicText (plainRetrieval.afterRounds plainEngine basicText [firstScoring])
        [halveConfidence, .bumpRevision]) .scoreTriples).1 = some [1 / 2] := by
  have hfresh := use_eq_freshlyBuilt plainRetrieval plainEngine basicText [firstScoring]
    ⟨[halveConfidence, .bumpRevision], .scoreTriples⟩ (by
      simp [firstScoring, halveConfidence, Settled, Call.isWrite, Call.raises])
  dsimp only at hfresh
  rw [hfresh]
  decide +kernel

/-- Without it the index has the old confidence. -/
theorem written_confidence_not_used :
    usedConfidences (plainRetrieval.use plainEngine
      (afterCalls basicText (plainRetrieval.afterRounds plainEngine basicText [firstScoring])
        [halveConfidence]) .scoreTriples).1 = some [1] ∧
    usedConfidences (plainRetrieval.freshlyBuilt plainEngine
      (afterCalls basicText (plainRetrieval.afterRounds plainEngine basicText [firstScoring])
        [halveConfidence]).graph.toMultiDiGraph .scoreTriples) = some [1 / 2] := by
  decide +kernel

end RetrievalEnv

end AtlasMemory
