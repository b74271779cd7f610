import AtlasMemory.Cognitive.PersonalizedPageRank
import AtlasMemory.Foundations.PyDict
import AtlasMemory.Foundations.SignedCache
import AtlasMemory.L2Semantic.GraphRevision
import Mathlib.Data.Finset.Basic

/-!
# The structures of the retrieval and their caches

What `_build_graph_structures` and `_get_or_build_triple_index` build from the graph, and the two
caches: the structures are kept in the engine, the index at the graph, each with the numbers of nodes
and edges and the revision of the graph.  A run of `fetch_graph_ppr_candidates` works on a copy of
the graph, to which the index of the graph is given along; an index that is built for the copy is
lost.

The tokens of a text, the iteration of a set, the digest of a sample of the edges and the detection
of hubs come from a `RetrievalEnv`.  The graph of the back end is a function of the nodes and of the
edge map, and is left out; without the back end nothing is kept.
-/

namespace AtlasMemory

/-- What building takes from its environment. -/
structure RetrievalEnv where
  num : NumberText
  /-- `text.lower()`. -/
  lower : String → String
  /-- `_tokenize_and_stem`. -/
  tokenizeAndStem : String → Finset String × Finset String
  /-- The order in which a set is iterated. -/
  iterate : Finset String → List String
  /-- `detect_cpof` of the graph store. -/
  detectCpof : MultiDiGraph → String → Bool
  /-- The digest of a sample of the edges. -/
  sampleDigest : MultiDiGraph → ℕ
  /-- The back end is installed. -/
  hasIgraph : Bool

/-! ## The graph structures -/

/-- A relation of an entity: its place, its name, the predicate, the other end and the weight. -/
structure EntityRelEdge where
  place : ℕ
  name : String
  predicate : String
  target : String
  weight : ℚ
  deriving DecidableEq

/-- A passage: its place, its source key, its text and its name. -/
structure PassageIndex where
  place : ℕ
  sourceKey : String
  text : String
  name : String
  deriving DecidableEq

/-- What is kept of `_build_graph_structures`. -/
structure GraphStructures where
  nodes : List String
  edgeWeights : PyDict (Fin nodes.length × Fin nodes.length) ℚ
  passageIndices : List PassageIndex
  entityMask : List Bool
  entityRelEdges : List EntityRelEdge

namespace RetrievalEnv

variable (env : RetrievalEnv)

/-- `nx_graph.nodes[n]`. -/
def attrsOf (g : MultiDiGraph) (n : String) : Attributes := (g.nodes.get? n).getD ∅

/-- `data.get("type") == "passage"`. -/
def isPassage (attrs : Attributes) : Bool := decide (attrs.get? "type" = some (.text "passage"))

/-- `name.removeprefix("passage:")`. -/
def removePassagePrefix (name : String) : String :=
  if PyString.startsWith name "passage:" then String.ofList (name.toList.drop 8) else name

def passageIndex (g : MultiDiGraph) (n : String) (i : ℕ) : Option PassageIndex :=
  let data := attrsOf g n
  if isPassage data then
    let skey := ((data.getD "source_key" .null).orElse (.text (removePassagePrefix n))).str env.num
    let txt := ((data.getD "text" .null).orElse (.text "")).str env.num
    if skey ≠ "" ∧ txt ≠ "" then some ⟨i, skey, txt, n⟩ else none
  else none

/-- The relation of an edge of an entity; `none` if its confidence is no number, and `some none` if
the edge is no relation. -/
def entityRelEdge (g : MultiDiGraph) (n : String) (i : ℕ) (e : EdgeRef × Attributes) :
    Option (Option EntityRelEdge) :=
  let pred := ((e.2.getD "predicate" .null).orElse (e.2.getD "relation" .null)).orElse
    (e.2.getD "type" .null)
  if pred ∈ [.text "CONTAINS", .text "SYNONYM", .text "SUPERSEDED_BY"] then some none
  else
    (((e.2.getD "confidence" (.number (85 / 100))).orElse (.number (85 / 100))).toFloat
      env.num).map fun conf =>
        some ⟨i, n, (pred.orElse (.text "related_to")).str env.num, e.1.target,
          conf / env.num.root (max 1 (g.degree n) * max 1 (g.degree e.1.target))⟩

/-- The relations of an entity, the heaviest first. -/
def nodeEdges (g : MultiDiGraph) (n : String) (i : ℕ) : Option (List EntityRelEdge) :=
  if isPassage (attrsOf g n) then some []
  else
    ((g.edges.entries.filter fun e => decide (e.1.source = n)).mapM
      (env.entityRelEdge g n i)).map fun edges =>
        edges.reduceOption.insertionSort fun a b => b.weight ≤ a.weight

/-- `_build_graph_structures` without its cache; `none` if it raises. -/
def buildGraphStructures (ppr : HippoRAG2PPR) (g : MultiDiGraph) : Option GraphStructures :=
  if g.nodes.size = 0 then some ⟨[], ∅, [], [], []⟩
  else
    (ppr.buildEdgeMap env.num g (env.detectCpof g)).bind fun edgeMap =>
      ((sortedNodes g).zipIdx.mapM fun e => env.nodeEdges g e.1 e.2).map fun relEdges =>
        { nodes := sortedNodes g
          edgeWeights := edgeMap
          passageIndices := (sortedNodes g).zipIdx.filterMap fun e => env.passageIndex g e.1 e.2
          entityMask := (sortedNodes g).map fun n => !isPassage (attrsOf g n)
          entityRelEdges := relEdges.flatten }

end RetrievalEnv

/-! ## The index of the triples -/

/-- A passage in the index. -/
structure PassageEntry where
  node : String
  sourceKey : String
  lowerKey : String
  tokens : Finset String
  deriving DecidableEq

/-- An edge in the index. -/
structure TripleEntry where
  source : String
  predicate : String
  target : String
  confidence : ℚ
  lowText : String
  squeezed : String
  sourceTokens : Finset String
  targetTokens : Finset String
  words : Finset String
  stems : Finset String
  deriving DecidableEq

/-- `_GraphTripleIndex`, without its signature. -/
structure GraphTripleIndex where
  passageEntries : List PassageEntry
  stemToPassages : PyDict String (List ℕ)
  edgeEntries : List TripleEntry
  stemToEdges : PyDict String (List ℕ)
  deriving DecidableEq

namespace RetrievalEnv

variable (env : RetrievalEnv)

/-- `re.sub(r"[\s_\-:/]+", "", t)`. -/
def squeeze (t : String) : String :=
  String.ofList (t.toList.filter fun c => !(PyText.isPySpace c || c ∈ ['_', '-', ':', '/']))

/-- The postings of the tokens: the places of the items that have them. -/
def postings (tokens : List (Finset String)) : PyDict String (List ℕ) :=
  PyDict.groupBy Prod.fst (fun places (e : String × ℕ) => places.getD [] ++ [e.2])
    (tokens.zipIdx.flatMap fun e => (env.iterate e.1).map fun tok => (tok, e.2))

/-- The entry of a node that is a passage. -/
def passageEntry (e : String × Attributes) : Option PassageEntry :=
  if isPassage e.2 then
    let skey := ((e.2.getD "source_key" .null).orElse (.text "")).str env.num
    let txt := ((e.2.getD "text" .null).orElse (.text "")).str env.num
    let s := env.tokenizeAndStem skey
    let p := env.tokenizeAndStem (String.ofList (txt.toList.take 400))
    some ⟨e.1, skey, env.lower skey, s.1 ∪ s.2 ∪ p.1 ∪ p.2⟩
  else none

/-- The entry of an edge; `none` if its confidence is no number. -/
def tripleEntry (g : MultiDiGraph) (e : EdgeRef × Attributes) : Option TripleEntry :=
  let u := e.1.source
  let v := e.1.target
  let pred := (((e.2.getD "predicate" .null).orElse (e.2.getD "relation" .null)).orElse
    (.text "related_to")).str env.num
  let ofPassage := pred = "CONTAINS" ∧ isPassage (attrsOf g u) = true
  let subject := if ofPassage then
    (((attrsOf g u).getD "source_key" .null).orElse (.text u)).str env.num else u
  let tripleText := if ofPassage then subject ++ " " ++ v else u ++ " " ++ pred ++ " " ++ v
  let us := env.tokenizeAndStem subject
  let vs := env.tokenizeAndStem v
  let ps := env.tokenizeAndStem pred
  let low := env.lower tripleText
  (((e.2.getD "confidence" (e.2.getD "sim" (e.2.getD "weight" (.number 1)))).orElse
    (.number 1)).toFloat env.num).map fun conf =>
      { source := u
        predicate := pred
        target := v
        confidence := conf
        lowText := low
        squeezed := squeeze low
        sourceTokens := us.1 ∪ us.2
        targetTokens := vs.1 ∪ vs.2
        words := us.1 ∪ vs.1 ∪ ps.1
        stems := us.2 ∪ vs.2 ∪ ps.2 }

/-- `_get_or_build_triple_index` without its cache; `none` if it raises. -/
def buildTripleIndex (g : MultiDiGraph) : Option GraphTripleIndex :=
  (g.edges.entries.mapM (env.tripleEntry g)).map fun edges =>
    let passages := g.nodes.entries.filterMap env.passageEntry
    { passageEntries := passages
      stemToPassages := env.postings (passages.map PassageEntry.tokens)
      edgeEntries := edges
      stemToEdges := env.postings (edges.map fun e => e.words ∪ e.stems) }

end RetrievalEnv

/-! ## The signatures and the caches -/

/-- The signature of the structures of an engine. -/
structure StructureSig where
  nodes : ℕ
  edges : ℕ
  revision : ℕ
  synonymWeight : ℚ
  containsWeight : ℚ
  deriving DecidableEq

/-- The signature of the index. -/
structure TripleSig where
  nodes : ℕ
  edges : ℕ
  revision : ℕ
  deriving DecidableEq

/-- A use of the structures: a run of the engine on the graph, a run on a copy of it, or a scoring of
the triples. -/
inductive GraphUse
  | pprRun
  | fetch
  | scoreTriples

/-- Calls of methods of the graph, and a use after them. -/
structure GraphRound where
  calls : List AtlasMultiDiGraph.Call
  use : GraphUse

/-- The structures that are used; `none` where none are used or building them raises. -/
structure UsedStructures where
  structures : Option GraphStructures
  tripleIndex : Option GraphTripleIndex

/-- The graph with what the engine and the graph keep. -/
structure RetrievalState where
  graph : AtlasMultiDiGraph
  structures : Option (StructureSig × GraphStructures)
  tripleIndex : Option (TripleSig × GraphTripleIndex)

namespace RetrievalEnv

variable (env : RetrievalEnv) (ppr : HippoRAG2PPR)

/-- `sig` of `_build_graph_structures`. -/
def structureSig (g : AtlasMultiDiGraph) : StructureSig where
  nodes := g.numberOfNodes
  edges := g.numberOfEdges.1
  revision := if g.revision = 0 ∧ 0 < g.numberOfEdges.1 then env.sampleDigest g.toMultiDiGraph
    else g.revision
  synonymWeight := ppr.synonymWeight
  containsWeight := ppr.containsWeight

/-- `sig` of `_get_or_build_triple_index`. -/
def tripleSig (g : AtlasMultiDiGraph) : TripleSig where
  nodes := g.numberOfNodes
  edges := g.numberOfEdges.1
  revision := g.revision

/-- `_build_graph_structures`. -/
def lookupStructures (g : AtlasMultiDiGraph) (kept : Option (StructureSig × GraphStructures)) :
    Option GraphStructures × Option (StructureSig × GraphStructures) :=
  SignedCache.lookup (env.structureSig ppr)
    (fun g : AtlasMultiDiGraph => env.buildGraphStructures ppr g.toMultiDiGraph)
    (fun b => env.hasIgraph && decide (b.nodes ≠ [])) g kept

/-- `_get_or_build_triple_index`. -/
def lookupTriples (g : AtlasMultiDiGraph) (kept : Option (TripleSig × GraphTripleIndex)) :
    Option GraphTripleIndex × Option (TripleSig × GraphTripleIndex) :=
  SignedCache.lookup tripleSig
    (fun g : AtlasMultiDiGraph => env.buildTripleIndex g.toMultiDiGraph) (fun _ => true) g kept

/-- `raw_nx.copy()` with the revision of the graph; the copy counts its edges again. -/
def snapshot (g : AtlasMultiDiGraph) : AtlasMultiDiGraph := { g with cachedEdgeCount := none }

/-- The part of a run of the engine that builds its structures, on a graph: what is used, and what
the engine and the graph keep. -/
def runOn (g : AtlasMultiDiGraph) (s : RetrievalState) :
    UsedStructures × Option (StructureSig × GraphStructures) ×
      Option (TripleSig × GraphTripleIndex) :=
  if g.nodes.size = 0 then (⟨none, none⟩, s.structures, s.tripleIndex)
  else
    match env.lookupStructures ppr g s.structures with
    | (none, kept) => (⟨none, none⟩, kept, s.tripleIndex)
    | (some b, kept) =>
      let triples := env.lookupTriples g s.tripleIndex
      (⟨some b, triples.1⟩, kept, triples.2)

def use (s : RetrievalState) : GraphUse → UsedStructures × RetrievalState
  | .pprRun =>
    let r := env.runOn ppr s.graph s
    (r.1, ⟨if s.graph.nodes.size = 0 then s.graph else s.graph.numberOfEdges.2, r.2.1, r.2.2⟩)
  | .fetch =>
    let r := env.runOn ppr (snapshot s.graph) s
    (r.1, ⟨s.graph.numberOfEdges.2, r.2.1, s.tripleIndex⟩)
  | .scoreTriples =>
    let triples := env.lookupTriples s.graph s.tripleIndex
    (⟨none, triples.1⟩, ⟨s.graph.numberOfEdges.2, s.structures, triples.2⟩)

variable (txt : NodeText)

def afterCalls (s : RetrievalState) (calls : List AtlasMultiDiGraph.Call) : RetrievalState :=
  { s with graph := s.graph.run txt calls }

def round (s : RetrievalState) (r : GraphRound) : RetrievalState :=
  (env.use ppr (afterCalls txt s r.calls) r.use).2

/-- The state after rounds, from an empty graph and a new engine. -/
def afterRounds (rounds : List GraphRound) : RetrievalState :=
  rounds.foldl (env.round ppr txt) ⟨AtlasMultiDiGraph.empty, none, none⟩

/-- The structures that a use would build from the graph. -/
def freshlyBuilt (g : MultiDiGraph) : GraphUse → UsedStructures
  | .pprRun | .fetch =>
    if g.nodes.size = 0 then ⟨none, none⟩
    else
      match env.buildGraphStructures ppr g with
      | none => ⟨none, none⟩
      | some b => ⟨some b, env.buildTripleIndex g⟩
  | .scoreTriples => ⟨none, env.buildTripleIndex g⟩

end RetrievalEnv

end AtlasMemory
