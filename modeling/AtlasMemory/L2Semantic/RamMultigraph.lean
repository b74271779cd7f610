import AtlasMemory.Foundations.PyDict
import AtlasMemory.Foundations.PyText
import Mathlib.Algebra.Order.Ring.Unbundled.Rat
import Mathlib.Data.Rat.Defs

/-!
# The multigraph in memory

The model of `AtlasMultiDiGraph`: a directed multigraph whose nodes and edges have attributes, with
an index of the names of its nodes in lower case, an index of the words in the names, a count of the
edges that is computed when it is asked for, and a revision that every change raises.

The operations of the graph library are those of its documentation.  A call that raises leaves the
graph as it is at that point, and the model has the graph that is left.  The edges are read in the
order in which they were added; the library reads them by their first node, which nothing depends
on.
-/

namespace AtlasMemory

/-- A value of an attribute. -/
inductive AttrValue
  | null
  | text (s : String)
  | number (q : ℚ)
  deriving DecidableEq

/-- The attributes of a node or of an edge. -/
abbrev Attributes := PyDict String AttrValue

/-- `attrs.update(new)`. -/
def updated (attrs new : Attributes) : Attributes :=
  new.entries.foldl (fun d e => d.set e.1 e.2) attrs

/-- The key of an edge among the edges between its ends: a number where none was given. -/
inductive EdgeKey
  | name (s : String)
  | number (n : ℕ)
  deriving DecidableEq

/-- The ends and the key of an edge. -/
structure EdgeRef where
  source : String
  target : String
  key : EdgeKey
  deriving DecidableEq

/-! ## The graph of the library -/

/-- `nx.MultiDiGraph`. -/
@[ext]
structure MultiDiGraph where
  nodes : PyDict String Attributes := ∅
  edges : PyDict EdgeRef Attributes := ∅

/-- An edge that is given to `add_edges_from`. -/
structure EdgeItem where
  source : String
  target : String
  key : Option EdgeKey := none
  data : Attributes := ∅

namespace MultiDiGraph

/-- `has_node`. -/
def hasNode (g : MultiDiGraph) (n : String) : Bool := g.nodes.contains n

/-- `number_of_nodes`. -/
def numberOfNodes (g : MultiDiGraph) : ℕ := g.nodes.size

/-- `degree`: a loop counts twice. -/
def degree (g : MultiDiGraph) (n : String) : ℕ :=
  g.edges.keys.countP (fun r => decide (r.source = n)) +
    g.edges.keys.countP fun r => decide (r.target = n)

/-- `add_node`. -/
def addNode (g : MultiDiGraph) (n : String) (attr : Attributes) : MultiDiGraph :=
  { g with nodes := g.nodes.set n (updated ((g.nodes.get? n).getD ∅) attr) }

/-- `add_nodes_from`: each node with attributes of its own. -/
def addNodesFrom (g : MultiDiGraph) (items : List (String × Attributes)) (attr : Attributes) :
    MultiDiGraph :=
  items.foldl (fun g x => g.addNode x.1 (updated attr x.2)) g

def edgesBetween (g : MultiDiGraph) (u v : String) : List (EdgeRef × Attributes) :=
  g.edges.entries.filter fun e => decide (e.1.source = u ∧ e.1.target = v)

/-- The first number from `k` on that is no key, among `fuel` of them. -/
def freeKey (keys : List EdgeKey) : ℕ → ℕ → ℕ
  | 0, k => k
  | fuel + 1, k => if EdgeKey.number k ∈ keys then freeKey keys fuel (k + 1) else k

/-- `new_edge_key`. -/
def newEdgeKey (g : MultiDiGraph) (u v : String) : ℕ :=
  let keys := (g.edgesBetween u v).map fun e => e.1.key
  freeKey keys keys.length keys.length

/-- The node is added without attributes if it is not there. -/
def ensureNode (g : MultiDiGraph) (n : String) : MultiDiGraph :=
  if g.hasNode n then g else g.addNode n ∅

/-- `add_edge`: the ends are added with it. -/
def addEdge (g : MultiDiGraph) (u v : String) (key : Option EdgeKey) (attr : Attributes) :
    MultiDiGraph :=
  let r : EdgeRef := ⟨u, v, key.getD (.number (g.newEdgeKey u v))⟩
  let ends := (g.ensureNode u).ensureNode v
  { ends with edges := g.edges.set r (updated ((g.edges.get? r).getD ∅) attr) }

/-- `remove_edge`: the last edge between the ends where no key is given; `none` if it raises. -/
def removeEdge (g : MultiDiGraph) (u v : String) (key : Option EdgeKey) : Option MultiDiGraph :=
  match key with
  | some k =>
    if g.edges.contains ⟨u, v, k⟩ then some { g with edges := g.edges.erase ⟨u, v, k⟩ } else none
  | none => (g.edgesBetween u v).getLast?.map fun e => { g with edges := g.edges.erase e.1 }

/-- `remove_node`, with the edges at the node; `none` if it raises. -/
def removeNode (g : MultiDiGraph) (n : String) : Option MultiDiGraph :=
  if g.hasNode n then
    some
      { nodes := g.nodes.erase n
        edges := g.edges.filter fun r _ => decide (r.source ≠ n ∧ r.target ≠ n) }
  else none

/-- `remove_nodes_from`: nodes that are not there are passed over. -/
def removeNodesFrom (g : MultiDiGraph) (ns : List String) : MultiDiGraph :=
  ns.foldl (fun g n => (g.removeNode n).getD g) g

end MultiDiGraph

/-! ## The indices -/

/-- What the indices take from the character tables and from the dictionaries. -/
structure NodeText where
  /-- `s.lower()`. -/
  lower : String → String
  /-- `any(ch.isdigit() for ch in w)`. -/
  hasDigit : String → Bool
  /-- `_fast_lemma`. -/
  fastLemma : String → String
  /-- White space has no case. -/
  strip_lower : ∀ s, PyString.strip (lower s) = lower (PyString.strip s)

/-- A collection that is passed to a method; an iterator is empty when it is read again. -/
structure Argument (α : Type*) where
  items : List α
  reiterable : Bool := true

/-- What a second reading of the collection gives. -/
def Argument.again {α : Type*} (c : Argument α) : List α := if c.reiterable then c.items else []

/-- `AtlasMultiDiGraph`. -/
structure AtlasMultiDiGraph extends MultiDiGraph where
  canonicalLower : PyDict String String := ∅
  nodeIndexLower : PyDict String String := ∅
  lemmaIndex : PyDict String (List String) := ∅
  cachedEdgeCount : Option ℕ := some 0
  revision : ℕ := 0

namespace AtlasMultiDiGraph

variable (txt : NodeText)

def empty : AtlasMultiDiGraph := {}

/-- The name of a node as the indices have it. -/
def folded (n : String) : String := txt.lower (PyString.strip n)

/-- The words of a name in lower case, of three letters or more and without digits. -/
def nameParts (low : String) : List String :=
  let spaced := low.toList.map fun c => if c = ':' ∨ c = '_' ∨ c = '-' then ' ' else c
  ((spaced.splitOnP PyText.isPySpace).map String.ofList).filter fun w =>
    decide (3 ≤ w.length) && !txt.hasDigit w

/-- `index.setdefault(word, set()).add(s)`. -/
def addLemma (index : PyDict String (List String)) (word s : String) : PyDict String (List String) :=
  let names := index.getD word []
  index.set word (if s ∈ names then names else names ++ [s])

/-- `_index_node_entry`. -/
def indexNodeEntry (g : AtlasMultiDiGraph) (n : String) : AtlasMultiDiGraph :=
  let s := PyString.strip n
  if s = "" then g
  else
    let low := txt.lower s
    { g with
      canonicalLower := g.canonicalLower.set low s
      nodeIndexLower := g.nodeIndexLower.set low s
      lemmaIndex := (nameParts txt low).foldl (fun index part =>
        let lem := txt.fastLemma part
        addLemma (if lem = "" then index else addLemma index lem s) part s) g.lemmaIndex }

/-- The entry of a name is taken out of the index of the names. -/
def popEntry (g : AtlasMultiDiGraph) (n : String) : AtlasMultiDiGraph :=
  { g with
    canonicalLower := g.canonicalLower.erase (folded txt n)
    nodeIndexLower := g.nodeIndexLower.erase (folded txt n) }

/-! ## The methods -/

/-- `bump_revision`. -/
def bumpRevision (g : AtlasMultiDiGraph) : AtlasMultiDiGraph :=
  { g with revision := g.revision + 1 }

/-- What the methods that change edges begin with. -/
def touched (g : AtlasMultiDiGraph) : AtlasMultiDiGraph :=
  { g with revision := g.revision + 1, cachedEdgeCount := none }

/-- `add_node`. -/
def addNode (g : AtlasMultiDiGraph) (n : String) (attr : Attributes) : AtlasMultiDiGraph :=
  indexNodeEntry txt
    { g.bumpRevision with toMultiDiGraph := g.toMultiDiGraph.addNode n attr } n

/-- `add_nodes_from`: the collection is read once by the library and once for the indices. -/
def addNodesFrom (g : AtlasMultiDiGraph) (nodes : Argument (String × Attributes))
    (attr : Attributes) : AtlasMultiDiGraph :=
  (nodes.again.map Prod.fst).foldl (indexNodeEntry txt)
    { g.bumpRevision with toMultiDiGraph := g.toMultiDiGraph.addNodesFrom nodes.items attr }

/-- `add_edge`. -/
def addEdge (g : AtlasMultiDiGraph) (u v : String) (key : Option EdgeKey) (attr : Attributes) :
    AtlasMultiDiGraph :=
  { g.touched with toMultiDiGraph := g.toMultiDiGraph.addEdge u v key attr }

/-- `add_edges_from`: the library calls `add_edge` for each edge. -/
def addEdgesFrom (g : AtlasMultiDiGraph) (ebunch : List EdgeItem) (attr : Attributes) :
    AtlasMultiDiGraph :=
  ebunch.foldl (fun g e => g.addEdge e.source e.target e.key (updated attr e.data)) g.touched

/-- `remove_edge`. -/
def removeEdge (g : AtlasMultiDiGraph) (u v : String) (key : Option EdgeKey) :
    AtlasMultiDiGraph :=
  { g.touched with
    toMultiDiGraph := (g.toMultiDiGraph.removeEdge u v key).getD g.toMultiDiGraph }

/-- `remove_edges_from`: the library calls `remove_edge` for each edge. -/
def removeEdgesFrom (g : AtlasMultiDiGraph) (ebunch : List (String × String × Option EdgeKey)) :
    AtlasMultiDiGraph :=
  ebunch.foldl (fun g e => g.removeEdge e.1 e.2.1 e.2.2) g.touched

/-- `remove_node`: the entry of the name goes before the library looks for the node. -/
def removeNode (g : AtlasMultiDiGraph) (n : String) : AtlasMultiDiGraph :=
  { popEntry txt g.touched n with
    toMultiDiGraph := (g.toMultiDiGraph.removeNode n).getD g.toMultiDiGraph }

/-- `remove_nodes_from`: the collection is read once for the index and once by the library. -/
def removeNodesFrom (g : AtlasMultiDiGraph) (nodes : Argument String) : AtlasMultiDiGraph :=
  { nodes.items.foldl (popEntry txt) g.touched with
    toMultiDiGraph := g.toMultiDiGraph.removeNodesFrom nodes.again }

/-- `clear`. -/
def clear (g : AtlasMultiDiGraph) : AtlasMultiDiGraph := { revision := g.revision + 1 }

/-- `clear_edges`. -/
def clearEdges (g : AtlasMultiDiGraph) : AtlasMultiDiGraph :=
  { g with edges := ∅, cachedEdgeCount := some 0 }

/-- `number_of_edges()`: the count is kept. -/
def numberOfEdges (g : AtlasMultiDiGraph) : ℕ × AtlasMultiDiGraph :=
  match g.cachedEdgeCount with
  | some count => (count, g)
  | none => (g.edges.size, { g with cachedEdgeCount := some g.edges.size })

/-- `resolve_canonical_node`. -/
def resolveCanonicalNode (g : AtlasMultiDiGraph) (term : String) : Option String :=
  if g.hasNode term then some term
  else g.canonicalLower.get? (PyString.strip (txt.lower term))

/-- `resolve_nodes_by_lemma`: names that are no longer nodes are passed over. -/
def resolveNodesByLemma (g : AtlasMultiDiGraph) (lem : String) : List String :=
  (g.lemmaIndex.getD (PyString.strip (txt.lower lem)) []).filter g.hasNode

/-! ## Calls -/

/-- A call of a method, or an attribute of an edge that is written in place. -/
inductive Call
  | addNode (n : String) (attr : Attributes)
  | addNodesFrom (nodes : Argument (String × Attributes)) (attr : Attributes)
  | addEdge (u v : String) (key : Option EdgeKey) (attr : Attributes)
  | addEdgesFrom (ebunch : List EdgeItem) (attr : Attributes)
  | removeEdge (u v : String) (key : Option EdgeKey)
  | removeEdgesFrom (ebunch : List (String × String × Option EdgeKey))
  | removeNode (n : String)
  | removeNodesFrom (nodes : Argument String)
  | clear
  | clearEdges
  | bumpRevision
  | numberOfEdges
  | writeEdge (r : EdgeRef) (name : String) (value : AttrValue)

/-- `g[u][v][key][name] = value`. -/
def writeEdge (g : AtlasMultiDiGraph) (r : EdgeRef) (name : String) (value : AttrValue) :
    AtlasMultiDiGraph :=
  match g.edges.get? r with
  | some attrs => { g with edges := g.edges.set r (attrs.set name value) }
  | none => g

def step (g : AtlasMultiDiGraph) : Call → AtlasMultiDiGraph
  | .addNode n attr => g.addNode txt n attr
  | .addNodesFrom nodes attr => g.addNodesFrom txt nodes attr
  | .addEdge u v key attr => g.addEdge u v key attr
  | .addEdgesFrom ebunch attr => g.addEdgesFrom ebunch attr
  | .removeEdge u v key => g.removeEdge u v key
  | .removeEdgesFrom ebunch => g.removeEdgesFrom ebunch
  | .removeNode n => g.removeNode txt n
  | .removeNodesFrom nodes => g.removeNodesFrom txt nodes
  | .clear => g.clear
  | .clearEdges => g.clearEdges
  | .bumpRevision => g.bumpRevision
  | .numberOfEdges => g.numberOfEdges.2
  | .writeEdge r name value => g.writeEdge r name value

def run (g : AtlasMultiDiGraph) (calls : List Call) : AtlasMultiDiGraph := calls.foldl (step txt) g

end AtlasMultiDiGraph

end AtlasMemory
