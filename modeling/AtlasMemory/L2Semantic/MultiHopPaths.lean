import AtlasMemory.Foundations.Walks
import AtlasMemory.L2Semantic.KuzuGraph
import Mathlib.Data.List.Nodup

/-!
# Paths of several hops

`execute_multi_hop_cypher`: the paths between two nodes come from a query of the table of the
relations on disk, or, where the query fails, from a search of the graph in memory.  The query
matches every walk over the relations up to a number of hops, of which those without a repeated node
are kept with the data of their relations.  The search is for the simple paths over all edges of the
graph, and the data of a path are looked up for each pair of nodes.
-/

namespace AtlasMemory

open Walks

def edgesFrom (es : List Edge) (n : String) : List Edge := es.filter fun e => decide (e.subject = n)

/-- What the two databases answer, as they are documented. -/
structure PathSearches where
  /-- `MATCH (s)-[:RELATION*1..hops]->(t)` over the relations. -/
  matchWalks : List Edge → String → String → ℕ → List (List Edge)
  nodup_matchWalks : ∀ es s t hops, es.Nodup → (matchWalks es s t hops).Nodup
  mem_matchWalks : ∀ {es s t hops p}, p ∈ matchWalks es s t hops ↔
    1 ≤ p.length ∧ p.length ≤ hops ∧ IsWalk (edgesFrom es) Edge.object s p t
  /-- The edges of the paths of `nx.all_simple_paths` with a cutoff; parallel edges make different
  paths. -/
  allSimplePaths : List Edge → String → String → ℤ → List (List Edge)
  nodup_allSimplePaths : ∀ es s t cutoff, es.Nodup → (allSimplePaths es s t cutoff).Nodup
  mem_allSimplePaths : ∀ {es s t cutoff p}, p ∈ allSimplePaths es s t cutoff ↔
    (p.length : ℤ) ≤ cutoff ∧ IsSimpleWalk (edgesFrom es) Edge.object s p t

/-- What is read under the name of an attribute from the edges between two nodes: a value of one of
them, or the attributes of the edge with this name for its key. -/
inductive EdgeDatum
  | text (s : String)
  | number (q : ℚ)
  | attributes (e : Edge)
  deriving DecidableEq

/-- An edge of a path. -/
structure PathEdge where
  source : String
  predicate : EdgeDatum
  target : String
  confidence : EdgeDatum
  deriving DecidableEq

/-- A path of several hops. -/
structure MultiHopPath where
  source : String
  target : String
  nodes : List String
  edges : List PathEdge
  deriving DecidableEq

/-- `_MAX_HOPS_LIMIT`. -/
def maxHopsLimit : ℤ := 20

/-- `max(1, min(int(max_hops), _MAX_HOPS_LIMIT))`. -/
def cappedHops (maxHops : ℤ) : ℕ := (max 1 (min maxHops maxHopsLimit)).toNat

/-- The pairs of nodes that follow one another. -/
def consecutive (nodes : List String) : List (String × String) := nodes.zip nodes.tail

namespace KuzuGraphStore

variable (g : KuzuGraphStore)

/-! ## The data of the edges between two nodes -/

/-- `get_edge_data(u, v)`, by the keys. -/
def edgesBetween (u v : String) : List (Edge × EdgeAttrs) :=
  g.edges.entries.filter fun e => decide (e.1.subject = u ∧ e.1.object = v)

/-- The first of the edges with the highest confidence. -/
def bestEdge (es : List (Edge × EdgeAttrs)) : Option (Edge × EdgeAttrs) :=
  es.foldl (fun best e =>
    match best with
    | some b => if b.2.confidence < e.2.confidence then some e else some b
    | none => some e) none

/-- `edge_data.get(item, default)` of `MultiEdgeData`. -/
def edgeDatum (u v item : String) (read : Edge × EdgeAttrs → EdgeDatum) (default : EdgeDatum) :
    EdgeDatum :=
  match (g.edgesBetween u v).find? fun e => decide (e.1.predicate = item) with
  | some e => .attributes e.1
  | none => ((bestEdge (g.edgesBetween u v)).map read).getD default

/-- An edge of a path that is found in memory. -/
def ramEdge (uv : String × String) : PathEdge where
  source := uv.1
  predicate := g.edgeDatum uv.1 uv.2 "predicate" (fun e => .text e.1.predicate) (.text "leads_to")
  target := uv.2
  confidence := g.edgeDatum uv.1 uv.2 "confidence" (fun e => .number e.2.confidence) (.number 1)

/-- An edge of a path that is found on disk. -/
def diskEdge (uv : String × String) (rel : Edge) : PathEdge where
  source := uv.1
  predicate := .text rel.predicate
  target := uv.2
  confidence := .number (((g.disk.relations.get? rel).map RelationRow.confidence).getD 1)

/-! ## The two searches -/

variable (db : PathSearches)

/-- A path that is found in memory, from its nodes. -/
def ramPath (source target : String) (nodes : List String) : MultiHopPath :=
  ⟨source, target, nodes, (consecutive nodes).map g.ramEdge⟩

/-- A walk that is matched on disk, if no node is repeated. -/
def diskPath? (source target : String) (rels : List Edge) : Option MultiHopPath :=
  let names := nodesOf Edge.object source rels
  let edges := ((consecutive names).zip rels).map fun x => g.diskEdge x.1 x.2
  if names.length < 2 ∨ ¬ names.Nodup then none
  else if edges.length ≠ names.length - 1 then none
  else some ⟨source, target, names, edges⟩

/-- `_kuzu_multi_hop_paths`. -/
def kuzuMultiHopPaths (source target : String) (maxHops : ℤ) : List MultiHopPath :=
  (db.matchWalks g.disk.relations.keys source target (cappedHops maxHops)).filterMap
    (g.diskPath? source target)

/-- `execute_multi_hop_cypher`, with whether the query answers. -/
def executeMultiHopCypher (answers : Bool) (source target : String) (maxHops : ℤ) :
    List MultiHopPath :=
  if g.nodes.contains source && g.nodes.contains target then
    if answers then g.kuzuMultiHopPaths db source target maxHops
    else
      (db.allSimplePaths g.edges.keys source target maxHops).map fun p =>
        g.ramPath source target (nodesOf Edge.object source p)
  else []

/-! ## When the two agree -/

/-- The relations on disk are in memory with the same confidence, and the other edges in memory are
those of passages and synonyms. -/
structure Copied : Prop where
  held : ∀ e row, g.disk.relations.get? e = some row →
    ∃ attrs, g.edges.get? e = some attrs ∧ attrs.confidence = row.confidence
  others : ∀ e ∈ g.edges.keys, e ∉ g.disk.relations.keys →
    e.predicate = containsKey ∨ e.predicate = synonymKey

/-- There is no other edge in memory between the ends of the edge. -/
def Alone (e : Edge) : Prop :=
  ∀ e' ∈ g.edges.keys, e'.subject = e.subject → e'.object = e.object → e' = e

/-- The data that are read in memory for the ends of the edge are those of the edge. -/
structure ReadsAlike (e : Edge) : Prop where
  relation : e ∈ g.disk.relations.keys
  alone : g.Alone e
  not_predicate : e.predicate ≠ "predicate"
  not_confidence : e.predicate ≠ "confidence"

/-- The two searches have the same bounds and the same edges: a node has no path to itself, every
simple path in memory within the bound is one of relations that are read alike within the capped
bound, and every simple path of relations within the capped bound is within the bound. -/
structure SearchesAgree (source target : String) (maxHops : ℤ) : Prop where
  apart : source = target → maxHops < 0
  inMemory : ∀ p, IsSimpleWalk (edgesFrom g.edges.keys) Edge.object source p target →
    (p.length : ℤ) ≤ maxHops → p.length ≤ cappedHops maxHops ∧ ∀ e ∈ p, g.ReadsAlike e
  onDisk : ∀ p, IsSimpleWalk (edgesFrom g.disk.relations.keys) Edge.object source p target →
    p ≠ [] → p.length ≤ cappedHops maxHops → (p.length : ℤ) ≤ maxHops

end KuzuGraphStore

end AtlasMemory
