import AtlasMemory.Foundations.Json
import AtlasMemory.Foundations.PyDict
import AtlasMemory.Foundations.PyText
import Mathlib.Data.Rat.Defs
import Mathlib.Algebra.Order.Ring.Unbundled.Rat

/-!
# The graph store

The model of `KuzuGraphStore`: a multigraph in memory and the tables on disk, which every operation
changes side by side.  In memory there is one node for each name, with its type, and one edge for
each pair of names and each predicate.  On disk entities and passages are in tables of their own, and
so are the relations between entities, the contents of passages, and the synonyms.

Every call of the disk succeeds.  The time of an operation that is not given a time is an argument,
and a number is a finite one.  What no operation reads back is left out: the time of the ingestion of
a passage, the time of a mark, and the weight and the similarity that an edge repeats beside its
confidence.  Every edge in memory has its predicate as its key, so that the second branch of
`remove_edge_sync`, for an edge under another key, never runs and is left out.  The extraction of
entities and the search for synonyms are in `OpenIE`.
-/

namespace AtlasMemory

/-- A relation of the knowledge graph. -/
structure Edge where
  subject : String
  predicate : String
  object : String
  deriving DecidableEq

/-! ## The two representations -/

/-- The columns of a passage. -/
structure PassageRow where
  sourceKey : String
  text : String
  deriving DecidableEq

/-- The attributes of a node in memory. -/
structure NodeAttrs where
  type : String
  isSuperseded : Bool := false
  passage : Option PassageRow := none
  deriving DecidableEq

/-- The attributes of an edge in memory. -/
structure EdgeAttrs where
  confidence : ℚ
  timestamp : ℚ
  sessionId : Option Json

/-- A row of the table `Entity`. -/
structure EntityRow where
  entityType : String
  isSuperseded : Bool := false
  deriving DecidableEq

/-- The columns of a row of the table `RELATION`. -/
structure RelationRow where
  confidence : ℚ
  timestamp : ℚ
  deriving DecidableEq

/-- The tables on disk: entities, relations, passages, `CONTAINS` and `SYNONYM`. -/
structure KuzuTables where
  entities : PyDict String EntityRow
  relations : PyDict Edge RelationRow
  passages : PyDict String PassageRow
  contains : PyDict (String × String) ℚ
  synonyms : PyDict (String × String) ℚ

/-- The graph store. -/
structure KuzuGraphStore where
  nodes : PyDict String NodeAttrs
  edges : PyDict Edge EdgeAttrs
  disk : KuzuTables

/-- The extraction of entities from a text and the search for synonyms among names. -/
structure OpenIE where
  extractEntities : String → String → Option String → List String
  buildSynonymEdges : List String → List (String × String × ℚ)

/-- The predicate of the contents of a passage. -/
def containsKey : String := "CONTAINS"

def synonymKey : String := "SYNONYM"

namespace KuzuTables

def empty : KuzuTables := ⟨∅, ∅, ∅, ∅, ∅⟩

/-- `MERGE` of an entity, whose type is set when it is created. -/
def mergeEntity (d : KuzuTables) (name entityType : String) : KuzuTables :=
  if d.entities.contains name then d
  else { d with entities := d.entities.set name { entityType := entityType } }

/-- `CASE WHEN new > old THEN new ELSE old END`. -/
def raised (new old : ℚ) : ℚ := if old < new then new else old

/-- `MERGE` of a relation between two entities. -/
def mergeRelation (d : KuzuTables) (e : Edge) (confidence timestamp : ℚ) : KuzuTables :=
  { d with
    relations := d.relations.set e (match d.relations.get? e with
      | some row => ⟨raised confidence row.confidence, raised timestamp row.timestamp⟩
      | none => ⟨confidence, timestamp⟩) }

/-- `MERGE` of a weighted link between two rows. -/
def mergeLink (links : PyDict (String × String) ℚ) (ends : String × String) (w : ℚ) :
    PyDict (String × String) ℚ :=
  links.set ends (match links.get? ends with
    | some old => raised w old
    | none => w)

/-- `DETACH DELETE` of an entity. -/
def detachEntity (d : KuzuTables) (name : String) : KuzuTables where
  entities := d.entities.erase name
  relations := d.relations.filter fun e _ => decide (e.subject ≠ name ∧ e.object ≠ name)
  passages := d.passages
  contains := d.contains.filter fun l _ => decide (l.2 ≠ name)
  synonyms := d.synonyms.filter fun l _ => decide (l.1 ≠ name ∧ l.2 ≠ name)

/-- `DETACH DELETE` of a passage. -/
def detachPassage (d : KuzuTables) (passageId : String) : KuzuTables :=
  { d with
    passages := d.passages.erase passageId
    contains := d.contains.filter fun l _ => decide (l.1 ≠ passageId) }

/-- The entities without a relation, without a passage that contains them, and without a synonym. -/
def orphans (d : KuzuTables) : List String :=
  d.entities.keys.filter fun name =>
    d.relations.keys.all (fun e => decide (e.subject ≠ name ∧ e.object ≠ name)) &&
      d.contains.keys.all (fun l => decide (l.2 ≠ name)) &&
      d.synonyms.keys.all (fun l => decide (l.1 ≠ name ∧ l.2 ≠ name))

end KuzuTables

namespace KuzuGraphStore

def empty : KuzuGraphStore := ⟨∅, ∅, .empty⟩

/-! ## The multigraph -/

/-- `add_node(name, type=…)`: the other attributes stay. -/
def addNode (nodes : PyDict String NodeAttrs) (name type : String) : PyDict String NodeAttrs :=
  nodes.set name (match nodes.get? name with
    | some attrs => { attrs with type := type }
    | none => { type := type })

/-- `add_node` of a passage. -/
def addPassageNode (nodes : PyDict String NodeAttrs) (passageId : String) (row : PassageRow) :
    PyDict String NodeAttrs :=
  nodes.set passageId (match nodes.get? passageId with
    | some attrs => { attrs with type := "passage", passage := some row }
    | none => { type := "passage", passage := some row })

def ensureNode (nodes : PyDict String NodeAttrs) (name type : String) : PyDict String NodeAttrs :=
  if nodes.contains name then nodes else nodes.set name { type := type }

/-- `remove_node`, if the node is there: its edges go with it. -/
def removeNode (g : KuzuGraphStore) (name : String) : KuzuGraphStore :=
  if g.nodes.contains name then
    { g with
      nodes := g.nodes.erase name
      edges := g.edges.filter fun e _ => decide (e.subject ≠ name ∧ e.object ≠ name) }
  else g

/-- The higher one of a number and the one that may be there, as `prev if prev > new else new`. -/
def higher (new : ℚ) (prev : Option ℚ) : ℚ :=
  match prev with
  | some p => if new < p then p else new
  | none => new

/-! ## Operations -/

/-- `add_entity`. -/
def addEntity (g : KuzuGraphStore) (name entityType : String) : KuzuGraphStore :=
  { g with
    nodes := addNode g.nodes name entityType
    disk := g.disk.mergeEntity name entityType }

/-- `add_relation`. -/
def addRelation (g : KuzuGraphStore) (e : Edge) (confidence timestamp : ℚ)
    (sessionId : Option Json) : KuzuGraphStore :=
  let prev := g.edges.get? e
  { nodes := addNode (addNode g.nodes e.subject "entity") e.object "entity_or_value"
    edges := g.edges.set e
      ⟨higher confidence (prev.map EdgeAttrs.confidence),
        higher timestamp (prev.map EdgeAttrs.timestamp), sessionId⟩
    disk := ((g.disk.mergeEntity e.subject "entity").mergeEntity e.object
      "entity_or_val").mergeRelation e confidence timestamp }

/-- `add_passage`. -/
def addPassage (g : KuzuGraphStore) (passageId sourceKey text : String) : KuzuGraphStore :=
  let pid := PyString.strip passageId
  let row : PassageRow := ⟨PyString.strip sourceKey, PyString.strip text⟩
  if pid = "" then g
  else
    { g with
      nodes := addPassageNode g.nodes pid row
      disk := { g.disk with passages := g.disk.passages.set pid row } }

/-- `add_contains`: on disk a passage that is not there gets no link. -/
def addContains (g : KuzuGraphStore) (passageId entityName : String) (weight now : ℚ)
    (persistToKuzu : Bool) : KuzuGraphStore :=
  let pid := PyString.strip passageId
  let ename := PyString.strip entityName
  if pid = "" ∨ ename = "" then g
  else
    let nodes := if g.nodes.contains pid then g.nodes
      else addPassageNode g.nodes pid ⟨pid, ""⟩
    { nodes := ensureNode nodes ename "entity"
      edges := g.edges.set ⟨pid, containsKey, ename⟩ ⟨weight, now, none⟩
      disk :=
        if persistToKuzu then
          let merged := g.disk.mergeEntity ename "entity"
          if merged.passages.contains pid then
            { merged with contains := KuzuTables.mergeLink merged.contains (pid, ename) weight }
          else merged
        else g.disk }

/-- `add_synonym`, in both directions. -/
def addSynonym (g : KuzuGraphStore) (entityA entityB : String) (sim now : ℚ) : KuzuGraphStore :=
  let ea := PyString.strip entityA
  let eb := PyString.strip entityB
  if ea = "" ∨ eb = "" ∨ ea = eb then g
  else
    { nodes := addNode (addNode g.nodes ea "entity") eb "entity"
      edges := (g.edges.set ⟨ea, synonymKey, eb⟩ ⟨sim, now, none⟩).set ⟨eb, synonymKey, ea⟩
        ⟨sim, now, none⟩
      disk :=
        let merged := (g.disk.mergeEntity ea "entity").mergeEntity eb "entity"
        { merged with
          synonyms := KuzuTables.mergeLink (KuzuTables.mergeLink merged.synonyms (ea, eb) sim)
            (eb, ea) sim } }

/-- `remove_edge_sync`: on disk it removes relations only. -/
def removeEdge (g : KuzuGraphStore) (e : Edge) : KuzuGraphStore :=
  { g with
    edges := g.edges.erase e
    disk := { g.disk with relations := g.disk.relations.erase e } }

/-- `mark_entity_superseded`. -/
def markEntitySuperseded (g : KuzuGraphStore) (name : String) : KuzuGraphStore :=
  let ent := PyString.strip name
  if ent = "" then g
  else
    { g with
      nodes := match g.nodes.get? ent with
        | some attrs => g.nodes.set ent { attrs with isSuperseded := true }
        | none => g.nodes
      disk := match g.disk.entities.get? ent with
        | some row =>
          { g.disk with entities := g.disk.entities.set ent { row with isSuperseded := true } }
        | none => g.disk }

/-- `is_entity_superseded`: the node in memory is asked first. -/
def isEntitySuperseded (g : KuzuGraphStore) (name : String) : Bool :=
  let ent := PyString.strip name
  if ent = "" then false
  else
    match g.nodes.get? ent with
    | some attrs => attrs.isSuperseded
    | none => (g.disk.entities.get? ent).elim false EntityRow.isSuperseded

def passageCandidates (passageId : String) : List String :=
  let pid := PyString.strip passageId
  [pid, if PyString.startsWith pid "passage:" then pid else "passage:" ++ pid]

/-- `rollback_dual_node_record`. -/
def rollbackDualNodeRecord (g : KuzuGraphStore) (passageId : String)
    (createdEntities : List String) : KuzuGraphStore :=
  let cands := passageCandidates passageId
  let g' := (cands ++ createdEntities).foldl removeNode g
  { g' with
    disk := createdEntities.foldl KuzuTables.detachEntity
      (cands.foldl KuzuTables.detachPassage g'.disk) }

/-- `garbage_collect_orphans`: the disk decides which entities are orphans. -/
def garbageCollectOrphans (g : KuzuGraphStore) : KuzuGraphStore :=
  let deleted := g.disk.orphans
  let g' := deleted.foldl removeNode g
  { g' with disk := deleted.foldl KuzuTables.detachEntity g'.disk }

/-! ## The index of a passage -/

/-- An operation that changes one kind of row. -/
inductive GraphOp
  | addEntity (name entityType : String)
  | addRelation (e : Edge) (confidence timestamp : ℚ) (sessionId : Option Json)
  | addPassage (passageId sourceKey text : String)
  | addContains (passageId entityName : String) (weight now : ℚ) (persistToKuzu : Bool)
  | addSynonym (entityA entityB : String) (sim now : ℚ)
  | removeEdge (e : Edge)
  | markEntitySuperseded (name : String)
  | rollbackDualNodeRecord (passageId : String) (createdEntities : List String)
  | garbageCollectOrphans

def step (g : KuzuGraphStore) : GraphOp → KuzuGraphStore
  | .addEntity name entityType => g.addEntity name entityType
  | .addRelation e confidence timestamp sessionId => g.addRelation e confidence timestamp sessionId
  | .addPassage passageId sourceKey text => g.addPassage passageId sourceKey text
  | .addContains passageId entityName weight now persistToKuzu =>
    g.addContains passageId entityName weight now persistToKuzu
  | .addSynonym entityA entityB sim now => g.addSynonym entityA entityB sim now
  | .removeEdge e => g.removeEdge e
  | .markEntitySuperseded name => g.markEntitySuperseded name
  | .rollbackDualNodeRecord passageId createdEntities =>
    g.rollbackDualNodeRecord passageId createdEntities
  | .garbageCollectOrphans => g.garbageCollectOrphans

def run (g : KuzuGraphStore) (ops : List GraphOp) : KuzuGraphStore := ops.foldl step g

/-- The arguments of `index_dual_node_passage`. -/
structure IndexArgs where
  sourceKey : String
  text : String
  gist : Option String := none
  explicitEntities : List String := []
  explicitSynonyms : List (String × String × ℚ) := []

/-- The names, stripped, without the empty one and without repetitions. -/
def uniqueNames (names : List String) : List String :=
  names.foldl (fun acc n =>
    let name := PyString.strip n
    if name ≠ "" ∧ name ∉ acc then acc ++ [name] else acc) []

/-- The first sixteen entities: the given ones, or those that are extracted. -/
def cappedEntities (ie : OpenIE) (a : IndexArgs) : List String :=
  let skey := PyString.strip a.sourceKey
  let given := uniqueNames a.explicitEntities
  let unique :=
    if given = [] then
      uniqueNames (ie.extractEntities skey (PyString.strip a.text)
        (a.gist.filter fun s => decide (s ≠ "")))
    else given
  unique.take 16

def entityOps (ie : OpenIE) (g : KuzuGraphStore) (a : IndexArgs) (now : ℚ) : List GraphOp :=
  let skey := PyString.strip a.sourceKey
  .addPassage skey skey (PyString.strip a.text) ::
    (cappedEntities ie a).flatMap fun ent =>
      (if g.nodes.contains ent then [] else [.addEntity ent "entity"]) ++
        [.addContains skey ent 1 now true]

/-- The synonyms, among the entities and the names of the first nodes. -/
def synonymOps (ie : OpenIE) (g : KuzuGraphStore) (a : IndexArgs) (now : ℚ) : List GraphOp :=
  let capped := cappedEntities ie a
  if capped = [] then []
  else
    let others := (g.nodes.entries.take 128).filterMap fun n =>
      if n.2.type = "passage" then none else some (PyString.strip n.1)
    let existing := others.foldl (fun acc name =>
      if name ≠ "" ∧ name ∉ acc then acc ++ [name] else acc) capped
    ((ie.buildSynonymEdges existing ++ a.explicitSynonyms).filter fun p =>
      decide (p.1 ∈ capped ∨ p.2.1 ∈ capped)).map fun p => .addSynonym p.1 p.2.1 p.2.2 now

/-- The operations that `index_dual_node_passage` makes. -/
def indexOps (ie : OpenIE) (g : KuzuGraphStore) (a : IndexArgs) (now : ℚ) : List GraphOp :=
  if PyString.strip a.sourceKey = "" ∨ PyString.strip a.text = "" then []
  else
    let entities := entityOps ie g a now
    entities ++ synonymOps ie (g.run entities) a now

/-- `index_dual_node_passage`, without its rollback, since no call of the disk fails. -/
def indexDualNodePassage (ie : OpenIE) (g : KuzuGraphStore) (a : IndexArgs) (now : ℚ) :
    KuzuGraphStore :=
  g.run (indexOps ie g a now)

/-! ## Hydration -/

section Hydration

variable (isValidGraphEntity : String → Bool)

def hydrateEntities (nodes : PyDict String NodeAttrs) (rows : List (String × EntityRow)) :
    PyDict String NodeAttrs :=
  rows.foldl (fun nodes row =>
    if row.1 = "" ∨ isValidGraphEntity row.1 = false then nodes
    else ensureNode nodes row.1 row.2.entityType) nodes

/-- The ends of a relation are entities of the graph. -/
def validEnds (u v : String) : Bool := isValidGraphEntity u && isValidGraphEntity v

/-- `predicate`, or `related_to` where it is empty. -/
def hydratedPredicate (e : Edge) : Edge :=
  if e.predicate = "" then { e with predicate := "related_to" } else e

/-- A relation of the table, merged with an edge that is there. -/
def hydrateRelation (edges : PyDict Edge EdgeAttrs) (row : Edge × RelationRow) :
    PyDict Edge EdgeAttrs :=
  if validEnds isValidGraphEntity row.1.subject row.1.object then
    let e := hydratedPredicate row.1
    edges.set e (match edges.get? e with
      | none => ⟨row.2.confidence, row.2.timestamp, none⟩
      | some prev => ⟨max prev.confidence row.2.confidence, max prev.timestamp row.2.timestamp,
          prev.sessionId⟩)
  else edges

/-- A row of `CONTAINS`. -/
def hydrateContains (edges : PyDict Edge EdgeAttrs) (row : (String × String) × ℚ) :
    PyDict Edge EdgeAttrs :=
  if isValidGraphEntity row.1.2 then edges.set ⟨row.1.1, containsKey, row.1.2⟩ ⟨row.2, 0, none⟩
  else edges

/-- A row of `SYNONYM`. -/
def hydrateSynonym (edges : PyDict Edge EdgeAttrs) (row : (String × String) × ℚ) :
    PyDict Edge EdgeAttrs :=
  if validEnds isValidGraphEntity row.1.1 row.1.2 then
    edges.set ⟨row.1.1, synonymKey, row.1.2⟩ ⟨row.2, 0, none⟩
  else edges

/-- The edges that are read from the tables. -/
def hydratedEdges (d : KuzuTables) : PyDict Edge EdgeAttrs :=
  d.synonyms.entries.foldl (hydrateSynonym isValidGraphEntity)
    (d.contains.entries.foldl (hydrateContains isValidGraphEntity)
      (d.relations.entries.foldl (hydrateRelation isValidGraphEntity) ∅))

/-- The nodes that are read from the tables. -/
def hydratedNodes (d : KuzuTables) : PyDict String NodeAttrs :=
  let entities := hydrateEntities isValidGraphEntity ∅ d.entities.entries
  let related := d.relations.entries.foldl (fun nodes row =>
    if validEnds isValidGraphEntity row.1.subject row.1.object then
      ensureNode (ensureNode nodes row.1.subject "entity") row.1.object "entity_or_value"
    else nodes) entities
  let passages := d.passages.entries.foldl (fun nodes row =>
    if row.1 = "" then nodes
    else addPassageNode nodes row.1
      ⟨if row.2.sourceKey = "" then row.1 else row.2.sourceKey, row.2.text⟩) related
  let contained := d.contains.entries.foldl (fun nodes row =>
    if isValidGraphEntity row.1.2 then
      ensureNode (if nodes.contains row.1.1 then nodes
        else addPassageNode nodes row.1.1 ⟨row.1.1, ""⟩) row.1.2 "entity"
    else nodes) passages
  d.synonyms.entries.foldl (fun nodes row =>
    if validEnds isValidGraphEntity row.1.1 row.1.2 then
      ensureNode (ensureNode nodes row.1.1 "entity") row.1.2 "entity"
    else nodes) contained

/-- The names that are purged from the disk. -/
def invalidEntities (d : KuzuTables) : List String :=
  (d.entities.keys.filter fun name => decide (name ≠ "") && !isValidGraphEntity name) ++
    (d.relations.keys.filterMap fun e =>
      if isValidGraphEntity e.subject = false then some e.subject
      else if isValidGraphEntity e.object = false then some e.object
      else none) ++
    (d.contains.keys.map Prod.snd).filter fun name => !isValidGraphEntity name

/-- `hydrate_from_disk_sync` of a store with an empty multigraph. -/
def hydrateFromDisk (d : KuzuTables) : KuzuGraphStore where
  nodes := hydratedNodes isValidGraphEntity d
  edges := hydratedEdges isValidGraphEntity d
  disk := (invalidEntities isValidGraphEntity d).foldl KuzuTables.detachEntity d

end Hydration

end KuzuGraphStore

end AtlasMemory
