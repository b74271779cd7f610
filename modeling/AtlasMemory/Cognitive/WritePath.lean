import AtlasMemory.Cognitive.ConflictArbiter
import AtlasMemory.Cognitive.Grounding
import AtlasMemory.L1Working.HotBuffer
import AtlasMemory.L2Semantic.KuzuGraph
import AtlasMemory.L2Semantic.KvStore
import AtlasMemory.L2Semantic.VectorStore

/-!
# The write path

The model of `EpistemicWritePath.write` over a store, a vector store, a knowledge graph and a hot
buffer, all of which are present.  The call goes through its stages in the order of the source:
normalisation, the speech-act gate, the grounding gate, the replay shortcut, arbitration over the
records that the store and the buffer give, belief revision, revision tracking, the savepoint and
the persisted write, the vector, the buffer, the graph edges, and the release.  Belief revision and
revision tracking come before the savepoint.

What the call asks of code beyond these stores is in its environment: the speech-act classifier, the
full-text index, the filter for personal data, the extraction of relations from prose, and the
index of passages.  So are the faults: the insertion of a vector or of an edge may raise, and then
leaves its store as it was, and so may the purge of the points of a superseded key; the deletions of a
compensation succeed.  The record of the keys that a session touched, the log of the path and the
checkpoints of the two numeric layers are left out.
-/

namespace AtlasMemory

/-! ## Stores -/

/-- The knowledge graph: its relations with their confidence, and its passages with their text. -/
structure KnowledgeGraph where
  edges : PyDict Edge ℚ
  passages : PyDict String String

namespace KnowledgeGraph

/-- `add_relation`: a repeated relation keeps the higher confidence. -/
def addRelation (g : KnowledgeGraph) (e : Edge) (confidence : ℚ) : KnowledgeGraph :=
  let merged := match g.edges.get? e with
    | some prev => if confidence < prev then prev else confidence
    | none => confidence
  { g with edges := g.edges.set e merged }

/-- `remove_edge_sync`. -/
def removeEdge (g : KnowledgeGraph) (e : Edge) : KnowledgeGraph :=
  { g with edges := g.edges.erase e }

/-- The identifiers under which a passage is looked up. -/
def passageIds (passageId : String) : List String :=
  let pid := PyString.strip passageId
  [pid, if PyString.startsWith pid "passage:" then pid else "passage:" ++ pid]

/-- `has_passage`. -/
def hasPassage (g : KnowledgeGraph) (passageId : String) : Bool :=
  decide (PyString.strip passageId ≠ "") && (passageIds passageId).any g.passages.contains

/-- `rollback_dual_node_record`: the node goes with every relation at it. -/
def rollbackDualNodeRecord (g : KnowledgeGraph) (passageId : String) : KnowledgeGraph where
  edges := g.edges.filter fun e _ =>
    decide (e.subject ∉ passageIds passageId ∧ e.object ∉ passageIds passageId)
  passages := g.passages.filter fun pid _ => decide (pid ∉ passageIds passageId)

end KnowledgeGraph

/-- The stores of a write path. -/
structure Stores (ρ : Type) where
  kv : VerifiedKVStore
  hot : HotBuffer
  vectors : List (VectorPoint ρ)
  graph : KnowledgeGraph

/-- What a write path calls beyond its stores. -/
structure WriteEnv (ρ : Type) where
  rt : Runtime
  lex : Lexicon
  arbiter : ConflictArbiter
  /-- `classify_speech_act(key, predicate, value) is CONVERSATIONAL_TURN`. -/
  isConversationalTurn : String → Option Json → Json → Bool
  /-- The keys that the full-text index gives for a key and a value. -/
  ftsMatches : StateTable → String → Json → List String
  /-- `is_pii_entity`. -/
  isPiiEntity : String → Bool
  /-- `int(v)`; `none` when it raises. -/
  toInt : Json → Option ℤ
  /-- `json.dumps(v, ensure_ascii=False, default=str)`. -/
  rawText : Json → String
  /-- `extract_and_insert_multihop_relations`; its exceptions are swallowed. -/
  extractRelations : KnowledgeGraph → String → String → KnowledgeGraph × ℕ
  /-- `index_dual_node_passage`, if the graph is one of passages and entities. -/
  indexPassage : Option (KnowledgeGraph → String → String → PyDict String Json →
    KnowledgeGraph × Except PyError ℕ)
  /-- The insertion of this relation raises. -/
  relationFault : Edge → Option PyError
  /-- The insertion of this point raises. -/
  vectorFault : VectorPoint ρ → Option PyError
  /-- The purge of the points of this superseded key raises. -/
  purgeFault : String → Option PyError

/-! ## Requests -/

/-- The arguments of `write`; a record as the first argument gives the other items of the write. -/
structure WriteRequest (ρ : Type) where
  key : Json
  value : Json := .null
  confidence : PyFloat := .finite 1
  metadata : Option (PyDict String Json) := none
  sourceType : Option String := none
  reason : String := "write_path"
  sessionId : Option String := none
  vectorRecord : Option ρ := none
  replayAt : Option String := none
  replay : Bool := false

/-- The readings of the clock in one call. -/
structure WriteTimes where
  scanned : ℚ
  revised : ℚ
  persisted : ℚ
  buffered : ℚ
  restored : ℚ

/-- The normalised arguments. -/
structure NormalizedInput where
  key : String
  value : Json
  confidence : PyFloat
  metadata : PyDict String Json
  replayAt : Option String

/-- The response of `write`, without the arbitration result. -/
structure WriteResponse where
  status : String
  key : String
  persisted : Bool
  action : Option String := none
  warning : Option String := none
  reason : Option String := none
  noOp : Bool := false
  isBeliefRevision : Bool := false
  supersededKey : Option String := none
  revisionCount : Option Json := none
  conflictDetails : Option (PyDict String Json) := none
  edgesAdded : ℕ := 0

/-- A record that the arbitration sees: a row of the store or an entry of the buffer. -/
structure MemoryItem where
  value : Json
  confidence : ℚ
  timestamp : PyFloat
  metadata : PyDict String Json

def MemoryItem.toExisting (m : MemoryItem) : ExistingItem :=
  .dict (some m.value) none none (some m.confidence) none (some m.metadata)

/-- `row_to_state_dict`, with the items that a write reads. -/
def StateRow.toMemoryItem (rt : Runtime) (key : String) (row : StateRow) : MemoryItem where
  value := row.decodedValue
  confidence := row.confidence
  timestamp := row.timestamp
  metadata := (row.toStateDict rt key).metadata

/-- A live entry as the dictionary that is mixed into the records. -/
def HotBufferEntry.toMemoryItem (e : HotBufferEntry) : MemoryItem :=
  ⟨e.value, e.confidence, .finite e.timestamp, e.metadata⟩

/-- The savepoint is there, so that a rollback to it does not raise. -/
def VerifiedKVStore.hasSavepoint (s : VerifiedKVStore) (name : String) : Bool :=
  (s.tables.rollbackTo (SqlText.lower name)).isSome

namespace WritePath

variable {ρ : Type} (env : WriteEnv ρ)

/-- `a.get(x) or b`, for the text of a key. -/
def firstTruthy (items : List (Option Json)) : Option Json :=
  (items.filterMap id).find? env.rt.truthy

/-- `_normalize_write_input`. -/
def normalizeWriteInput (req : WriteRequest ρ) : Except PyError NormalizedInput :=
  let finish (keyText : String) (value : Json) (confidence : PyFloat)
      (metadata : PyDict String Json) (replayAt : Option String) : Except PyError NormalizedInput :=
    if keyText = "" then .error ⟨.valueError, "Key is required for write operation."⟩
    else
      .ok ⟨keyText, value, confidence, match replayAt with
        | some t => metadata.set "ingest_at" (.str t)
        | none => metadata, replayAt⟩
  match req.key with
  | .obj members =>
    let item (name : String) := PyDict.find name members
    let keyText := PyString.strip
      (((firstTruthy env [item "source_key", item "key", item "subject"]).map env.rt.pyStr).getD "")
    let value := (item "text").getD ((item "value").getD req.value)
    let given : Except PyError (PyDict String Json) :=
      match (item "metadata").filter env.rt.truthy with
      | some (.obj ms) => .ok (PyDict.ofEntries ms)
      | some _ => .error ⟨.valueError, "cannot convert dictionary update sequence"⟩
      | none => .ok (req.metadata.getD ∅)
    let listed (name : String) (d : PyDict String Json) : Except PyError (PyDict String Json) :=
      match item name with
      | some (.arr vs) => .ok (d.set name (.arr vs))
      | some (.obj ms) => .ok (d.set name (.arr (ms.map fun m => .str m.1)))
      | some (.str s) => .ok (d.set name (.arr (s.toList.map fun c => .str (String.singleton c))))
      | some _ => .error ⟨.typeError, "object is not iterable"⟩
      | none => .ok d
    let confidence : Except PyError PyFloat :=
      match item "confidence" with
      | some v =>
        match env.rt.floatOfJson v with
        | some x => .ok x
        | none => .error ⟨.valueError, "could not convert to float"⟩
      | none => .ok req.confidence
    let replayAt := req.replayAt.or (((item "replay_at").filter fun v =>
      match v with
      | .null => false
      | _ => true).map env.rt.pyStr)
    confidence.bind fun confidence =>
      (given.bind fun d => (listed "entities" d).bind (listed "synonyms")).bind fun metadata =>
        finish keyText value confidence metadata replayAt
  | key =>
    finish (PyString.strip (if env.rt.truthy key then env.rt.pyStr key else "")) req.value
      req.confidence (req.metadata.getD ∅) req.replayAt

/-! ## What the arbitration sees -/

/-- Add the rows under these keys that are not there yet, up to a number of records. -/
def addRows (t : StateTable) (cap : Option ℕ) (keys : List String)
    (items : PyDict String MemoryItem) : PyDict String MemoryItem :=
  keys.foldl (fun acc k =>
    match t.get? k with
    | some row =>
      if acc.contains k || (match cap with
        | some n => decide (n ≤ acc.size)
        | none => false) then acc
      else acc.set k (row.toMemoryItem env.rt k)
    | none => acc) items

/-- `get_arbitration_candidates` with the limit 100: the exact key, the keys of the namespace, and
what the full-text index finds. -/
def getArbitrationCandidates (t : StateTable) (key : String) (value : Json) :
    PyDict String MemoryItem :=
  let exact := addRows env t none [key] ∅
  let root := (PyString.split ':' key).headD ""
  let inNamespace :=
    if 2 ≤ root.length then (t.keys.filter fun k => SqlText.like (root ++ ":%") k).take 100 else []
  let withNamespace := addRows env t none inNamespace exact
  if withNamespace.size < 100 then
    addRows env t (some 100) (env.ftsMatches t key value) withNamespace
  else withNamespace

/-- The record that the metadata name as superseded, if it is not among the records. -/
def addNamed (t : StateTable) (metadata : PyDict String Json) (items : PyDict String MemoryItem) :
    PyDict String MemoryItem :=
  match (metadata.get? "supersedes").filter env.rt.truthy with
  | some v =>
    let k := env.rt.pyStr v
    if items.contains k then items
    else
      match t.lookup k with
      | some (stored, row) => items.set k (row.toMemoryItem env.rt stored)
      | none => items
  | none => items

/-- One round of the read-through: an entry that is not older than the record replaces it. -/
def mixIn (items : PyDict String MemoryItem) (e : HotBufferEntry) : PyDict String MemoryItem :=
  if e.key = "" then items
  else
    match items.get? e.key with
    | some m => if (PyFloat.finite e.timestamp).lt m.timestamp then items
      else items.set e.key e.toMemoryItem
    | none => items.set e.key e.toMemoryItem

/-- `existing_items`. -/
def existingItems (s : Stores ρ) (key : String) (value : Json) (metadata : PyDict String Json)
    (session : Option String) (now : ℚ) : PyDict String MemoryItem :=
  let t := s.kv.db.stateVariables
  let stored := addNamed env t metadata (getArbitrationCandidates env t key value)
  (s.hot.getActive env.rt env.lex session now).foldl mixIn stored

/-- The records as the arbiter reads them. -/
def arbiterItems (items : PyDict String MemoryItem) : PyDict String ExistingItem :=
  items.mapValues MemoryItem.toExisting

def rejects (r : ArbitrationResult) : Bool :=
  r.isConflict && decide (r.reason = some .confidenceInversion)

/-! ## The metadata of the write -/

def stampedMetadata (req : WriteRequest ρ) (metadata : PyDict String Json) (confidence : ℚ) :
    PyDict String Json :=
  let withSource := match req.sourceType.filter fun s => decide (s ≠ "") with
    | some s => metadata.set "source_type" (.str s)
    | none =>
      if metadata.contains "source_type" then metadata
      else metadata.set "source_type" (.str "user_explicit")
  let withConfidence := withSource.set "confidence" (env.rt.jsonFloat (.finite confidence))
  match req.sessionId.filter fun s => decide (s ≠ "") with
  | some s => withConfidence.set "session_id" (.str s)
  | none => withConfidence

/-- The warning of a conflict that does not stop the write. -/
def warnedMetadata (r : ArbitrationResult) (metadata : PyDict String Json) : PyDict String Json :=
  if r.isConflict && !r.isBeliefRevision then
    let warned := metadata.set "conflict_warning" (.bool true)
    match r.conflictDetails with
    | some details => warned.set "conflict_details" (.obj details.entries)
    | none => warned
  else metadata

/-! ## Belief revision -/

/-- `add_relation` inside a block that swallows exceptions: the relations up to the first fault. -/
def wireRelations (g : KnowledgeGraph) (confidence : ℚ) : List Edge → KnowledgeGraph
  | [] => g
  | e :: es =>
    match env.relationFault e with
    | some _ => g
    | none => wireRelations (g.addRelation e confidence) confidence es

/-- The key that a belief revision supersedes. -/
def supersededKey (key : String) (metadata : PyDict String Json) (r : ArbitrationResult) : String :=
  match r.supersededKey.filter fun s => decide (s ≠ "") with
  | some s => s
  | none => (((metadata.get? "supersedes").filter env.rt.truthy).map env.rt.pyStr).getD key

/-- The arguments of the rewrite that marks a record as superseded. -/
def supersedeArgs (oldKey key : String) (old : MemoryItem) (now : ℚ) : SetArgs where
  key := oldKey
  value := old.value
  confidence := some (.finite old.confidence)
  metadata := some (((old.metadata.set "is_superseded" (.bool true)).set "superseded_by"
    (.str key)).set "superseded_at" (env.rt.jsonFloat (.finite now)))
  reason := "superseded_by_belief_revision"

/-- The keys under which the points of a superseded key are purged. -/
def keysToPurge (oldKey : String) : List String :=
  [oldKey, if PyString.startsWith oldKey "kv:" then String.ofList (oldKey.toList.drop 3)
    else "kv:" ++ oldKey]

/-- The purge of the points under these keys, up to the first fault, and whether there was none. -/
def purgePoints (points : List (VectorPoint ρ)) : List String → List (VectorPoint ρ) × Bool
  | [] => (points, true)
  | k :: ks =>
    match env.purgeFault k with
    | some _ => (points, false)
    | none => purgePoints (VectorStore.deleteByUpsertKey points k) ks

/-- The arguments of the rewrite that notes that points of a superseded key are left. -/
def tombstoneArgs (oldKey : String) (old : MemoryItem) : SetArgs where
  key := oldKey
  value := old.value
  confidence := some (.finite old.confidence)
  metadata := some ((old.metadata.set "vector_tombstone_pending" (.bool true)).set "is_superseded"
    (.bool true))
  reason := "vector_tombstone_pending"

/-- The record of the superseded key is marked. -/
def markSuperseded (kv : VerifiedKVStore) (items : PyDict String MemoryItem) (oldKey key : String)
    (now : ℚ) : VerifiedKVStore :=
  match items.get? oldKey with
  | some old => kv.call env.rt (.setSync (supersedeArgs env oldKey key old now) now)
  | none => kv

/-- The record of the superseded key is read and rewritten with the note. -/
def noteTombstone (kv : VerifiedKVStore) (oldKey : String) (now : ℚ) : VerifiedKVStore :=
  match kv.db.stateVariables.lookup oldKey with
  | some (stored, row) =>
    kv.call env.rt (.setSync (tombstoneArgs oldKey (row.toMemoryItem env.rt stored)) now)
  | none => kv

/-- The belief revision of `oldKey` by a write to `key`, and whether the points are purged. -/
def reviseBelief (s : Stores ρ) (items : PyDict String MemoryItem) (oldKey key : String)
    (confidence now : ℚ) : Stores ρ × Bool :=
  let marked := markSuperseded env s.kv items oldKey key now
  let (points, purged) := if oldKey ≠ key then purgePoints env s.vectors (keysToPurge oldKey)
    else (s.vectors, true)
  ({ kv := if purged then marked else noteTombstone env marked oldKey now
     graph :=
      if oldKey ≠ key then wireRelations env s.graph confidence [⟨oldKey, "SUPERSEDED_BY", key⟩]
      else s.graph
     hot := s.hot.purge oldKey
     vectors := points }, purged)

/-- The metadata of a write that revises `oldKey`. -/
def revisionMetadata (oldKey : String) (purged : Bool) (metadata : PyDict String Json) :
    PyDict String Json :=
  let revised :=
    (metadata.set "is_belief_revision" (.bool true)).set "superseded_key" (.str oldKey)
  if purged then revised else revised.set "vector_tombstone_pending" (.bool true)

/-! ## Revision tracking -/

/-- The record of the same key holds another value. -/
def valueRevised (items : PyDict String MemoryItem) (key : String) (value : Json) :
    Option MemoryItem :=
  (items.get? key).filter fun m => decide (env.rt.pyStr m.value ≠ env.rt.pyStr value)

/-- The metadata of a write that changes the value of the record; `none` when its counter is no
number. -/
def trackedMetadata (prior : MemoryItem) (metadata : PyDict String Json) :
    Option (PyDict String Json) :=
  (env.toInt ((prior.metadata.get? "revision_count").getD (.number (.ofInt 0)))).map fun n =>
    (metadata.set "prior_value" (.str (env.rt.pyStr prior.value))).set "revision_count"
      (.number (.ofInt (n + 1)))

/-- The relations of a version transition. -/
def transitionEdges (key : String) (prior value : Json) : List Edge :=
  [⟨key, "REVISED_FROM", env.rt.pyStr prior⟩,
    ⟨env.rt.pyStr prior, "TRANSITIONED_TO", env.rt.pyStr value⟩]

/-! ## Graph edges -/

/-- The relation that `commit_relation` adds, if its filters let it through. -/
def committed (e : Edge) : Option Edge :=
  let grounded (name : String) :=
    (Grounding.isLexicallyGroundedEntity env.rt env.lex name .null ∅).1
  let object := PyString.strip e.object
  if env.lex.lower (PyString.strip e.predicate) ∈
      ["stated_memory", "raw_content", "documentation", "source_doc"] then none
  else if 6 < object.toList.count ' ' ∧
      ['.', ',', ';', '!', '?'].any (fun c => PyString.hasChar c e.object) then none
  else if env.isPiiEntity e.subject ∨ env.isPiiEntity e.predicate ∨ env.isPiiEntity e.object then
    none
  else if PyString.strip e.subject = object then none
  else if !grounded e.subject || !grounded e.object then none
  else some ⟨PyString.strip e.subject, PyString.strip e.predicate, object⟩

/-- `re.split(r"->|→|=>", text)`, of the reversed part before the position and the text from it. -/
def splitArrows : List Char → List Char → List (List Char)
  | part, [] => [part.reverse]
  | part, '-' :: '>' :: cs => part.reverse :: splitArrows [] cs
  | part, '=' :: '>' :: cs => part.reverse :: splitArrows [] cs
  | part, '→' :: cs => part.reverse :: splitArrows [] cs
  | part, c :: cs => splitArrows (c :: part) cs

def hasArrow (text : String) : Bool :=
  PyString.hasInfix "->" text || PyString.hasChar '→' text || PyString.hasInfix "=>" text

/-- `len(text.split())`. -/
def wordCount (text : String) : ℕ :=
  ((text.toList.splitOnP PyText.isPySpace).filter fun w => decide (w ≠ [])).length

def symbolicChain (text : String) : Option (List String) :=
  let parts := if hasArrow text then
      ((splitArrows [] text.toList).map fun p => PyString.strip (String.ofList p)).filter
        fun p => decide (p ≠ "")
    else []
  if 2 ≤ parts.length ∧ (PyString.strip text).length ≤ 160 ∧
      parts.all (fun p => 2 ≤ p.length && p.length ≤ 64 && wordCount p ≤ 6 &&
        !env.lex.isUnlettered p) then some parts
  else none

/-- The relations of a chain: from the subject to its head, and from part to part. -/
def chainEdges (sub : String) (parts : List String) : List Edge :=
  let links := (parts.zip parts.tail).map fun p => ⟨p.1, "leads_to", p.2⟩
  match parts with
  | first :: _ => if sub ≠ first then ⟨sub, "leads_to", first⟩ :: links else links
  | [] => links

/-- What `_auto_insert_graph_edges` does with a value: relations to commit in order, or the
extraction from prose. -/
inductive EdgePlan
  | relations (es : List Edge)
  | prose (sub text : String)

/-- The relations that a write stands for. -/
def edgePlan (key : String) (value : Json) (metadata : PyDict String Json) : EdgePlan :=
  let item (names : List String) := firstTruthy env (names.map metadata.get?)
  let sub := ((item ["subject"]).map env.rt.pyStr).getD key
  let pred := (item ["predicate", "relation"]).map env.rt.pyStr
  let obj := (item ["object", "target"]).map env.rt.pyStr
  let ofText (text : String) : EdgePlan :=
    let stripped := PyString.strip text
    match symbolicChain env text with
    | some parts => .relations (chainEdges sub parts)
    | none =>
      if PyString.startsWith text "test:" ∨
          (stripped.length < 64 ∧ PyString.hasChar ' ' stripped = false ∧
            PyString.hasChar ':' text) then
        .relations [⟨sub, "relates_to", stripped⟩]
      else if 25 ≤ stripped.length ∨ hasArrow stripped ∨
          [':', '(', ')'].any (fun c => PyString.hasChar c stripped) then .prose sub text
      else .relations []
  match value, pred, obj with
  | .obj members, _, _ => .relations (members.map fun m => ⟨sub, m.1, env.rt.pyStr m.2⟩)
  | _, some p, some o => .relations [⟨sub, p, o⟩]
  | .str text, some p, none =>
    let v := PyString.strip text
    if v ≠ "" ∧ PyString.hasChar ' ' v = false ∧ v.length ≤ 64 ∧ hasArrow v = false then
      .relations [⟨sub, p, v⟩]
    else .relations []
  | .str text, none, _ => ofText text
  | _, _, _ => .relations []

/-- The loop of `_commit_and_track`: the graph, the tracked relations in order, and the fault that
ended it. -/
def commitRelations (confidence : ℚ) :
    KnowledgeGraph → List Edge → KnowledgeGraph × List Edge × Option PyError
  | g, [] => (g, [], none)
  | g, e :: es =>
    match committed env e with
    | none => commitRelations confidence g es
    | some e' =>
      match env.relationFault e' with
      | some err => (g, [], some err)
      | none =>
        let (g', tracked, fault) := commitRelations confidence (g.addRelation e' confidence) es
        (g', e :: tracked, fault)

/-- `_auto_insert_graph_edges`: the graph, the tracked relations, and the number of relations. -/
def autoInsertGraphEdges (g : KnowledgeGraph) (key : String) (value : Json)
    (metadata : PyDict String Json) (confidence : ℚ) :
    KnowledgeGraph × List Edge × Except PyError ℕ :=
  let (g, tracked, outcome) : KnowledgeGraph × List Edge × Except PyError ℕ :=
    match edgePlan env key value metadata with
    | .relations es =>
      let (g', tracked, fault) := commitRelations env confidence g es
      (g', tracked, match fault with
        | some err => .error err
        | none => .ok tracked.length)
    | .prose sub text =>
      let (g', n) := env.extractRelations g sub text
      (g', [], .ok n)
  match outcome, env.indexPassage with
  | .error err, _ => (g, tracked, .error err)
  | .ok n, none => (g, tracked, .ok n)
  | .ok n, some index =>
    let text := PyString.strip (env.rt.pyStr value)
    if PyString.strip key = "" ∨ text = "" then (g, tracked, .ok n)
    else
      let (g', indexed) := index g (PyString.strip key) text metadata
      (g', tracked, indexed.map fun m => n + m)

/-! ## Compensation -/

def sagaTx : String := "saga_tx"

/-- What a write that passed the arbitration works with. -/
structure Accepted where
  key : String
  value : Json
  confidence : ℚ
  metadata : PyDict String Json
  reason : String
  items : PyDict String MemoryItem
  result : ArbitrationResult
  /-- The key that the belief revision supersedes, if there is one. -/
  oldKey : Option String

namespace Accepted

/-- `backup_old_item`, with its key. -/
def backupOldItem (a : Accepted) : Option (String × MemoryItem) :=
  a.oldKey.bind fun k => (a.items.get? k).map fun m => (k, m)

/-- `backup_hot_target`. -/
def backupHotTarget (a : Accepted) (hot : HotBuffer) : Option HotBufferEntry :=
  (hot.buffer.filter fun e => decide (e.key = a.key)).getLast?

/-- `backup_hot_superseded`. -/
def backupHotSuperseded (a : Accepted) (hot : HotBuffer) : Option HotBufferEntry :=
  (hot.buffer.filter fun e => decide (e.key ≠ a.key ∧ a.oldKey = some e.key)).getLast?

end Accepted

def restoreArgs (key : String) (m : MemoryItem) (reason : String) : SetArgs where
  key := key
  value := m.value
  confidence := some (.finite m.confidence)
  metadata := some m.metadata
  reason := reason

/-- Append a backup to the buffer, if there is one. -/
def restoreHot (hot : HotBuffer) : Option HotBufferEntry → HotBuffer
  | some e => hot.append e
  | none => hot

/-- The stores after the insertion of the vector has raised. -/
def compensateVector (before s : Stores ρ) (a : Accepted) (now : ℚ) : Stores ρ :=
  let kv := s.kv.call env.rt (.rollbackSavepoint sagaTx)
  { s with
    kv := match a.backupOldItem with
      | some (k, m) =>
        if s.kv.hasSavepoint sagaTx then
          kv.call env.rt (.setSync (restoreArgs k m "rollback_vector_failure") now)
        else kv
      | none => kv
    hot := restoreHot (restoreHot s.hot (a.backupHotSuperseded before.hot))
      (a.backupHotTarget before.hot) }

/-- The stores after the insertion of the graph edges has raised. -/
def compensateGraph (before s : Stores ρ) (a : Accepted) (tracked : List Edge) (now : ℚ) :
    Stores ρ :=
  let unlinked := tracked.foldl KnowledgeGraph.removeEdge s.graph
  let canon := VectorStore.normalizeUpsertKey a.key
  let kv := s.kv.call env.rt (.rollbackSavepoint sagaTx)
  { graph :=
      if env.indexPassage.isSome && unlinked.hasPassage a.key then
        unlinked.rollbackDualNodeRecord a.key
      else unlinked
    vectors :=
      [canon, "kv:" ++ canon].foldl VectorStore.deleteByUpsertKey s.vectors
    kv := match a.backupOldItem with
      | some (k, m) =>
        if k ≠ a.key then kv.call env.rt (.setSync (restoreArgs k m "rollback_restore") now)
        else kv
      | none => kv
    hot := restoreHot (restoreHot (s.hot.purge a.key) (a.backupHotTarget before.hot))
      (a.backupHotSuperseded before.hot) }

/-! ## The write -/

/-- The response of a write that went through. -/
def okResponse (a : Accepted) (edgesAdded : ℕ) : WriteResponse where
  status := "ok"
  key := a.key
  persisted := true
  action := if a.result.isBeliefRevision then some "belief_revision" else none
  supersededKey := if a.result.isBeliefRevision then a.result.supersededKey else none
  isBeliefRevision := a.result.isBeliefRevision
  revisionCount := a.metadata.get? "revision_count"
  warning :=
    if a.result.isConflict && !a.result.isBeliefRevision then some "epistemic_conflict" else none
  conflictDetails :=
    if a.result.isConflict && !a.result.isBeliefRevision then a.result.conflictDetails else none
  edgesAdded := edgesAdded

/-- From the buffer to the release of the savepoint; an entry of the buffer has a text as its source
type, or its validation raises. -/
def finish (before s : Stores ρ) (a : Accepted) (times : WriteTimes) :
    Stores ρ × Except PyError WriteResponse :=
  match (a.metadata.get? "source_type").getD (.str "user_explicit") with
  | .str sourceType =>
    let hot :=
      s.hot.update env.rt a.key a.value a.confidence a.metadata sourceType times.buffered
    let (graph, tracked, inserted) :=
      autoInsertGraphEdges env s.graph a.key a.value a.metadata a.confidence
    let linked := { s with hot := hot, graph := graph }
    match inserted with
    | .error err => (compensateGraph env before linked a tracked times.restored, .error err)
    | .ok n =>
      ({ linked with kv := linked.kv.call env.rt (.releaseSavepoint sagaTx) },
        .ok (okResponse a n))
  | _ => (s, .error ⟨.valueError, "1 validation error for HotBufferEntry"⟩)

def persistArgs (a : Accepted) : SetArgs where
  key := a.key
  value := a.value
  confidence := some (.finite a.confidence)
  metadata := some a.metadata
  reason := a.reason

/-- The point that is inserted for a vector. -/
def vectorPoint (a : Accepted) (record : ρ) : VectorPoint ρ where
  upsertKey := VectorStore.normalizeUpsertKey a.key
  text := match a.value with
    | .str t => t
    | v => env.rawText v
  record := record

def persist (before s : Stores ρ) (a : Accepted) (record : Option ρ) (times : WriteTimes) :
    Stores ρ × Except PyError WriteResponse :=
  let saved := { s with
    kv := (s.kv.call env.rt (.savepoint sagaTx)).call env.rt
      (.setSync (persistArgs a) times.persisted) }
  match record with
  | none => finish env before saved a times
  | some r =>
    let point := vectorPoint env a r
    match env.vectorFault point with
    | some err => (compensateVector env before saved a times.restored, .error err)
    | none =>
      let points := VectorStore.insert saved.vectors point.upsertKey point.text point.record
      finish env before { saved with vectors := points } a times

/-- From the belief revision to the revision tracking; `none` in the place of the write when the
counter of the record is no number. -/
def revise (s : Stores ρ) (key : String) (value : Json) (confidence : ℚ)
    (metadata : PyDict String Json) (reason : String) (items : PyDict String MemoryItem)
    (result : ArbitrationResult) (now : ℚ) : Stores ρ × Option Accepted :=
  let oldKey := if result.isBeliefRevision then some (supersededKey env key metadata result) else none
  let (revised, metadata) := match oldKey with
    | some k =>
      let (revised, purged) := reviseBelief env s items k key confidence now
      (revised, revisionMetadata k purged metadata)
    | none => (s, metadata)
  let accepted (metadata : PyDict String Json) : Accepted :=
    ⟨key, value, confidence, metadata, reason, items, result, oldKey⟩
  match valueRevised env items key value with
  | none => (revised, some (accepted metadata))
  | some prior =>
    match trackedMetadata env prior metadata with
    | none => (revised, none)
    | some metadata =>
      ({ revised with
        graph := wireRelations env revised.graph confidence
          (transitionEdges env key prior.value value) }, some (accepted metadata))

def rejected (key action warning : String) (reason : Option String)
    (details : Option (PyDict String Json)) : WriteResponse where
  status := "rejected"
  key := key
  persisted := false
  action := some action
  warning := some warning
  reason := reason
  conflictDetails := details

def writeArbitrated (s : Stores ρ) (req : WriteRequest ρ) (key : String) (value : Json)
    (metadata : PyDict String Json) (confidence : ℚ) (times : WriteTimes) :
    Stores ρ × Except PyError WriteResponse :=
  let items := existingItems env s key value metadata req.sessionId times.scanned
  match env.arbiter.arbitrate env.rt env.lex ⟨key, value, confidence, metadata⟩
      (arbiterItems items) with
  | .error err => (s, .error err)
  | .ok result =>
    if rejects result then
      (s, .ok (rejected key "reject_conflict" "epistemic_conflict" none result.conflictDetails))
    else
      match revise env s key value confidence (warnedMetadata result metadata) req.reason items result
          times.revised with
      | (revised, none) =>
        (revised, .error ⟨.valueError, "invalid literal for int()"⟩)
      | (revised, some a) => persist env s revised a req.vectorRecord times

/-- `write`. -/
def write (s : Stores ρ) (req : WriteRequest ρ) (times : WriteTimes) :
    Stores ρ × Except PyError WriteResponse :=
  match normalizeWriteInput env req with
  | .error err => (s, .error err)
  | .ok input =>
    if env.isConversationalTurn input.key (input.metadata.get? "predicate") input.value then
      (s, .ok (rejected input.key "reject_conversational_turn" "speech_act_gate"
        (some "conversational_turn_barrier") none))
    else
      let stamped :=
        if input.metadata.contains "speech_act" then input.metadata
        else input.metadata.set "speech_act" (.str "epistemic_assertion")
      let (grounded, reason) :=
        Grounding.isLexicallyGroundedEntity env.rt env.lex input.key input.value stamped
      if !grounded then
        (s, .ok (rejected input.key "reject_ungrounded" "lexical_grounding_failed" (some reason)
          none))
      else
        let confidence := PyFloat.clampUnit (some input.confidence)
        if (req.replay || input.replayAt.isSome) && env.indexPassage.isSome &&
            s.graph.hasPassage input.key then
          let touched : SetArgs :=
            ⟨input.key, input.value, some (.finite confidence), some stamped, "replay_no_op", none⟩
          ({ s with kv := s.kv.call env.rt (.setSync touched times.persisted) },
            .ok { status := "ok", key := input.key, persisted := true, noOp := true,
                  reason := some "replay_no_op" })
        else
          writeArbitrated env s req input.key input.value (stampedMetadata env req stamped confidence)
            confidence times

end WritePath

/-- An environment for evaluating the model: a question is a turn of the conversation, the
full-text index and the extraction from prose find nothing, and no insertion raises. -/
def sampleWriteEnv : WriteEnv Unit where
  rt := Runtime.sample
  lex := sampleLexicon
  arbiter := {}
  isConversationalTurn _ _ v := match v with
    | .str t => PyString.hasChar '?' t
    | _ => false
  ftsMatches _ _ _ := []
  isPiiEntity _ := false
  toInt v := match v with
    | .number n => some ((n.text.toList.takeWhile isDigit).foldl
        (fun acc c => 10 * acc + (c.toNat - 48)) 0)
    | _ => none
  rawText := Json.dumps
  extractRelations g _ _ := (g, 0)
  indexPassage := none
  relationFault _ := none
  vectorFault _ := none
  purgeFault _ := none

def failingWrite : WriteRequest Unit where
  key := .str "user:b"
  value := .str "y"
  vectorRecord := some ()

/-- An environment in which no vector is inserted. -/
def faultyWriteEnv : WriteEnv Unit :=
  { sampleWriteEnv with vectorFault := fun _ => some ⟨.runtimeError, "insert failed"⟩ }

def emptyStores : Stores Unit := ⟨VerifiedKVStore.init, ⟨25, 900, []⟩, [], ⟨∅, ∅⟩⟩

/-- A clock that stands still during a call. -/
def timesAt (now : ℚ) : WriteTimes := ⟨now, now, now, now, now⟩

lemma normalizeWriteInput_sample {req : WriteRequest Unit} {key : String}
    (hkey : req.key = .str key) (hstrip : PyString.strip key = key) (hne : key ≠ "")
    (hreplay : req.replayAt = none) :
    WritePath.normalizeWriteInput sampleWriteEnv req =
      .ok ⟨key, req.value, req.confidence, req.metadata.getD ∅, none⟩ := by
  have htext : PyString.strip (if sampleWriteEnv.rt.truthy (.str key) then
      sampleWriteEnv.rt.pyStr (.str key) else "") = key := by
    have htruthy : sampleWriteEnv.rt.truthy (.str key) = true := decide_eq_true hne
    rw [if_pos htruthy]
    exact hstrip
  unfold WritePath.normalizeWriteInput
  rw [hkey]
  dsimp only
  rw [htext, if_neg hne, hreplay]

end AtlasMemory
