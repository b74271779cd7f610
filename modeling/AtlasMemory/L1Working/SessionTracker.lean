import AtlasMemory.Cognitive.EpistemicKernel
import AtlasMemory.Foundations.GuardedRuns
import AtlasMemory.L1Working.HotBuffer
import AtlasMemory.L2Semantic.VectorStore
import AtlasMemory.L3Procedural.SleepCycle

/-!
# The reconciliation of working memory

The model of `_reconcile_l1_to_l2`: after the sleep cycle of a session the keys that are taken for
superseded are evicted from the hot buffer and the vector store, and their graph nodes are marked.
The keys come from three sources: the records of the state table, the history of the hot buffer,
and the entries of the buffer that carry a mark.

What runs between two reconciliations is a sequence of writes to the single stores, in any order:
a call of the write path, of the consolidator or of a controller is such a sequence.  A
reconciliation itself is one step.  The sets of sessions in the metadata of an entry are arrays
without repetitions.
-/

namespace AtlasMemory

/-! ## Points that belong to two keys -/

namespace VectorStore

/-- The upsert keys that a deletion under the key looks for. -/
def targetKeys (key : String) : List String :=
  [normalizeUpsertKey key, "kv:" ++ normalizeUpsertKey key, key]

/-- A point with the upsert key belongs to the key. -/
def ownsPoint (key upsertKey : String) : Bool :=
  belongsTo key (⟨upsertKey, "", ()⟩ : VectorPoint Unit)

def sharePoints (k k' : String) : Bool :=
  (decide (normalizeUpsertKey k = normalizeUpsertKey k') && decide (normalizeUpsertKey k ≠ "")) ||
    (targetKeys k).any (ownsPoint k') || (targetKeys k').any (ownsPoint k)

lemma belongsTo_iff_target {ρ : Type} {key : String} {p : VectorPoint ρ} :
    belongsTo key p = true ↔ p.upsertKey ∈ targetKeys key ∨
      normalizeUpsertKey p.upsertKey ≠ "" ∧
        normalizeUpsertKey p.upsertKey = normalizeUpsertKey key := by
  simp [belongsTo, targetKeys]

lemma sharePoints_of_belongsTo {ρ : Type} {k k' : String} {p : VectorPoint ρ}
    (h : belongsTo k p = true) (h' : belongsTo k' p = true) : sharePoints k k' = true := by
  unfold sharePoints
  rw [Bool.or_eq_true, Bool.or_eq_true, List.any_eq_true, List.any_eq_true]
  rcases belongsTo_iff_target.mp h with hk | ⟨hne, hk⟩
  · exact Or.inl (Or.inr ⟨p.upsertKey, hk, h'⟩)
  · rcases belongsTo_iff_target.mp h' with hk' | ⟨-, hk'⟩
    · exact Or.inr ⟨p.upsertKey, hk', h⟩
    · refine Or.inl (Or.inl ?_)
      rw [Bool.and_eq_true, decide_eq_true_iff, decide_eq_true_iff, ← hk, ← hk']
      exact ⟨rfl, hne⟩

/-- What a deletion takes away belongs to one of the keys. -/
lemma exists_of_not_mem_deleteAll {ρ : Type} {points : List (VectorPoint ρ)} {keys : List String}
    {p : VectorPoint ρ} (hp : p ∈ points) (hgone : p ∉ deleteAll points keys) :
    ∃ k ∈ keys, belongsTo k p = true := by
  rw [deleteAll_eq_filter, List.mem_filter] at hgone
  have hsurvives : ¬ survives keys p = true := fun h => hgone ⟨hp, h⟩
  rw [survives, List.all_eq_true] at hsurvives
  push Not at hsurvives
  obtain ⟨k, hk, h⟩ := hsurvives
  rw [ne_eq, Bool.or_eq_true, not_or] at h
  exact ⟨k, hk, by simpa using h.2⟩

end VectorStore

/-! ## The hot buffer with its history -/

/-- `HotBufferPolicy` with `superseded_history`. -/
structure WorkingMemory where
  hot : HotBuffer
  supersededHistory : List String

namespace WorkingMemory

variable (rt : Runtime) (lex : Lexicon)

/-- The entry or its metadata carry the mark. -/
def marked (e : HotBufferEntry) : Bool :=
  e.isSuperseded || rt.truthy ((e.metadata.get? "is_superseded").getD .null)

def remember (m : WorkingMemory) (key : String) : WorkingMemory :=
  { m with supersededHistory := key :: m.supersededHistory }

/-- `append`. -/
def append (m : WorkingMemory) (e : HotBufferEntry) : WorkingMemory :=
  let m := if e.isSuperseded then m.remember e.key else m
  { m with hot := m.hot.append e }

/-- `update`. -/
def update (m : WorkingMemory) (key : String) (value : Json) (confidence : ℚ)
    (metadata : PyDict String Json) (sourceType : String) (now : ℚ) : WorkingMemory :=
  let isSup := rt.truthy ((metadata.get? "is_superseded").getD .null)
  let m := if isSup then m.remember key else m
  { m with hot := m.hot.update rt key value confidence metadata sourceType now }

/-- `purge`. -/
def purge (m : WorkingMemory) (key : String) : WorkingMemory :=
  { m with hot := m.hot.purge key }

/-- `mark_superseded`: the marked entries are purged at once. -/
def markSuperseded (m : WorkingMemory) (key : String) : WorkingMemory := (m.remember key).purge key

/-- `reconcile_superseded`. -/
def reconcileSuperseded (m : WorkingMemory) (keys : List String) : WorkingMemory :=
  keys.foldl (fun m k => if k = "" then m else m.markSuperseded k) m

/-- `clear`. -/
def clear (m : WorkingMemory) : WorkingMemory := ⟨{ m.hot with buffer := [] }, []⟩

/-- `session_id in consolidated_sessions`. -/
def consolidatedIn (session : String) : Json → Bool
  | .arr sessions => sessions.any fun v => match v with
    | .str s => decide (s = session)
    | _ => false
  | .obj members => members.any fun m => decide (m.1 = session)
  | .str text => PyString.hasInfix session text
  | _ => false

/-- The entry is not consolidated for the session yet. -/
def unconsolidated (session : String) (metadata : PyDict String Json) : Bool :=
  match metadata.get? "l2_consolidated_sessions" with
  | some .null | none => !rt.truthy ((metadata.get? "l2_consolidated").getD .null)
  | some sessions => !(decide (session ≠ "") && consolidatedIn session sessions)

/-- The entry is the session's, by its metadata or its key, or an unassigned one. -/
def ofSession (session : String) (e : HotBufferEntry) : Bool :=
  let item (name : String) := (e.metadata.get? name).filter rt.truthy
  let rawSess := (((item "session_id").or (item "source_session_id")).map rt.pyStr).getD ""
  let effSess := (HotBuffer.extractEffectiveSession rt lex e.key e.metadata).getD ""
  decide (rawSess = session ∨ effSess = session) ||
    (decide (session ≠ "idle_sess") &&
      !rt.truthy ((e.metadata.get? "seeded_from_kv").getD .null) &&
      decide (rawSess = "" ∨ rawSess = "default" ∨ rawSess = HotBuffer.defaultSession ∨
        rawSess = HotBuffer.globalSession))

/-- The entry is one of `get_session_entries`. -/
def isSessionEntry (session : String) (e : HotBufferEntry) : Bool :=
  !marked rt e && unconsolidated rt session e.metadata &&
    (decide (session = "") || ofSession rt lex session e)

/-- The metadata of an entry that is consolidated for the session. -/
def consolidate (session : String) (e : HotBufferEntry) : HotBufferEntry :=
  let known := match e.metadata.get? "l2_consolidated_sessions" with
    | some (.arr sessions) => sessions
    | _ => []
  let sessions :=
    if session = "" || consolidatedIn session (.arr known) then known else known ++ [.str session]
  let listed := e.metadata.set "l2_consolidated_sessions" (.arr sessions)
  { e with metadata := listed.set "l2_consolidated" (.bool true) }

/-- What the loop over the entries of the session does to an entry: one of no superseded key is
consolidated. -/
def promoteEntry (session : String) (superseded : List String) (e : HotBufferEntry) :
    HotBufferEntry :=
  if isSessionEntry rt lex session e && decide (e.key ∉ superseded) then consolidate session e
  else e

/-- The loop over the entries of the session. -/
def promote (m : WorkingMemory) (session : String) (superseded : List String) : WorkingMemory :=
  let buffer := m.hot.buffer.map (promoteEntry rt lex session superseded)
  { m with hot := { m.hot with buffer := buffer } }

end WorkingMemory

/-! ## The stores and their steps -/

def StateRow.isSuperseded (rt : Runtime) (row : StateRow) : Bool :=
  rt.truthy ((row.decodedMetadata.get? "is_superseded").getD .null)

namespace SessionTracker

/-- The stores that a reconciliation reads and writes: the state table, working memory, the points,
and the nodes of the graph with their mark. -/
structure Stores (ρ : Type) where
  kv : StateTable
  memory : WorkingMemory
  points : List (VectorPoint ρ)
  nodes : PyDict String Bool

variable (rt : Runtime) (lex : Lexicon) {ρ : Type}

/-- The parameters of `VerifiedKVStore.set_state`. -/
def setStateParameters : List String := ["key", "value", "confidence", "metadata", "reason", "ttl"]

/-- The keywords with which the reconciliation calls it. -/
def markKeywords : List String := ["key", "value", "metadata", "source_type"]

/-- The attempt to mark the record of a superseded key.  A call with a keyword that is no parameter
raises, and the exception is logged. -/
def markRecord (now : ℚ) (kv : StateTable) (key : String) : StateTable :=
  match kv.lookup key with
  | none => kv
  | some e =>
    let row := e.2
    if row.isSuperseded rt then kv
    else if markKeywords.all (· ∈ setStateParameters) then
      let text := row.decodedValue.dumps
      let metadata := (row.decodedMetadata.set "is_superseded" (.bool true)).set "superseded_at"
        (rt.jsonFloat (.finite now))
      kv.setState key text 1 now (Json.obj metadata.entries).dumps (rt.hexdigest text)
    else kv

/-- The keys of the marked records that were touched or have the entity root of a touched key. -/
def supersededInKv (kv : StateTable) (touched : List String) : List String :=
  let roots := (touched.map (entityRoot lex)).filter (· ≠ "")
  let records := if touched.isEmpty then [] else kv.getAll 1000
  (records.filter fun e => e.2.isSuperseded rt &&
    decide (e.1 ∈ touched ∨ entityRoot lex e.1 ∈ roots)).map Prod.fst

/-- `superseded_keys`. -/
def supersededKeys (s : Stores ρ) (touched : List String) : List String :=
  supersededInKv rt lex s.kv touched ++ s.memory.supersededHistory ++
    (s.memory.hot.buffer.filter (WorkingMemory.marked rt)).map HotBufferEntry.key

def markNode (nodes : PyDict String Bool) (key : String) : PyDict String Bool :=
  if nodes.contains key then nodes.set key true else nodes

/-- `_reconcile_l1_to_l2`. -/
def reconcile (now : ℚ) (session : String) (touched : List String) (s : Stores ρ) : Stores ρ :=
  let superseded := supersededKeys rt lex s touched
  let memory := s.memory.reconcileSuperseded superseded
  { kv := superseded.foldl (markRecord rt now) s.kv
    memory := memory.promote rt lex session superseded
    points := VectorStore.deleteAll s.points superseded
    nodes := superseded.foldl markNode s.nodes }

/-- A step of a run: a write to one of the stores, or a reconciliation. -/
inductive Event (ρ : Type)
  /-- A statement that writes a row. -/
  | setState (key : String) (row : StateRow)
  | deleteState (key : String)
  | append (e : HotBufferEntry)
  | update (key : String) (value : Json) (confidence : ℚ) (metadata : PyDict String Json)
    (sourceType : String) (now : ℚ)
  | purge (key : String)
  | markSuperseded (key : String)
  | clear
  | insertPoint (key text : String) (record : ρ)
  | deletePoints (key : String)
  | addNode (key : String) (isSuperseded : Bool)
  | removeNode (key : String)
  | reconcile (now : ℚ) (session : String) (touched : List String)

def step (s : Stores ρ) : Event ρ → Stores ρ
  | .setState key row => { s with kv := s.kv.set key row }
  | .deleteState key => { s with kv := s.kv.erase key }
  | .append e => { s with memory := s.memory.append e }
  | .update key value confidence metadata sourceType now =>
    { s with memory := s.memory.update rt key value confidence metadata sourceType now }
  | .purge key => { s with memory := s.memory.purge key }
  | .markSuperseded key => { s with memory := s.memory.markSuperseded key }
  | .clear => { s with memory := s.memory.clear }
  | .insertPoint key text record =>
    { s with points := VectorStore.insert s.points key text record }
  | .deletePoints key => { s with points := VectorStore.deleteByUpsertKey s.points key }
  | .addNode key isSuperseded => { s with nodes := s.nodes.set key isSuperseded }
  | .removeNode key => { s with nodes := s.nodes.erase key }
  | .reconcile now session touched => reconcile rt lex now session touched s

def initial (maxlen : ℕ) (ttlSeconds : ℚ) : Stores ρ :=
  ⟨∅, ⟨⟨maxlen, ttlSeconds, []⟩, []⟩, [], ∅⟩

end SessionTracker

end AtlasMemory
