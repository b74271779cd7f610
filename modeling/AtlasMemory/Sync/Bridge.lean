import AtlasMemory.L2Semantic.KvStore
import AtlasMemory.Sync.Crdt

/-!
# The state sync bridge

The model of `StateSyncBridge` with a store and without a write path, so that remote values are
written by `set_sync` directly: the export of a batch of audit rows as a delta, and the application
of a received delta with its three gates (staleness by vector clock, empty keys, and the
information potential against the stored row).

A received delta is the dictionary that an export produced, or one of the same shape; its numbers
are numbers.  Every mutation that is written reads the clock of the host once, and the readings
are an input of the application.
-/

namespace AtlasMemory

/-! ## Deltas -/

/-- A mutation record of a delta. -/
structure Mutation where
  seq : ℤ
  key : String
  value : Option String
  confidence : Option PyFloat
  precision : Option PyFloat
  metadata : Option (PyDict String Json)
  reason : Option String
  timestamp : Option PyFloat

/-- The dictionary that `export_delta_from_audit` returns. -/
structure Delta where
  sourceNode : String
  vectorClock : PyDict String ℤ
  maxSeq : ℤ
  mutations : List Mutation

def AuditRow.toMutation (r : AuditRow) : Mutation where
  seq := r.seq
  key := r.key
  value := r.newValue
  confidence := some (r.confidence.getD (.finite 1))
  precision := none
  metadata := none
  reason := some (r.reason.getD "sync")
  timestamp := some r.timestamp

/-- `CompactVectorClock.model_validate` of a dictionary of counters; a counter under the name
`clocks` is taken for the dictionary itself, and is none. -/
def CompactVectorClock.modelValidate (data : PyDict String ℤ) : CompactVectorClock :=
  if data.contains "clocks" then ⟨∅⟩ else ⟨data⟩

namespace Mutation

/-- `incoming_prec`: the item, unless the metadata carry one that converts. -/
def incomingPrecision (rt : Runtime) (m : Mutation) : PyFloat :=
  let given := m.precision.getD (.finite 1)
  match m.metadata.bind (·.get? "precision") with
  | some v => (rt.floatOfJson v).getD given
  | none => given

/-- `incoming_conf`. -/
def incomingConfidence (m : Mutation) : PyFloat := m.confidence.getD (.finite (9 / 10))

/-- `incoming_lambda`. -/
def incomingLambda (rt : Runtime) (m : Mutation) : PyFloat :=
  (m.incomingPrecision rt).mul m.incomingConfidence

/-- `is_deleted`. -/
def isDeleted (m : Mutation) : Bool :=
  decide (m.value = some deletedMarkerJson) || decide (m.value = some deletedMarker) ||
    decide (m.reason = some "delete") || decide (m.reason = some "agent_delete")

/-- The key under which the mutation is applied. -/
def appliedKey (m : Mutation) : String := PyString.strip m.key

/-- The decoded value: JSON where it is JSON, else the text. -/
def decodedValue (m : Mutation) : Json :=
  match m.value with
  | none => .null
  | some raw => (Json.loads (PyText.ofString raw)).getD (.str raw)

end Mutation

/-- `local_lambda` of a stored row. -/
def StateDict.localLambda (rt : Runtime) (d : StateDict) : PyFloat :=
  let localPrec := match d.metadata.get? "precision" with
    | some v => (rt.floatOfJson v).getD (.finite 1)
    | none => .finite 1
  localPrec.mul (.finite d.confidence)

/-! ## Applying a mutation -/

def splitColon : List Char → List Char × Option (List Char)
  | [] => ([], none)
  | c :: cs =>
    if c = ':' then ([], some cs)
    else
      let (before, after) := splitColon cs
      (c :: before, after)

/-- The graph labels that a key and the text of its value stand for: subject, predicate and
object. -/
def tripleOf (key valText : String) : String × String × String :=
  match splitColon key.toList with
  | (_, none) => (key, "has_state", valText)
  | (sub, some rest) =>
    match splitColon rest with
    | (pred, none) => (String.ofList sub, String.ofList pred, valText)
    | (pred, some obj) => (String.ofList sub, String.ofList pred,
        if valText = "" then String.ofList obj else valText)

def replicaMetadata (rt : Runtime) (sourceNode key valText : String) (precision : PyFloat) :
    PyDict String Json :=
  let (sub, pred, obj) := tripleOf key valText
  PyDict.ofEntries [("source_type", .str "peer_replication"),
    ("origin", .str ("sync_" ++ sourceNode)), ("subject", .str sub), ("predicate", .str pred),
    ("object", .str obj), ("kv_key", .str key), ("precision", rt.jsonFloat precision)]

/-- The potential gate rejects the mutation: its potential is below that of the stored row by more
than the tolerance. -/
def gateRejects (rt : Runtime) (existing : Option StateDict) (m : Mutation) : Bool :=
  match existing with
  | none => false
  | some d => (m.incomingLambda rt).lt ((d.localLambda rt).subRat lambdaTolerance)

/-- The arguments of `set_sync` for a mutation that is no deletion. -/
def Mutation.setArgs (rt : Runtime) (sourceNode : String) (m : Mutation) : SetArgs where
  key := m.appliedKey
  value := m.decodedValue
  confidence := some m.incomingConfidence
  metadata := some (replicaMetadata rt sourceNode m.appliedKey (rt.pyStr m.decodedValue)
    (m.incomingPrecision rt))
  reason := "sync_from_" ++ sourceNode

/-- One round of the mutation loop, at time `now`: the store, and whether the mutation counts as
applied. -/
def applyMutation (rt : Runtime) (sourceNode : String) (kv : VerifiedKVStore) (m : Mutation)
    (now : ℚ) : VerifiedKVStore × Bool :=
  if m.appliedKey = "" then (kv, false)
  else if gateRejects rt (kv.db.stateVariables.getState rt m.appliedKey) m then (kv, false)
  else if m.isDeleted then (kv.call rt (.deleteSync m.appliedKey now), true)
  else (kv.call rt (.setSync (m.setArgs rt sourceNode) now), true)

/-- The mutation loop; the readings of the clock are numbered by the rounds. -/
def applyMutations (rt : Runtime) (sourceNode : String) (kv : VerifiedKVStore) :
    List Mutation → (ℕ → ℚ) → VerifiedKVStore × ℕ
  | [], _ => (kv, 0)
  | m :: ms, times =>
    let (kv', applied) := applyMutation rt sourceNode kv m (times 0)
    let (kv'', n) := applyMutations rt sourceNode kv' ms fun i => times (i + 1)
    (kv'', n + if applied then 1 else 0)

/-- A write or a deletion of the mutation loop. -/
def ReplicaCall : KvCall → Prop
  | .setSync _ _ | .deleteSync _ _ => True
  | _ => False

lemma applyMutation_cases (rt : Runtime) (sourceNode : String) (kv : VerifiedKVStore)
    (m : Mutation) (now : ℚ) :
    (applyMutation rt sourceNode kv m now).1 = kv ∨
      ∃ c, ReplicaCall c ∧ (applyMutation rt sourceNode kv m now).1 = kv.call rt c := by
  unfold applyMutation
  split_ifs
  · exact Or.inl rfl
  · exact Or.inl rfl
  · exact Or.inr ⟨.deleteSync m.appliedKey now, trivial, rfl⟩
  · exact Or.inr ⟨.setSync (m.setArgs rt sourceNode) now, trivial, rfl⟩

lemma fst_applyMutations_cons (rt : Runtime) (sourceNode : String) (kv : VerifiedKVStore)
    (m : Mutation) (ms : List Mutation) (times : ℕ → ℚ) :
    (applyMutations rt sourceNode kv (m :: ms) times).1 =
      (applyMutations rt sourceNode (applyMutation rt sourceNode kv m (times 0)).1 ms
        fun i => times (i + 1)).1 := by
  rw [applyMutations]

/-- To the store, the loop is a sequence of writes and deletions. -/
lemma exists_run_applyMutations (rt : Runtime) (sourceNode : String) (kv : VerifiedKVStore)
    (ms : List Mutation) (times : ℕ → ℚ) :
    ∃ calls : List KvCall, (∀ c ∈ calls, ReplicaCall c) ∧
      (applyMutations rt sourceNode kv ms times).1 = kv.run rt calls := by
  induction ms generalizing kv times with
  | nil => exact ⟨[], by simp, rfl⟩
  | cons m ms ih =>
      obtain ⟨calls, hcalls, hrun⟩ := ih (applyMutation rt sourceNode kv m (times 0)).1
        fun i => times (i + 1)
      rw [fst_applyMutations_cons]
      rcases applyMutation_cases rt sourceNode kv m (times 0) with hsame | ⟨c, hc, hcall⟩
      · exact ⟨calls, hcalls, by rw [hrun, hsame]⟩
      · exact ⟨c :: calls, List.forall_mem_cons.mpr ⟨hc, hcalls⟩, by
          rw [hrun, hcall, VerifiedKVStore.run_cons]⟩

/-! ## The bridge -/

/-- `StateSyncBridge`. -/
structure StateSyncBridge where
  kv : VerifiedKVStore
  nodeId : String
  clock : CompactVectorClock

namespace StateSyncBridge

def init (kv : VerifiedKVStore) (nodeId : String) : StateSyncBridge :=
  ⟨kv, nodeId, .single nodeId 0⟩

/-- `_query_audit_rows`. -/
def queryAuditRows (b : StateSyncBridge) (sinceSeq : ℤ) (limit : ℕ) : List AuditRow :=
  (b.kv.db.auditLog.rows.filter fun r => decide (sinceSeq < r.seq)).take limit

/-- A batch is a stretch of the log: a row after `since_seq` that is not beyond a row of the batch
is in the batch. -/
lemma mem_queryAuditRows_of_le {b : StateSyncBridge} {sinceSeq : ℤ} {limit : ℕ} {r r' : AuditRow}
    (hr : r ∈ b.kv.db.auditLog.rows) (hsince : sinceSeq < r.seq)
    (hr' : r' ∈ b.queryAuditRows sinceSeq limit) (hle : r.seq ≤ r'.seq) :
    r ∈ b.queryAuditRows sinceSeq limit := by
  set eligible := b.kv.db.auditLog.rows.filter fun r => decide (sinceSeq < r.seq) with heligible
  have hmem : r ∈ eligible := List.mem_filter.mpr ⟨hr, decide_eq_true hsince⟩
  have hsorted : eligible.Pairwise fun r r' => r.seq < r'.seq :=
    (List.pairwise_map.mp b.kv.db.auditLog.sorted).sublist List.filter_sublist
  rw [← List.take_append_drop limit eligible] at hmem hsorted
  rcases List.mem_append.mp hmem with hin | hout
  · exact hin
  · have hlt := (List.pairwise_append.mp hsorted).2.2 r' hr' r hout
    omega

lemma mem_rows_of_mem_queryAuditRows {b : StateSyncBridge} {sinceSeq : ℤ} {limit : ℕ}
    {r : AuditRow} (hr : r ∈ b.queryAuditRows sinceSeq limit) : r ∈ b.kv.db.auditLog.rows :=
  List.mem_of_mem_filter (List.mem_of_mem_take hr)

/-- `safe_limit`. -/
def safeLimit (limit : ℤ) : ℕ := (max 1 (min limit 1000)).toNat

/-- The largest sequence number of the rows and `since_seq`. -/
def maxSeqOf (sinceSeq : ℤ) (rows : List AuditRow) : ℤ :=
  rows.foldl (fun maxSeq r => if maxSeq < r.seq then r.seq else maxSeq) sinceSeq

lemma le_maxSeqOf_iff {sinceSeq n : ℤ} {rows : List AuditRow} :
    n ≤ maxSeqOf sinceSeq rows ↔ n ≤ sinceSeq ∨ ∃ r ∈ rows, n ≤ r.seq := by
  rw [maxSeqOf]
  induction rows generalizing sinceSeq with
  | nil => simp
  | cons r rs ih =>
      rw [List.foldl_cons, ih, List.exists_mem_cons_iff]
      split_ifs with hlt
      · constructor
        · rintro (h | h)
          · exact Or.inr (Or.inl h)
          · exact Or.inr (Or.inr h)
        · rintro (h | h | h)
          · exact Or.inl (h.trans hlt.le)
          · exact Or.inl h
          · exact Or.inr h
      · constructor
        · rintro (h | h)
          · exact Or.inl h
          · exact Or.inr (Or.inr h)
        · rintro (h | h | h)
          · exact Or.inl h
          · exact Or.inl (h.trans (not_lt.mp hlt))
          · exact Or.inr h

/-- `export_delta_from_audit`: the bridge, whose own counter has grown, and the delta. -/
def exportDeltaFromAudit (b : StateSyncBridge) (sinceSeq limit : ℤ) : StateSyncBridge × Delta :=
  let rows := b.queryAuditRows sinceSeq (safeLimit limit)
  let clock := b.clock.increment b.nodeId
  ({ b with clock },
    { sourceNode := b.nodeId
      vectorClock := clock.clocks
      maxSeq := maxSeqOf sinceSeq rows
      mutations := rows.map AuditRow.toMutation })

/-- `dominates`: the own clock covers every counter of a clock that has counters. -/
def isStale (own peer : CompactVectorClock) : Bool :=
  !peer.clocks.entries.isEmpty && peer.clocks.entries.all fun e => decide (e.2 ≤ own.get e.1)

/-- The clock of a received delta, unless it has none. -/
def peerClock (d : Delta) : Option CompactVectorClock :=
  if d.vectorClock.entries.isEmpty then none
  else some (CompactVectorClock.modelValidate d.vectorClock)

def rejectsAsStale (b : StateSyncBridge) (d : Delta) : Bool :=
  match peerClock d with
  | some peer => isStale b.clock peer
  | none => false

/-- `apply_remote_delta`: the bridge, and the number of applied mutations. -/
def applyRemoteDelta (rt : Runtime) (b : StateSyncBridge) (d : Delta) (times : ℕ → ℚ) :
    StateSyncBridge × ℕ :=
  if b.rejectsAsStale d then (b, 0)
  else
    let (kv, n) := applyMutations rt d.sourceNode b.kv d.mutations times
    let clock := match peerClock d with
      | some peer => b.clock.receive peer b.nodeId
      | none => b.clock
    ({ b with kv, clock }, n)

/-- A local call of the store under the bridge. -/
def localCall (rt : Runtime) (b : StateSyncBridge) (c : KvCall) : StateSyncBridge :=
  { b with kv := b.kv.call rt c }

end StateSyncBridge

end AtlasMemory
