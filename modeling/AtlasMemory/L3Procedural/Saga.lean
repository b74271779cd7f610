import AtlasMemory.L2Semantic.KuzuGraph
import AtlasMemory.L2Semantic.KvStore
import AtlasMemory.L2Semantic.VectorStore

/-!
# The saga

The model of `TransactionalDeltaTensor` and of `recover_dangling_transactions` of the auditor: an
insertion of a record into the graph, the store and the vectors, with an intent in a log of its own
and with a compensation where a step raises.

What the calls of one insertion do to the stores is a list of effects, `effects`, in the order in which
they happen, so that the process can stop after any number of them.  A call may raise; it then leaves
its store as it was, except that `set_state` may raise between its two statements, when the row is
written and the log is not.  The calls of a compensation succeed.  The vectors are those of a store
that takes a key, so that the second call of `insert` is not made.
-/

namespace AtlasMemory

/-- `MemoryRecord`, with the fields that an insertion reads. -/
structure MemoryRecord where
  subject : String
  predicate : String
  object : String
  confidence : ℚ := 1
  timestamp : ℚ
  isStateVariable : Bool := false
  sourceType : String := "user_explicit"
  canonicalEntityId : Option String := none
  metadata : PyDict String Json := ∅
  sourceSessionId : Option String := none
  confidence_nonneg : 0 ≤ confidence := by decide
  confidence_le_one : confidence ≤ 1 := by decide

namespace MemoryRecord

variable (r : MemoryRecord)

/-- `effective_subject`. -/
def effectiveSubject : String :=
  match r.canonicalEntityId with
  | some c => if c = "" then r.subject else c
  | none => r.subject

/-- `triple_key`. -/
def tripleKey : String := r.effectiveSubject ++ ":" ++ r.predicate

/-- The key under which the vector of the record is inserted and deleted. -/
def upsertKey : String := if r.isStateVariable then r.effectiveSubject else r.tripleKey

def vectorText : String := r.effectiveSubject ++ " " ++ r.predicate ++ " " ++ r.object

def sessionId : Option Json :=
  match r.sourceSessionId with
  | some s => if s = "" then r.metadata.get? "session_id" else some (.str s)
  | none => r.metadata.get? "session_id"

/-- The relation that is added to the graph: the object is cut off after eighty characters. -/
def graphEdge : Edge := ⟨r.effectiveSubject, r.predicate, String.ofList (r.object.toList.take 80)⟩

/-- The relation that is removed from the graph. -/
def removedEdge : Edge := ⟨r.effectiveSubject, r.predicate, r.object⟩

def stateMetadata : PyDict String Json :=
  ((((r.metadata.set "source_type" (.str r.sourceType)).set "subject"
    (.str r.effectiveSubject)).set "predicate" (.str r.predicate)).set "object"
      (.str r.object)).set "is_state_variable" (.bool true)

def stateArgs : SetArgs where
  key := r.effectiveSubject
  value := .str r.object
  confidence := some (.finite r.confidence)
  metadata := some r.stateMetadata
  reason := "monad_commit_" ++ r.sourceType

end MemoryRecord

/-- `add_record_sync`. -/
def KuzuGraphStore.addRecord (g : KuzuGraphStore) (r : MemoryRecord) : KuzuGraphStore :=
  g.addRelation r.graphEdge r.confidence r.timestamp r.sessionId

/-! ## The log of intents -/

/-- The status of an intent. -/
inductive IntentStatus
  | pending
  | committed
  | failed
  deriving DecidableEq

/-- A row of `transaction_intent_log`, under its primary key. -/
structure Intent where
  subject : String
  predicate : String
  object : String
  status : IntentStatus
  error : Option String := none
  deriving DecidableEq

/-- The table `transaction_intent_log`. -/
abbrev IntentLog := PyDict String Intent

namespace IntentLog

/-- `UPDATE … SET status` of a row. -/
def mark (log : IntentLog) (txId : String) (status : IntentStatus) (error : Option String) :
    IntentLog :=
  match log.get? txId with
  | some row => log.set txId { row with status := status, error := error.orElse fun _ => row.error }
  | none => log

/-- `get_dangling_intents`. -/
def dangling (log : IntentLog) : List (String × Intent) :=
  log.entries.filter fun e => decide (e.2.status = .pending)

end IntentLog

/-! ## The stores -/

/-- The stores of an auditor, with the vectors if there is a vector store. -/
structure SagaStores where
  graph : KuzuGraphStore
  kv : VerifiedKVStore
  vectors : Option (List (VectorPoint MemoryRecord))
  intents : IntentLog

/-- The calls of an insertion that may raise. -/
inductive SagaCall
  | createIntent
  | addRecord
  | getState
  | setState
  | insertAuditEntry
  | insertVector
  | markCommitted

/-- The environment of an insertion: the library, the faults of its calls, the key of its intent, and
the clock where the state is set and where it is restored. -/
structure SagaEnv where
  rt : Runtime
  fault : SagaCall → Option PyError
  txId : String
  setAt : ℚ
  restoredAt : ℚ

/-- What a call does to the stores. -/
inductive SagaEffect
  | createIntent (txId : String) (r : MemoryRecord)
  | addRecord (r : MemoryRecord)
  | upsertState (a : SetArgs) (now : ℚ)
  | callKv (c : KvCall)
  | insertVector (key : String) (r : MemoryRecord)
  | markCommitted (txId : String)
  | deleteVectors (key : String)
  | removeEdge (e : Edge)
  | markFailed (txId : String) (error : String)

def SagaEffect.apply (rt : Runtime) (s : SagaStores) : SagaEffect → SagaStores
  | .createIntent txId r =>
    { s with
      intents := s.intents.set txId
        ⟨r.effectiveSubject, r.predicate, r.object, .pending, none⟩ }
  | .addRecord r => { s with graph := s.graph.addRecord r }
  | .upsertState a now =>
    { s with
      kv := s.kv.update
        { s.kv.db with
          stateVariables := s.kv.db.stateVariables.setState a.key a.value.dumps
            (PyFloat.clampUnit a.confidence) now (Json.obj (a.storedMetadata rt now).entries).dumps
            (rt.hexdigest a.value.dumps) } none }
  | .callKv c => { s with kv := s.kv.call rt c }
  | .insertVector key r =>
    { s with vectors := s.vectors.map fun points => VectorStore.insert points key r.vectorText r }
  | .markCommitted txId => { s with intents := s.intents.mark txId .committed none }
  | .deleteVectors key =>
    { s with vectors := s.vectors.map fun points => VectorStore.deleteByUpsertKey points key }
  | .removeEdge e => { s with graph := s.graph.removeEdge e }
  | .markFailed txId error => { s with intents := s.intents.mark txId .failed (some error) }

def applyAll (rt : Runtime) (s : SagaStores) (effects : List SagaEffect) : SagaStores :=
  effects.foldl (SagaEffect.apply rt) s

/-! ## The insertion -/

/-- The steps that are recorded as applied. -/
inductive SagaStep
  | intent
  | graph
  | kv
  | vector
  deriving DecidableEq

/-- What a stage of the insertion does: its effects, and the steps that it records or what it
raises. -/
structure Stage where
  effects : List SagaEffect
  outcome : Except PyError (List SagaStep)

/-- How far the insertion has come. -/
structure Progress where
  effects : List SagaEffect
  appliedSteps : List SagaStep
  error : Option PyError := none

namespace Progress

/-- The next stage, unless one has raised. -/
def next (p : Progress) (stage : Stage) : Progress :=
  match p.error with
  | some _ => p
  | none =>
    match stage.outcome with
    | .ok steps => ⟨p.effects ++ stage.effects, p.appliedSteps ++ steps, none⟩
    | .error err => ⟨p.effects ++ stage.effects, p.appliedSteps, some err⟩

end Progress

namespace TransactionalDeltaTensor

variable (env : SagaEnv) (s : SagaStores) (r : MemoryRecord)

/-- `backup_kv`: the row that `get_state` finds, with the key under which it is. -/
def backupKv : Option (String × StateRow) :=
  s.kv.db.stateVariables.lookup r.effectiveSubject

/-- What creating the intent raises, as it does for a key that is in the log. -/
def intentFault : Option PyError :=
  (env.fault .createIntent).orElse fun _ =>
    if s.intents.contains env.txId then some uniqueError else none

def graphStage : Stage :=
  match env.fault .addRecord with
  | some err => ⟨[], .error err⟩
  | none => ⟨[.addRecord r], .ok [.graph]⟩

def kvStage : Stage :=
  if r.isStateVariable then
    match (env.fault .getState).orElse fun _ => env.fault .setState with
    | some err => ⟨[], .error err⟩
    | none =>
      match env.fault .insertAuditEntry with
      | some err => ⟨[.upsertState r.stateArgs env.setAt], .error err⟩
      | none =>
        match (s.kv.db.setSync env.rt r.stateArgs env.setAt).2 with
        | .error err => ⟨[.callKv (.setSync r.stateArgs env.setAt)], .error err⟩
        | .ok _ => ⟨[.callKv (.setSync r.stateArgs env.setAt)], .ok [.kv]⟩
  else ⟨[], .ok []⟩

def vectorStage : Stage :=
  match s.vectors with
  | none => ⟨[], .ok []⟩
  | some _ =>
    match env.fault .insertVector with
    | some err => ⟨[], .error err⟩
    | none => ⟨[.insertVector r.upsertKey r], .ok [.vector]⟩

def commitStage : Stage :=
  match env.fault .markCommitted with
  | some err => ⟨[], .error err⟩
  | none => ⟨[.markCommitted env.txId], .ok []⟩

def forward : Progress :=
  (((Progress.mk [.createIntent env.txId r] [.intent] none).next (graphStage env r)).next
    (kvStage env s r)).next (vectorStage env s r) |>.next (commitStage env)

/-- How a compensation restores the state variable: the backup is written back under the key of the
record, or the row is deleted. -/
def restoreCall : KvCall :=
  match backupKv s r with
  | some (key, row) =>
    .setSync
      { key := r.effectiveSubject
        value := row.decodedValue
        confidence := some (.finite row.confidence)
        metadata := some (row.toStateDict env.rt key).metadata
        reason := "monad_rollback_restore" } env.restoredAt
  | none => .deleteSync r.effectiveSubject env.restoredAt

/-- The compensation of the applied steps, in the opposite order. -/
def rollback (appliedSteps : List SagaStep) (err : PyError) : List SagaEffect :=
  (if .vector ∈ appliedSteps then [.deleteVectors r.upsertKey] else []) ++
    (if .kv ∈ appliedSteps then [.callKv (restoreCall env s r)] else []) ++
      (if .graph ∈ appliedSteps then [.removeEdge r.removedEdge] else []) ++
        (if .intent ∈ appliedSteps then [.markFailed env.txId err.message] else [])

/-- The effects of the insertion and its result. -/
def effects : List SagaEffect × Except PyError Bool :=
  match intentFault env s with
  | some err => ([], .error err)
  | none =>
    let p := forward env s r
    match p.error with
    | none => (p.effects, .ok true)
    | some err => (p.effects ++ rollback env s r p.appliedSteps err, .error err)

/-- `execute`. -/
def execute : SagaStores × Except PyError Bool :=
  (applyAll env.rt s (effects env s r).1, (effects env s r).2)

/-- The stores when the process stops after a number of effects. -/
def stoppedAfter (n : ℕ) : SagaStores := applyAll env.rt s ((effects env s r).1.take n)

end TransactionalDeltaTensor

/-! ## The recovery -/

namespace MemoryAuditor

/-- `recover_dangling_transactions`. -/
def recoverDanglingTransactions (s : SagaStores) : SagaStores :=
  s.intents.dangling.foldl (fun s e =>
    { s with
      graph := s.graph.removeEdge ⟨e.2.subject, e.2.predicate, e.2.object⟩
      intents := s.intents.mark e.1 .failed (some "recovered_after_crash") }) s

/-- A new process: the multigraph is read from the tables. -/
def restart (isValidGraphEntity : String → Bool) (s : SagaStores) : SagaStores :=
  { s with graph := KuzuGraphStore.hydrateFromDisk isValidGraphEntity s.graph.disk }

end MemoryAuditor

end AtlasMemory
