import AtlasMemory.Foundations.SavepointStack
import AtlasMemory.L2Semantic.AuditRepository
import AtlasMemory.L2Semantic.StateRepository

/-!
# The verified key-value store

The model of `VerifiedKVStore` over a fresh schema.  The connection is in autocommit mode, in which
`with conn:` neither commits nor rolls back, so every statement takes effect when it is executed;
a call that raises keeps what its earlier statements did.  The clock and the calendar are inputs
of the calls that read them.

The store keeps a copy of the tip, `_prev_hash`, and copies of it for the savepoints.  No writer
reads them: the tip is taken from the table each time.

A value is modelled by its JSON form, which is what `json.dumps(value, default=str)` sees, and text
is a sequence of Unicode scalar values.
-/

namespace AtlasMemory

/-- The tables of the connection that the store's writers touch. -/
structure Db where
  stateVariables : StateTable
  auditLog : AuditLog
  redactions : RedactionRegistry
  checkpoints : CheckpointTable
  deriving DecidableEq

def Db.empty : Db := ⟨∅, AuditLog.empty, ∅, ∅⟩

/-- The result of a call: the tables afterwards, and what it returns or raises. -/
abbrev CallResult (α : Type) := Db × Except PyError α

/-! ## Writers -/

/-- The arguments of `set_sync`. -/
structure SetArgs where
  key : String
  value : Json
  confidence : Option PyFloat := some (.finite 1)
  metadata : Option (PyDict String Json) := none
  reason : String := "update"
  ttl : Option ℤ := none

namespace SetArgs

/-- The metadata dictionary that `set_sync` stores: the caller's, with three items for a time to
live. -/
def storedMetadata (rt : Runtime) (a : SetArgs) (now : ℚ) : PyDict String Json :=
  let given := a.metadata.getD ∅
  match a.ttl with
  | none => given
  | some ttl =>
    ((given.set "ttl" (.number (.ofInt ttl))).set "is_temporary" (.bool true)).set "expires_at"
      (rt.jsonFloat (.finite (now + ttl)))

/-- The audit columns of `set_sync`. -/
def entry (rt : Runtime) (a : SetArgs) (now : ℚ) : NewEntry where
  timestamp := .finite now
  key := a.key
  valueHash := rt.hexdigest a.value.dumps
  valJson := a.value.dumps
  confidence := .finite (PyFloat.clampUnit a.confidence)
  reason := a.reason

end SetArgs

namespace Db

variable (rt : Runtime)

/-- Take the tip, compute the entry hash and insert. -/
def append (db : Db) (e : NewEntry) : CallResult String :=
  match db.auditLog.append rt e with
  | .error err => (db, .error err)
  | .ok (log, entryHash) => ({ db with auditLog := log }, .ok entryHash)

/-- `set_sync`; on success the entry hash, which becomes the cached tip. -/
def setSync (db : Db) (a : SetArgs) (now : ℚ) : CallResult String :=
  let confidence := PyFloat.clampUnit a.confidence
  let valJson := a.value.dumps
  let metaJson := (Json.obj (a.storedMetadata rt now).entries).dumps
  let valHash := rt.hexdigest valJson
  let written := { db with
    stateVariables := db.stateVariables.setState a.key valJson confidence now metaJson valHash }
  written.append rt (a.entry rt now)

/-- The audit columns of `delete_sync`. -/
def deleteEntry (key : String) (now : ℚ) : NewEntry where
  timestamp := .finite now
  key := key
  valueHash := rt.hexdigest deletedMarkerJson
  valJson := deletedMarkerJson
  confidence := .finite 0
  reason := "delete"

/-- `delete_sync`; on success the entry hash if a row was deleted. -/
def deleteSync (db : Db) (key : String) (now : ℚ) : CallResult (Option String) :=
  let (table, deleted) := db.stateVariables.deleteState key
  if deleted then
    let (db', result) := { db with stateVariables := table }.append rt (deleteEntry rt key now)
    (db', result.map some)
  else ({ db with stateVariables := table }, .ok none)

/-- `append_audit_log`. -/
def appendAuditLog (db : Db) (entry : AuditEntry) (now : ℚ) : CallResult String :=
  match db.auditLog.appendAuditLog rt entry now with
  | .error err => (db, .error err)
  | .ok (log, entryHash) => ({ db with auditLog := log }, .ok entryHash)

/-- The arguments of `record_sleep_checkpoint`. -/
structure CheckpointArgs where
  checkpointId : String
  lastProcessedStepId : ℤ
  sessionsConsolidated : ℤ := 0
  sopsBaked : ℤ := 0
  factsSuperseded : ℤ := 0
  durationMs : PyFloat := .finite 0
  deriving DecidableEq

/-- The content that `record_sleep_checkpoint` logs. -/
def CheckpointArgs.valJson (a : CheckpointArgs) : String :=
  (Json.obj [("last_processed_step_id", .number (.ofInt a.lastProcessedStepId)),
    ("sessions_consolidated", .number (.ofInt a.sessionsConsolidated)),
    ("sops_baked", .number (.ofInt a.sopsBaked)),
    ("facts_superseded", .number (.ofInt a.factsSuperseded)),
    ("duration_ms", rt.jsonFloat a.durationMs)]).dumps

/-- The audit columns of `record_sleep_checkpoint`. -/
def CheckpointArgs.entry (a : CheckpointArgs) (now : ℚ) : NewEntry where
  timestamp := .finite now
  key := a.checkpointId
  valueHash := rt.hexdigest (a.valJson rt)
  valJson := a.valJson rt
  confidence := .finite 1
  reason := "sleep_checkpoint"

/-- `record_checkpoint`: whether the checkpoint is new. -/
def recordCheckpoint (t : CheckpointTable) (a : CheckpointArgs) (now : ℚ) :
    Except PyError (CheckpointTable × Bool) :=
  if t.contains a.checkpointId then .ok (t, false)
  else match a.durationMs.sqlReal with
    | none => .error ⟨.integrityError,
        "NOT NULL constraint failed: sleep_consolidation_checkpoints.duration_ms"⟩
    | some durationMs =>
      .ok (t.set a.checkpointId ⟨.finite now, a.lastProcessedStepId, a.sessionsConsolidated,
        a.sopsBaked, a.factsSuperseded, durationMs⟩, true)

/-- `record_sleep_checkpoint`; on success the entry hash if the checkpoint is new. -/
def recordSleepCheckpoint (db : Db) (a : CheckpointArgs) (now : ℚ) :
    CallResult (Option String) :=
  if a.checkpointId = "" then
    (db, .error ⟨.valueError, "checkpoint_id is required for sleep checkpoint record"⟩)
  else match recordCheckpoint db.checkpoints a now with
    | .error err => (db, .error err)
    | .ok (_, false) => (db, .ok none)
    | .ok (table, true) =>
      let (db', result) := { db with checkpoints := table }.append rt (a.entry rt now)
      (db', result.map some)

/-! ### What the writers do to the state table -/

lemma stateVariables_append (db : Db) (e : NewEntry) :
    (db.append rt e).1.stateVariables = db.stateVariables := by
  unfold append
  cases db.auditLog.append rt e <;> rfl

lemma stateVariables_setSync (db : Db) (a : SetArgs) (now : ℚ) :
    (db.setSync rt a now).1.stateVariables =
      db.stateVariables.setState a.key a.value.dumps (PyFloat.clampUnit a.confidence) now
        (Json.obj (a.storedMetadata rt now).entries).dumps (rt.hexdigest a.value.dumps) :=
  stateVariables_append rt _ _

lemma stateVariables_deleteSync (db : Db) (key : String) (now : ℚ) :
    (db.deleteSync rt key now).1.stateVariables = db.stateVariables.erase key := by
  unfold deleteSync StateTable.deleteState
  cases db.stateVariables.contains key with
  | false => rfl
  | true => exact stateVariables_append rt _ _

/-! ## Maintenance -/

/-- `redact_audit_entry`. -/
def redactAuditEntry (db : Db) (seq : ℤ) (reason : String) (redactedValue : Option String)
    (today : String) (now : ℚ) : CallResult RedactionResult :=
  let (log, reg, result) :=
    AtlasMemory.redactAuditEntry db.auditLog db.redactions seq reason redactedValue today now
  ({ db with auditLog := log, redactions := reg }, .ok result)

/-- `heal_audit_log_chain`: the number of rows, and the tip afterwards. -/
def healAuditLogChain (db : Db) : CallResult (ℕ × String) :=
  let log := db.auditLog.heal rt
  ({ db with auditLog := log, stateVariables := db.stateVariables.clampConfidences },
    .ok (log.rows.length, HashChain.tip AuditRow.entryHash genesisHash log.rows))

/-- `purge_stale_probe_keys`: the number of deleted rows. -/
def purgeStaleProbeKeys (db : Db) (prefixes : List String) : CallResult ℕ :=
  if prefixes = [] then
    (db, .error ⟨.valueError,
      "prefixes list must be explicitly provided to purge_stale_probe_keys"⟩)
  else
    let (table, n) := db.stateVariables.purgeStaleProbeKeys prefixes
    ({ db with stateVariables := table }, .ok n)

/-! ## Verification -/

/-- One round of the cross-table check: the sequence number to report, if the row is at fault. -/
def crossCheckRow (log : AuditLog) (key : String) (row : StateRow) : Option ℤ :=
  match row.valueHash with
  | none => none
  | some hash =>
    if hash = "" then none
    else if rt.hexdigest row.value ≠ hash then some (-1)
    else match log.latest key with
      | none => none
      | some r =>
        if r.reason = some "delete" then some r.seq
        else if r.valueHash ≠ hash then some r.seq
        else none

/-- The cross-table check: the first row of the state table at fault. -/
def crossCheck (db : Db) : Option ℤ :=
  db.stateVariables.entries.findSome? fun e => crossCheckRow rt db.auditLog e.1 e.2

/-- `verify_audit_log`. -/
def verifyAuditLog (db : Db) (deep : Bool) : Verification :=
  match verifyRows rt db.redactions deep genesisHash db.auditLog.rows with
  | .error verdict => verdict
  | .ok tip =>
    if deep then
      match crossCheck rt db with
      | some seq => ⟨false, seq, tip⟩
      | none => ⟨true, 0, tip⟩
    else ⟨true, 0, tip⟩

end Db

/-! ## The store -/

/-- `VerifiedKVStore`: the tables with the savepoints of the connection, the cached tip, and its
copies by savepoint name. -/
structure VerifiedKVStore where
  tables : SavepointStack String Db
  prevHash : String
  savepointPrevHashes : PyDict String String

/-- A public call with its arguments and the readings of the clock and the calendar. -/
inductive KvCall
  | setSync (a : SetArgs) (now : ℚ)
  | deleteSync (key : String) (now : ℚ)
  | appendAuditLog (entry : AuditEntry) (now : ℚ)
  | recordSleepCheckpoint (a : Db.CheckpointArgs) (now : ℚ)
  | redactAuditEntry (seq : ℤ) (reason : String) (redactedValue : Option String)
      (today : String) (now : ℚ)
  | healAuditLogChain
  | purgeStaleProbeKeys (prefixes : List String)
  | verifyAuditLog (deep : Bool)
  | savepoint (name : String)
  | rollbackSavepoint (name : String)
  | releaseSavepoint (name : String)

namespace VerifiedKVStore

variable (rt : Runtime)

def init : VerifiedKVStore := ⟨⟨Db.empty, []⟩, genesisHash, ∅⟩

def db (s : VerifiedKVStore) : Db := s.tables.current

/-- Put the result of a call into the store, with the tip that it leaves in the cache. -/
def update (s : VerifiedKVStore) (db : Db) (tip : Option String) : VerifiedKVStore :=
  { s with tables := s.tables.modify fun _ => db, prevHash := tip.getD s.prevHash }

/-- `savepoint`: the database matches the name without regard to case. -/
def savepoint (s : VerifiedKVStore) (name : String) : VerifiedKVStore :=
  { s with
    tables := s.tables.push (SqlText.lower name)
    savepointPrevHashes := s.savepointPrevHashes.set name s.prevHash }

/-- `rollback_savepoint`; without such a savepoint the first statement raises. -/
def rollbackSavepoint (s : VerifiedKVStore) (name : String) : VerifiedKVStore :=
  match (s.tables.rollbackTo (SqlText.lower name)).bind
      (SavepointStack.release · (SqlText.lower name)) with
  | none => s
  | some tables =>
    match s.savepointPrevHashes.get? name with
    | some h => ⟨tables, h, s.savepointPrevHashes.erase name⟩
    | none => ⟨tables, tables.current.auditLog.getLastEntry.2, s.savepointPrevHashes⟩

/-- `release_savepoint`. -/
def releaseSavepoint (s : VerifiedKVStore) (name : String) : VerifiedKVStore :=
  match s.tables.release (SqlText.lower name) with
  | none => s
  | some tables => ⟨tables, s.prevHash, s.savepointPrevHashes.erase name⟩

/-- The store after a call, whether it returns or raises. -/
def call (s : VerifiedKVStore) : KvCall → VerifiedKVStore
  | .setSync a now =>
    let (db, result) := s.db.setSync rt a now
    s.update db result.toOption
  | .deleteSync key now =>
    let (db, result) := s.db.deleteSync rt key now
    s.update db result.toOption.join
  | .appendAuditLog entry now =>
    let (db, result) := s.db.appendAuditLog rt entry now
    s.update db result.toOption
  | .recordSleepCheckpoint a now =>
    let (db, result) := s.db.recordSleepCheckpoint rt a now
    s.update db result.toOption.join
  | .redactAuditEntry seq reason redactedValue today now =>
    s.update (s.db.redactAuditEntry seq reason redactedValue today now).1 none
  | .healAuditLogChain =>
    let (db, result) := s.db.healAuditLogChain rt
    s.update db (result.toOption.map Prod.snd)
  | .purgeStaleProbeKeys prefixes => s.update (s.db.purgeStaleProbeKeys prefixes).1 none
  | .verifyAuditLog deep =>
    let v := s.db.verifyAuditLog rt deep
    s.update s.db (if v.isValid && decide (v.lastHash ≠ genesisHash) then some v.lastHash
      else none)
  | .savepoint name => s.savepoint name
  | .rollbackSavepoint name => s.rollbackSavepoint name
  | .releaseSavepoint name => s.releaseSavepoint name

def run (s : VerifiedKVStore) (calls : List KvCall) : VerifiedKVStore :=
  calls.foldl (call rt) s

/-! ## Runs

Apart from the three savepoint calls, a call acts on the current tables only, so an invariant of
the tables is proved call by call and then holds along every run, snapshots included. -/

/-- The current tables after a call other than a rollback. -/
def dbAfter (db : Db) : KvCall → Db
  | .setSync a now => (db.setSync rt a now).1
  | .deleteSync key now => (db.deleteSync rt key now).1
  | .appendAuditLog entry now => (db.appendAuditLog rt entry now).1
  | .recordSleepCheckpoint a now => (db.recordSleepCheckpoint rt a now).1
  | .redactAuditEntry seq reason redactedValue today now =>
    (db.redactAuditEntry seq reason redactedValue today now).1
  | .healAuditLogChain => (db.healAuditLogChain rt).1
  | .purgeStaleProbeKeys prefixes => (db.purgeStaleProbeKeys prefixes).1
  | .verifyAuditLog _ | .savepoint _ | .rollbackSavepoint _ | .releaseSavepoint _ => db

/-- Every call of a run meets the condition `Q` in the tables it finds. -/
def AllSteps (Q : Db → KvCall → Prop) : VerifiedKVStore → List KvCall → Prop
  | _, [] => True
  | s, c :: cs => Q s.db c ∧ AllSteps Q (s.call rt c) cs

variable {rt} {P : Db → Prop} {s : VerifiedKVStore}

lemma run_cons (c : KvCall) (cs : List KvCall) :
    s.run rt (c :: cs) = (s.call rt c).run rt cs := rfl

lemma db_call {c : KvCall} (h : ∀ name, c ≠ .rollbackSavepoint name) :
    (s.call rt c).db = dbAfter rt s.db c := by
  cases c with
  | rollbackSavepoint name => exact absurd rfl (h name)
  | releaseSavepoint name =>
      change (s.releaseSavepoint name).db = s.db
      unfold releaseSavepoint
      cases ht : s.tables.release (SqlText.lower name) with
      | none => rfl
      | some tables => exact SavepointStack.current_of_release ht
  | _ => rfl

lemma everywhere_init (h : P Db.empty) : SavepointStack.Everywhere P init.tables :=
  ⟨h, fun _ he => absurd he List.not_mem_nil⟩

lemma everywhere_update (h : SavepointStack.Everywhere P s.tables) {db : Db} (hdb : P db)
    (tip : Option String) : SavepointStack.Everywhere P (s.update db tip).tables :=
  SavepointStack.everywhere_modify h hdb

lemma everywhere_rollbackSavepoint (h : SavepointStack.Everywhere P s.tables) (name : String) :
    SavepointStack.Everywhere P (s.rollbackSavepoint name).tables := by
  unfold rollbackSavepoint
  cases ht : (s.tables.rollbackTo (SqlText.lower name)).bind
      (SavepointStack.release · (SqlText.lower name)) with
  | none => exact h
  | some tables =>
      obtain ⟨tables', hroll, hrel⟩ := Option.bind_eq_some_iff.mp ht
      have htables := SavepointStack.everywhere_release
        (SavepointStack.everywhere_rollbackTo h hroll) hrel
      cases s.savepointPrevHashes.get? name <;> exact htables

lemma everywhere_releaseSavepoint (h : SavepointStack.Everywhere P s.tables) (name : String) :
    SavepointStack.Everywhere P (s.releaseSavepoint name).tables := by
  unfold releaseSavepoint
  cases ht : s.tables.release (SqlText.lower name) with
  | none => exact h
  | some tables => exact SavepointStack.everywhere_release h ht

/-- **Call rule.** -/
lemma everywhere_call {c : KvCall} (h : SavepointStack.Everywhere P s.tables)
    (hstep : P (dbAfter rt s.db c)) : SavepointStack.Everywhere P (s.call rt c).tables := by
  cases c with
  | savepoint name => exact SavepointStack.everywhere_push h
  | rollbackSavepoint name => exact everywhere_rollbackSavepoint h name
  | releaseSavepoint name => exact everywhere_releaseSavepoint h name
  | _ => exact everywhere_update h hstep _

/-- **Run rule.** -/
lemma everywhere_run {Q : Db → KvCall → Prop} (hstep : ∀ db c, P db → Q db c → P (dbAfter rt db c))
    {calls : List KvCall} (h : SavepointStack.Everywhere P s.tables)
    (hcalls : AllSteps rt Q s calls) : SavepointStack.Everywhere P (s.run rt calls).tables := by
  induction calls generalizing s with
  | nil => exact h
  | cons c cs ih => exact ih (everywhere_call h (hstep s.db c h.1 hcalls.1)) hcalls.2

/-! ## Growth

In a preorder in which every call but a rollback goes up, the snapshots stay nested, and a rollback
goes down. -/

section Growth

variable {R : Db → Db → Prop} (hrefl : ∀ a, R a a) (htrans : ∀ a b c, R a b → R b c → R a c)

include hrefl

lemma nested_rollbackSavepoint (h : SavepointStack.Nested R s.tables) (name : String) :
    SavepointStack.Nested R (s.rollbackSavepoint name).tables ∧
      R (s.rollbackSavepoint name).db s.db := by
  unfold rollbackSavepoint
  cases ht : (s.tables.rollbackTo (SqlText.lower name)).bind
      (SavepointStack.release · (SqlText.lower name)) with
  | none => exact ⟨h, hrefl _⟩
  | some tables =>
      obtain ⟨tables', hroll, hrel⟩ := Option.bind_eq_some_iff.mp ht
      have hnested := SavepointStack.nested_release
        (SavepointStack.nested_rollbackTo hrefl h hroll) hrel
      have hdown : R tables.current s.db := by
        rw [SavepointStack.current_of_release hrel]
        exact SavepointStack.rel_of_rollbackTo h hroll
      cases s.savepointPrevHashes.get? name <;> exact ⟨hnested, hdown⟩

include htrans

lemma nested_call {c : KvCall} (h : SavepointStack.Nested R s.tables)
    (hstep : R s.db (dbAfter rt s.db c)) : SavepointStack.Nested R (s.call rt c).tables := by
  cases c with
  | savepoint name => exact SavepointStack.nested_push hrefl h
  | rollbackSavepoint name => exact (nested_rollbackSavepoint hrefl h name).1
  | releaseSavepoint name =>
      change SavepointStack.Nested R (s.releaseSavepoint name).tables
      unfold releaseSavepoint
      cases ht : s.tables.release (SqlText.lower name) with
      | none => exact h
      | some tables => exact SavepointStack.nested_release h ht
  | _ => exact SavepointStack.nested_modify htrans h hstep

end Growth

end VerifiedKVStore

end AtlasMemory
