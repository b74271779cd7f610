import AtlasMemory.Foundations.HashChain
import AtlasMemory.Foundations.PyDict
import AtlasMemory.Foundations.PyText
import AtlasMemory.Runtime

/-!
# The audit ledger

The model of `Sha256AuditLedgerRepository`: the table `state_audit_log` as a list of rows in the
order of its primary key, the registry `audit_redactions`, and the methods that read and write
them.  The schema is the current one, with the columns `new_value`, `confidence` and `reason`.

The entry hash is computed from the time stamp that the writer was given, while the table keeps
what its column gives back.
-/

namespace AtlasMemory

/-! ## Rows -/

/-- A row of `state_audit_log`. -/
structure AuditRow where
  seq : ℤ
  timestamp : PyFloat
  key : String
  valueHash : String
  prevHash : String
  entryHash : String
  newValue : Option String
  confidence : Option PyFloat
  reason : Option String
  deriving DecidableEq

/-- The table `state_audit_log`, in the order of its primary key. -/
@[ext]
structure AuditLog where
  rows : List AuditRow
  sorted : (rows.map AuditRow.seq).Pairwise (· < ·)

/-- A row of `audit_redactions`, under its primary key `seq`. -/
structure Redaction where
  key : String
  valueHash : String
  reason : String
  createdAt : PyFloat
  deriving DecidableEq

/-- The registry `audit_redactions`. -/
abbrev RedactionRegistry := PyDict ℤ Redaction

namespace AuditLog

instance : DecidableEq AuditLog := fun l l' =>
  decidable_of_iff (l.rows = l'.rows) AuditLog.ext_iff.symm

def empty : AuditLog := ⟨[], List.Pairwise.nil⟩

/-- `INSERT` of a row with an explicit key; `none` when the key is taken. -/
def insert (log : AuditLog) (row : AuditRow) : Option AuditLog :=
  if row.seq ∈ log.rows.map AuditRow.seq then none
  else some
    { rows := log.rows.filter (fun r => decide (r.seq < row.seq)) ++
        row :: log.rows.filter (fun r => decide (row.seq < r.seq))
      sorted := by
        have hsub : ∀ p : AuditRow → Bool,
            ((log.rows.filter p).map AuditRow.seq).Pairwise (· < ·) := fun p =>
          log.sorted.sublist (List.filter_sublist.map AuditRow.seq)
        rw [List.map_append, List.map_cons, List.pairwise_append, List.pairwise_cons]
        refine ⟨hsub _, ⟨?_, hsub _⟩, ?_⟩
        · intro n hn
          obtain ⟨r, hr, rfl⟩ := List.mem_map.mp hn
          exact of_decide_eq_true (List.mem_filter.mp hr).2
        · intro n hn m hm
          obtain ⟨r, hr, rfl⟩ := List.mem_map.mp hn
          have hlt : r.seq < row.seq := of_decide_eq_true (List.mem_filter.mp hr).2
          rcases List.mem_cons.mp hm with rfl | hm
          · exact hlt
          · obtain ⟨r', hr', rfl⟩ := List.mem_map.mp hm
            exact hlt.trans (of_decide_eq_true (List.mem_filter.mp hr').2) }

/-- An `UPDATE` of all rows that leaves the keys alone. -/
def mapRows (log : AuditLog) (f : AuditRow → AuditRow) (hf : ∀ r, (f r).seq = r.seq) :
    AuditLog where
  rows := log.rows.map f
  sorted := by
    have hseq : (log.rows.map f).map AuditRow.seq = log.rows.map AuditRow.seq := by
      rw [List.map_map]
      exact List.map_congr_left fun r _ => hf r
    rw [hseq]
    exact log.sorted

/-- `UPDATE state_audit_log SET new_value = v WHERE seq = n`. -/
def setNewValue (log : AuditLog) (n : ℤ) (v : Option String) : AuditLog :=
  log.mapRows (fun r => if r.seq = n then { r with newValue := v } else r) fun r => by
    split_ifs <;> rfl

def latest (log : AuditLog) (key : String) : Option AuditRow :=
  log.rows.reverse.find? fun r => decide (r.key = key)

lemma eq_of_seq_eq {log : AuditLog} {r r' : AuditRow} (hr : r ∈ log.rows) (hr' : r' ∈ log.rows)
    (h : r.seq = r'.seq) : r = r' :=
  List.inj_on_of_nodup_map (log.sorted.imp ne_of_lt) hr hr' h

lemma insert_of_forall_lt {log : AuditLog} {row : AuditRow}
    (h : ∀ r ∈ log.rows, r.seq < row.seq) :
    ∃ log', log.insert row = some log' ∧ log'.rows = log.rows ++ [row] := by
  have hnot : row.seq ∉ log.rows.map AuditRow.seq := by
    intro hmem
    obtain ⟨r, hr, heq⟩ := List.mem_map.mp hmem
    have hlt := h r hr
    omega
  have hbelow : log.rows.filter (fun r => decide (r.seq < row.seq)) = log.rows :=
    List.filter_eq_self.mpr fun r hr => decide_eq_true (h r hr)
  have habove : log.rows.filter (fun r => decide (row.seq < r.seq)) = [] :=
    List.filter_eq_nil_iff.mpr fun r hr => by
      have hlt := h r hr
      simp only [decide_eq_true_eq]
      omega
  refine ⟨_, if_neg hnot, ?_⟩
  change log.rows.filter _ ++ row :: log.rows.filter _ = _
  rw [hbelow, habove]

end AuditLog

/-! ## Hashes and the tip -/

/-- The previous hash of the first row: `"0" * 64`. -/
def genesisHash : String := String.ofList (List.replicate 64 '0')

namespace Runtime

variable (rt : Runtime)

/-- `compute_entry_hash`. -/
def computeEntryHash (seq : ℤ) (timestamp : PyFloat) (key valueHash prevHash : String) : String :=
  rt.hexdigest (toString seq ++ ":" ++ rt.floatStr timestamp ++ ":" ++ key ++ ":" ++ valueHash ++
    ":" ++ prevHash)

/-- The entry hash that the columns of a row determine, given a previous hash. -/
def entryStamp (r : AuditRow) (prev : String) : String :=
  rt.computeEntryHash r.seq r.timestamp r.key r.valueHash prev

end Runtime

/-- `get_last_entry`: the next sequence number and the tip. -/
def AuditLog.getLastEntry (log : AuditLog) : ℤ × String :=
  match log.rows.getLast? with
  | some r => if r.entryHash ≠ "" then (r.seq + 1, r.entryHash) else (1, genesisHash)
  | none => (1, genesisHash)

/-! ## Appending -/

/-- The columns that a writer computes before the insert. -/
structure NewEntry where
  timestamp : PyFloat
  key : String
  valueHash : String
  valJson : String
  confidence : PyFloat
  reason : String
  deriving DecidableEq

/-- A `NOT NULL` column refused the value. -/
def notNullError (column : String) : PyError :=
  ⟨.integrityError, "NOT NULL constraint failed: state_audit_log." ++ column⟩

def uniqueError : PyError :=
  ⟨.integrityError, "UNIQUE constraint failed: state_audit_log.seq"⟩

/-- `insert_audit_entry`: what the table holds afterwards is what its columns give back. -/
def AuditLog.insertAuditEntry (log : AuditLog) (seq : ℤ) (prevHash entryHash : String)
    (e : NewEntry) : Except PyError AuditLog :=
  match e.timestamp.sqlReal with
  | none => .error (notNullError "timestamp")
  | some timestamp =>
    match log.insert
      { seq, timestamp, key := e.key, valueHash := e.valueHash, prevHash, entryHash,
        newValue := some e.valJson, confidence := e.confidence.sqlReal,
        reason := some e.reason } with
    | none => .error uniqueError
    | some log' => .ok log'

/-- The three lines that every writer shares: take the tip, compute the entry hash, insert. -/
def AuditLog.append (rt : Runtime) (log : AuditLog) (e : NewEntry) :
    Except PyError (AuditLog × String) :=
  let (nextSeq, prevH) := log.getLastEntry
  let entryHash := rt.computeEntryHash nextSeq e.timestamp e.key e.valueHash prevH
  match log.insertAuditEntry nextSeq prevH entryHash e with
  | .error err => .error err
  | .ok log' => .ok (log', entryHash)

/-- An item of an entry dictionary: missing, or a value that converts to the type asked for, or
one whose conversion raises. -/
inductive Field (α : Type)
  | missing
  | given (a : α)
  | unconvertible
  deriving DecidableEq

namespace Field

variable {α : Type}

/-- `convert(entry.get(name, default))`. -/
def get (f : Field α) (default : α) : Except PyError α :=
  match f with
  | .missing => .ok default
  | .given a => .ok a
  | .unconvertible => .error ⟨.typeError, "conversion of an entry item failed"⟩

end Field

/-- The dictionary given to `append_audit_log`; `key`, `value_hash` and `reason` are turned into
text, which every value allows. -/
structure AuditEntry where
  timestamp : Field PyFloat
  key : Option String
  value : Field Json
  valueHash : Option String
  confidence : Field PyFloat
  reason : Option String

/-- The value of an entry: `None` and a missing item are the same. -/
def AuditEntry.rawValue (entry : AuditEntry) : Except PyError Json := entry.value.get .null

/-- The content column that `append_audit_log` writes for a value. -/
def auditContent : Json → String
  | .null => ""
  | v => v.dumpsSorted

/-- The columns that `append_audit_log` computes from an entry, at time `now`. -/
def AuditEntry.toNewEntry (rt : Runtime) (entry : AuditEntry) (now : ℚ) :
    Except PyError NewEntry := do
  let timestamp ← entry.timestamp.get (.finite now)
  let value ← entry.rawValue
  let confidence ← entry.confidence.get (.finite 1)
  return {
    timestamp
    key := entry.key.getD ""
    valueHash := entry.valueHash.getD (rt.hexdigest (auditContent value))
    valJson := auditContent value
    confidence
    reason := entry.reason.getD "append_audit" }

/-- `append_audit_log`. -/
def AuditLog.appendAuditLog (rt : Runtime) (log : AuditLog) (entry : AuditEntry) (now : ℚ) :
    Except PyError (AuditLog × String) := do
  let e ← entry.toNewEntry rt now
  log.append rt e

/-! ## Redaction -/

/-- `REDACTION_MARKER_PREFIX`. -/
def redactionMarkerPrefix : String := "[REDACTED-"

/-- `redaction_is_authorized`. -/
def RedactionRegistry.isAuthorized (reg : RedactionRegistry) (seq : ℤ) (key valueHash : String) :
    Bool :=
  match reg.get? seq with
  | some r => r.key = key && r.valueHash = valueHash
  | none => false

/-- The dictionary that `redact_audit_entry` returns. -/
inductive RedactionResult
  | error (error : String) (seq : ℤ)
  | ok (seq : ℤ) (key valueHash reason redactedValue : String)
  deriving DecidableEq

/-- `redact_audit_entry`, on the day `today` at time `now`. -/
def redactAuditEntry (log : AuditLog) (reg : RedactionRegistry) (seq : ℤ) (reason : String)
    (redactedValue : Option String) (today : String) (now : ℚ) :
    AuditLog × RedactionRegistry × RedactionResult :=
  let marker := redactedValue.getD (redactionMarkerPrefix ++ reason ++ " " ++ today)
  if !PyString.startsWith marker redactionMarkerPrefix then
    (log, reg, .error "invalid_redaction_marker" seq)
  else if PyString.strip reason = "" then
    (log, reg, .error "empty_reason" seq)
  else match log.rows.find? (fun r => decide (r.seq = seq)) with
    | none => (log, reg, .error "audit_entry_not_found" seq)
    | some row =>
      (log.setNewValue seq (some marker),
        reg.set row.seq ⟨row.key, row.valueHash, reason, .finite now⟩,
        .ok row.seq row.key row.valueHash reason marker)

/-! ## Verification -/

/-- The text of a deleted value, and the same as a JSON string. -/
def deletedMarker : String := "__DELETED__"

/-- `'"__DELETED__"'`. -/
def deletedMarkerJson : String := "\"__DELETED__\""

/-- The content check of a deep verification accepts the row: there is no content, or the hash
fits, or the content is a tombstone of one of two spellings, or a registered redaction. -/
def contentAccepted (rt : Runtime) (reg : RedactionRegistry) (r : AuditRow) : Bool :=
  match r.newValue with
  | none => true
  | some nvRaw =>
    if rt.hexdigest nvRaw ≠ r.valueHash then
      let isLegacyTombstone := decide (PyString.stripWith (· = '"') nvRaw = deletedMarker) &&
        decide (r.valueHash ∈ [rt.hexdigest deletedMarker, rt.hexdigest deletedMarkerJson])
      let isSecurityRedaction := PyString.startsWith nvRaw redactionMarkerPrefix
      isLegacyTombstone ||
        (isSecurityRedaction && reg.isAuthorized r.seq r.key r.valueHash)
    else true

/-- The result of a verification: success, the row at fault, and the hash reached. -/
structure Verification where
  isValid : Bool
  brokenSeq : ℤ
  lastHash : String
  deriving DecidableEq

/-- The loop over the rows: the hash reached, or the verdict on the first row at fault. -/
def verifyRows (rt : Runtime) (reg : RedactionRegistry) (deep : Bool) (expectedPrev : String) :
    List AuditRow → Except Verification String
  | [] => .ok expectedPrev
  | r :: rs =>
    if r.prevHash ≠ expectedPrev then .error ⟨false, r.seq, expectedPrev⟩
    else if deep && !contentAccepted rt reg r then .error ⟨false, r.seq, expectedPrev⟩
    else if rt.entryStamp r r.prevHash ≠ r.entryHash then .error ⟨false, r.seq, expectedPrev⟩
    else verifyRows rt reg deep r.entryHash rs

/-! ## Healing -/

/-- The update of one row by `heal_audit_log_chain`. -/
def healRow (r : AuditRow) (prev entry : String) : AuditRow :=
  { r with
    prevHash := prev
    entryHash := entry
    confidence := some (.finite (PyFloat.clampUnit r.confidence)) }

lemma seq_healRow (r : AuditRow) (prev entry : String) : (healRow r prev entry).seq = r.seq := rfl

/-- The loop of `heal_audit_log_chain` over the rows. -/
def AuditLog.heal (rt : Runtime) (log : AuditLog) : AuditLog where
  rows := HashChain.relink rt.entryStamp healRow genesisHash log.rows
  sorted := by
    rw [HashChain.map_relink seq_healRow]
    exact log.sorted

end AtlasMemory
