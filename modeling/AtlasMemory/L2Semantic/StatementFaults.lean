import AtlasMemory.Foundations.Statements
import AtlasMemory.L2Semantic.ChainInvariant

/-!
# Statements of the ledger writers

The writers of the ledger as programs of SQL statements.  The connection is opened with
`autocommit=True`.  In that mode `commit` and `rollback` do nothing, so `with conn:` is no
transaction, and an enclosing savepoint stays open when a statement fails: each statement is kept
once it is executed.
-/

namespace AtlasMemory

open Statements HashChain

/-- A program over the tables of the connection. -/
abbrev Sql := Statements Db PyError

namespace Sql

variable (rt : Runtime)

/-! ## Statements -/

/-- `INSERT INTO state_variables … ON CONFLICT(key) DO UPDATE`. -/
def upsertState (key : String) (row : StateRow) : Db → Except PyError (Db × Unit) :=
  write fun db => { db with stateVariables := db.stateVariables.set key row }

/-- `DELETE FROM state_variables WHERE key = ?`: whether a row was deleted. -/
def deleteState (key : String) (db : Db) : Except PyError (Db × Bool) :=
  .ok ({ db with stateVariables := (db.stateVariables.deleteState key).1 },
    (db.stateVariables.deleteState key).2)

/-- `SELECT seq, entry_hash FROM state_audit_log ORDER BY seq DESC LIMIT 1`. -/
def selectLastEntry : Db → Except PyError (Db × (ℤ × String)) :=
  query fun db => db.auditLog.getLastEntry

/-- `INSERT INTO state_audit_log`. -/
def insertAuditEntry (seq : ℤ) (prevHash entryHash : String) (e : NewEntry) (db : Db) :
    Except PyError (Db × Unit) :=
  match db.auditLog.insertAuditEntry seq prevHash entryHash e with
  | .error err => .error err
  | .ok log => .ok ({ db with auditLog := log }, ())

/-- `SELECT 1 FROM sleep_consolidation_checkpoints WHERE checkpoint_id = ?`. -/
def selectCheckpoint (checkpointId : String) : Db → Except PyError (Db × Bool) :=
  query fun db => db.checkpoints.contains checkpointId

/-- `INSERT INTO sleep_consolidation_checkpoints`, of an identifier that is not there. -/
def insertCheckpoint (a : Db.CheckpointArgs) (now : ℚ) (db : Db) : Except PyError (Db × Unit) :=
  match Db.recordCheckpoint db.checkpoints a now with
  | .error err => .error err
  | .ok (table, _) => .ok ({ db with checkpoints := table }, ())

/-- `SELECT seq, key, value_hash FROM state_audit_log WHERE seq = ?`. -/
def selectAuditRow (seq : ℤ) : Db → Except PyError (Db × Option AuditRow) :=
  query fun db => db.auditLog.rows.find? fun r => decide (r.seq = seq)

/-- `UPDATE state_audit_log SET new_value = ? WHERE seq = ?`. -/
def updateNewValue (seq : ℤ) (marker : String) : Db → Except PyError (Db × Unit) :=
  write fun db => { db with auditLog := db.auditLog.setNewValue seq (some marker) }

/-- `INSERT OR REPLACE INTO audit_redactions`. -/
def replaceRedaction (seq : ℤ) (redaction : Redaction) : Db → Except PyError (Db × Unit) :=
  write fun db => { db with redactions := db.redactions.set seq redaction }

/-- `SELECT … FROM state_audit_log ORDER BY seq ASC`. -/
def selectAuditRows : Db → Except PyError (Db × List AuditRow) :=
  query fun db => db.auditLog.rows

/-- The columns that one round of `heal_audit_log_chain` sets. -/
def setHashes (prev entry : String) (confidence : ℚ) (r : AuditRow) : AuditRow :=
  { r with prevHash := prev, entryHash := entry, confidence := some (.finite confidence) }

/-- `UPDATE state_audit_log SET prev_hash = ?, entry_hash = ?, confidence = ? WHERE seq = ?`. -/
def updateHashes (seq : ℤ) (prev entry : String) (confidence : ℚ) :
    Db → Except PyError (Db × Unit) :=
  write fun db => { db with
    auditLog := db.auditLog.mapRows
      (fun r => if r.seq = seq then setHashes prev entry confidence r else r)
      fun r => by split_ifs <;> rfl }

/-- `UPDATE state_variables SET confidence = 1.0 WHERE confidence > 1.0`. -/
def clampAbove : Db → Except PyError (Db × Unit) :=
  write fun db => { db with stateVariables := db.stateVariables.mapValues fun row =>
    if row.confidence > 1 then { row with confidence := 1 } else row }

/-- `UPDATE state_variables SET confidence = 0.0 WHERE confidence < 0.0`. -/
def clampBelow : Db → Except PyError (Db × Unit) :=
  write fun db => { db with stateVariables := db.stateVariables.mapValues fun row =>
    if row.confidence < 0 then { row with confidence := 0 } else row }

/-! ## Programs -/

/-- `with conn:` on a connection in autocommit mode. -/
def withConn {α : Type} (body : Sql α) : Sql α := body

/-- Take the tip, compute the entry hash and insert; the result is made of the entry hash. -/
def append {α : Type} (finish : String → α) (e : NewEntry) : Sql α :=
  stmt selectLastEntry fun last =>
    let entryHash := rt.computeEntryHash last.1 e.timestamp e.key e.valueHash last.2
    stmt (insertAuditEntry last.1 last.2 entryHash e) fun _ => done (.ok (finish entryHash))

/-- The row that `set_sync` stores. -/
def stateRow (a : SetArgs) (now : ℚ) : StateRow where
  value := a.value.dumps
  confidence := PyFloat.clampUnit a.confidence
  timestamp := .finite now
  metadata := some (Json.obj (a.storedMetadata rt now).entries).dumps
  valueHash := some (rt.hexdigest a.value.dumps)

/-- `set_sync`. -/
def setSync (a : SetArgs) (now : ℚ) : Sql String :=
  withConn <| stmt (upsertState a.key (stateRow rt a now)) fun _ => append rt id (a.entry rt now)

/-- `delete_sync`. -/
def deleteSync (key : String) (now : ℚ) : Sql (Option String) :=
  withConn <| stmt (deleteState key) fun deleted =>
    if deleted then append rt some (Db.deleteEntry rt key now)
    else done (.ok none)

/-- `record_sleep_checkpoint`. -/
def recordSleepCheckpoint (a : Db.CheckpointArgs) (now : ℚ) : Sql (Option String) :=
  if a.checkpointId = "" then
    done (.error ⟨.valueError, "checkpoint_id is required for sleep checkpoint record"⟩)
  else withConn <| stmt (selectCheckpoint a.checkpointId) fun present =>
    if present then done (.ok none)
    else stmt (insertCheckpoint a now) fun _ => append rt some (a.entry rt now)

/-- `redact_audit_entry`. -/
def redactAuditEntry (seq : ℤ) (reason : String) (redactedValue : Option String)
    (today : String) (now : ℚ) : Sql RedactionResult :=
  let marker := redactedValue.getD (redactionMarkerPrefix ++ reason ++ " " ++ today)
  if !PyString.startsWith marker redactionMarkerPrefix then
    done (.ok (.error "invalid_redaction_marker" seq))
  else if PyString.strip reason = "" then done (.ok (.error "empty_reason" seq))
  else stmt (selectAuditRow seq) fun
    | none => done (.ok (.error "audit_entry_not_found" seq))
    | some row => withConn <| stmt (updateNewValue seq marker) fun _ =>
      stmt (replaceRedaction row.seq ⟨row.key, row.valueHash, reason, .finite now⟩) fun _ =>
        done (.ok (.ok row.seq row.key row.valueHash reason marker))

/-- The loop of `heal_audit_log_chain` over the rows that it has read, and what follows it. -/
def healLoop {α : Type} (next : String → Sql α) : String → List AuditRow → Sql α
  | prev, [] => next prev
  | prev, r :: rs =>
    let entry := rt.entryStamp r prev
    stmt (updateHashes r.seq prev entry (PyFloat.clampUnit r.confidence)) fun _ =>
      healLoop next entry rs

/-- The two clamping updates of `heal_audit_log_chain`, whose exceptions are logged only. -/
def clampConfidences {α : Type} (result : α) : Sql α :=
  exec clampAbove fun
    | .error _ => done (.ok result)
    | .ok _ => exec clampBelow fun _ => done (.ok result)

/-- `heal_audit_log_chain`: the number of rows, and the tip afterwards. -/
def healAuditLogChain : Sql (ℕ × String) :=
  withConn <| stmt selectAuditRows fun rows =>
    healLoop rt (fun tip => clampConfidences (rows.length, tip)) genesisHash rows

/-! ## Without a fault

The programs do what the writers do. -/

variable {rt} {err : PyError} {db : Db}

lemma auditLog_append (log : AuditLog) (e : NewEntry) :
    log.append rt e =
      (log.insertAuditEntry log.getLastEntry.1 log.getLastEntry.2
        (rt.computeEntryHash log.getLastEntry.1 e.timestamp e.key e.valueHash log.getLastEntry.2)
        e).map fun log' => (log', rt.computeEntryHash log.getLastEntry.1 e.timestamp e.key
          e.valueHash log.getLastEntry.2) := by
  unfold AuditLog.append
  dsimp only
  cases log.insertAuditEntry log.getLastEntry.1 log.getLastEntry.2 _ e <;> rfl

/-- The two outcomes of an append, for the statement and for the method. -/
lemma insertAuditEntry_cases (db : Db) (e : NewEntry) :
    let last := db.auditLog.getLastEntry
    let entryHash := rt.computeEntryHash last.1 e.timestamp e.key e.valueHash last.2
    (∃ e', insertAuditEntry last.1 last.2 entryHash e db = .error e' ∧
      db.append rt e = (db, .error e')) ∨
    (∃ db', insertAuditEntry last.1 last.2 entryHash e db = .ok (db', ()) ∧
      db.append rt e = (db', .ok entryHash)) := by
  intro last entryHash
  cases hinsert : db.auditLog.insertAuditEntry last.1 last.2 entryHash e with
  | error e' =>
      refine Or.inl ⟨e', ?_, ?_⟩
      · rw [insertAuditEntry, hinsert]
      · rw [Db.append, auditLog_append, hinsert]
        rfl
  | ok log =>
      refine Or.inr ⟨{ db with auditLog := log }, ?_, ?_⟩
      · rw [insertAuditEntry, hinsert]
      · rw [Db.append, auditLog_append, hinsert]
        rfl

lemma run_append_none {α : Type} (finish : String → α) (e : NewEntry) (db : Db) :
    (append rt finish e).run err none db = ((db.append rt e).1, (db.append rt e).2.map finish) := by
  rw [append, run_stmt_ok _ (by nofun) rfl]
  rcases @insertAuditEntry_cases rt db e with ⟨e', hinsert, happend⟩ | ⟨db', hinsert, happend⟩
  · rw [happend, later_none, run_stmt_error _ (by nofun) hinsert]
    rfl
  · rw [happend, later_none, run_stmt_ok _ (by nofun) hinsert]
    rfl

lemma run_setSync_none (a : SetArgs) (now : ℚ) (db : Db) :
    (setSync rt a now).run err none db = db.setSync rt a now := by
  rw [setSync, withConn, run_stmt_ok _ (by nofun) rfl, later_none, run_append_none]
  show (_, Except.map id _) = (_, _)
  rw [Except.map_id]
  rfl

lemma run_deleteSync_none (key : String) (now : ℚ) (db : Db) :
    (deleteSync rt key now).run err none db = db.deleteSync rt key now := by
  rw [deleteSync, withConn, run_stmt_ok _ (by nofun) rfl, later_none, Db.deleteSync]
  cases hdeleted : (db.stateVariables.deleteState key).2 with
  | false => simp [hdeleted]
  | true =>
      simp only [if_true, hdeleted]
      exact run_append_none _ _ _

lemma run_recordSleepCheckpoint_none (a : Db.CheckpointArgs) (now : ℚ) (db : Db) :
    (recordSleepCheckpoint rt a now).run err none db = db.recordSleepCheckpoint rt a now := by
  unfold recordSleepCheckpoint Db.recordSleepCheckpoint
  split_ifs with hid
  · rfl
  rw [withConn, run_stmt_ok _ (by nofun) rfl, later_none]
  by_cases hpresent : db.checkpoints.contains a.checkpointId = true
  · simp [Db.recordCheckpoint, hpresent]
  rw [if_neg hpresent]
  cases hduration : a.durationMs.sqlReal with
  | none =>
      have hrecord : ∃ e', Db.recordCheckpoint db.checkpoints a now = .error e' := by
        rw [Db.recordCheckpoint, if_neg hpresent, hduration]
        exact ⟨_, rfl⟩
      obtain ⟨e', he'⟩ := hrecord
      rw [he', run_stmt_error _ (by nofun) (by rw [insertCheckpoint, he'])]
  | some d =>
      have hrecord : ∃ table, Db.recordCheckpoint db.checkpoints a now = .ok (table, true) := by
        rw [Db.recordCheckpoint, if_neg hpresent, hduration]
        exact ⟨_, rfl⟩
      obtain ⟨table, htable⟩ := hrecord
      have hinsert : insertCheckpoint a now db = .ok ({ db with checkpoints := table }, ()) := by
        rw [insertCheckpoint, htable]
      rw [htable, run_stmt_ok _ (by nofun) hinsert]
      exact run_append_none _ _ _

lemma run_redactAuditEntry_none (seq : ℤ) (reason : String) (redactedValue : Option String)
    (today : String) (now : ℚ) (db : Db) :
    (redactAuditEntry seq reason redactedValue today now).run err none db =
      db.redactAuditEntry seq reason redactedValue today now := by
  unfold redactAuditEntry Db.redactAuditEntry AtlasMemory.redactAuditEntry
  dsimp only
  split_ifs with hmarker hreason
  · rfl
  · rfl
  rw [run_stmt_ok _ (by nofun) rfl, later_none]
  cases hrow : db.auditLog.rows.find? fun r => decide (r.seq = seq) with
  | none =>
      simp only [hrow]
      rfl
  | some row =>
      simp only [hrow]
      rfl

/-! ## Healing, row by row -/

/-- An update of the row with a given key, in the middle of the table. -/
lemma rows_mapRows_middle {log : AuditLog} {before after : List AuditRow} {r : AuditRow}
    (h : log.rows = before ++ r :: after) (f : AuditRow → AuditRow)
    (hf : ∀ x, (if x.seq = r.seq then f x else x).seq = x.seq) :
    (log.mapRows (fun x => if x.seq = r.seq then f x else x) hf).rows =
      before ++ f r :: after := by
  have hsorted := log.sorted
  rw [h, List.map_append, List.map_cons, List.pairwise_append, List.pairwise_cons] at hsorted
  obtain ⟨-, ⟨hafter, -⟩, hbefore⟩ := hsorted
  have hsame : ∀ l : List AuditRow, (∀ x ∈ l, x.seq ≠ r.seq) →
      l.map (fun x => if x.seq = r.seq then f x else x) = l := fun l hl =>
    (List.map_congr_left fun x hx => if_neg (hl x hx)).trans (List.map_id l)
  show log.rows.map _ = _
  rw [h, List.map_append, List.map_cons, if_pos rfl, hsame before, hsame after]
  · intro x hx
    have hlt := hafter x.seq (List.mem_map_of_mem hx)
    omega
  · intro x hx
    have hlt := hbefore x.seq (List.mem_map_of_mem hx) r.seq List.mem_cons_self
    omega

lemma updateHashes_ok {db : Db} {before after : List AuditRow} {r : AuditRow}
    (h : db.auditLog.rows = before ++ r :: after) (prev entry : String) :
    ∃ log : AuditLog, log.rows = before ++ healRow r prev entry :: after ∧
      updateHashes r.seq prev entry (PyFloat.clampUnit r.confidence) db =
        .ok ({ db with auditLog := log }, ()) :=
  ⟨_, rows_mapRows_middle h _ _, rfl⟩

/-- The loop up to a fault: the rows before it are healed. -/
lemma run_healLoop_fault {α : Type} (next : String → Sql α) {todo : List AuditRow} {n : ℕ}
    (hn : n < todo.length) (prev : String) {db : Db} {before : List AuditRow}
    (h : db.auditLog.rows = before ++ todo) :
    ∃ log : AuditLog,
      log.rows = before ++ (relink rt.entryStamp healRow prev (todo.take n) ++ todo.drop n) ∧
      (healLoop rt next prev todo).run err (some n) db = ({ db with auditLog := log }, .error err) := by
  induction todo generalizing n prev db before with
  | nil => exact absurd hn (Nat.not_lt_zero n)
  | cons r rs ih =>
      rw [healLoop]
      rcases n with _ | n
      · exact ⟨db.auditLog, h, rfl⟩
      · obtain ⟨log, hlog, hok⟩ := updateHashes_ok h prev (rt.entryStamp r prev)
        rw [List.append_cons] at hlog
        have hrest : n < rs.length := by
          rw [List.length_cons] at hn
          omega
        obtain ⟨log', hlog', hrun⟩ :=
          @ih n hrest (rt.entryStamp r prev) { db with auditLog := log } _ hlog
        refine ⟨log', ?_, ?_⟩
        · rw [hlog', ← List.append_cons, List.take_succ_cons, List.drop_succ_cons, relink,
            List.cons_append]
        · rw [run_stmt_ok _ (by rintro ⟨⟩) hok, later_succ, hrun]

lemma run_healLoop {α : Type} (next : String → Sql α) {todo : List AuditRow} {fault : Option ℕ}
    (hfault : ∀ n, fault = some n → todo.length ≤ n) (prev : String) {db : Db}
    {before : List AuditRow} (h : db.auditLog.rows = before ++ todo) :
    ∃ log : AuditLog, ∃ rest : Option ℕ,
      log.rows = before ++ relink rt.entryStamp healRow prev todo ∧
      (fault = none → rest = none) ∧
      (healLoop rt next prev todo).run err fault db =
        (next (tip AuditRow.entryHash prev (relink rt.entryStamp healRow prev todo))).run err rest
          { db with auditLog := log } := by
  induction todo generalizing fault prev db before with
  | nil => exact ⟨db.auditLog, fault, h, id, rfl⟩
  | cons r rs ih =>
      obtain ⟨log, hlog, hok⟩ := updateHashes_ok h prev (rt.entryStamp r prev)
      rw [List.append_cons] at hlog
      have hnow : fault ≠ some 0 := fun heq => by
        have hle := hfault 0 heq
        rw [List.length_cons] at hle
        omega
      have hlater : ∀ n, later fault = some n → rs.length ≤ n := by
        intro n hn
        rcases fault with _ | k | k
        · exact absurd hn nofun
        · exact absurd rfl hnow
        · have hle := hfault (k + 1) rfl
          rw [later_succ, Option.some.injEq] at hn
          rw [List.length_cons] at hle
          omega
      obtain ⟨log', rest, hlog', hnone, hrun⟩ :=
        @ih _ hlater (rt.entryStamp r prev) { db with auditLog := log } _ hlog
      refine ⟨log', rest, ?_, ?_, ?_⟩
      · rw [hlog', ← List.append_cons, relink]
      · rintro rfl
        exact hnone rfl
      · rw [healLoop, run_stmt_ok _ hnow hok, hrun, relink, tip_cons]
        rfl

lemma run_clampConfidences_ok {α : Type} (result : α) (fault : Option ℕ) (db : Db) :
    ((clampConfidences result).run err fault db).2 = .ok result := by
  rw [clampConfidences, run]
  cases (attempt err clampAbove fault db).2 with
  | error e => rfl
  | ok u => rfl

lemma clampBelow_clampAbove (t : StateTable) :
    (t.mapValues fun row => if row.confidence > 1 then { row with confidence := 1 } else row).mapValues
      (fun row => if row.confidence < 0 then { row with confidence := 0 } else row) =
    t.clampConfidences := by
  refine PyDict.ext ?_
  rw [StateTable.clampConfidences, PyDict.entries_mapValues, PyDict.entries_mapValues,
    PyDict.entries_mapValues, List.map_map]
  refine List.map_congr_left fun e _ => Prod.ext rfl ?_
  show (if _ then _ else _) = _
  rcases lt_or_ge 1 e.2.confidence with habove | habove
  · have hclamp : max 0 (min e.2.confidence 1) = 1 := by
      rw [min_eq_right habove.le, max_eq_right zero_le_one]
    simp [habove, hclamp]
  · rcases lt_or_ge e.2.confidence 0 with hbelow | hbelow
    · have hclamp : max 0 (min e.2.confidence 1) = 0 := by
        rw [min_eq_left habove, max_eq_left hbelow.le]
      simp [not_lt.mpr habove, hbelow, hclamp]
    · have hclamp : max 0 (min e.2.confidence 1) = e.2.confidence := by
        rw [min_eq_left habove, max_eq_right hbelow]
      simp [not_lt.mpr habove, not_lt.mpr hbelow, hclamp]

lemma run_healAuditLogChain_none (db : Db) :
    (healAuditLogChain rt).run err none db = db.healAuditLogChain rt := by
  rw [healAuditLogChain, withConn, selectAuditRows, run_stmt_ok _ (by nofun) rfl, later_none]
  obtain ⟨log, rest, hlog, hnone, hrun⟩ := @run_healLoop rt err _
    (fun tip => clampConfidences (db.auditLog.rows.length, tip)) db.auditLog.rows none nofun
    genesisHash db [] rfl
  have hheal : log = db.auditLog.heal rt := AuditLog.ext hlog
  have hlength : (db.auditLog.heal rt).rows.length = db.auditLog.rows.length := by
    rw [← List.length_map AuditRow.seq, ← List.length_map AuditRow.seq]
    exact congrArg List.length (map_relink seq_healRow genesisHash _)
  rw [hrun, hnone rfl, hheal, Db.healAuditLogChain, hlength, ← clampBelow_clampAbove]
  rfl

/-! ## Writes that raise -/

/-- An append that raises leaves the database as it was. -/
lemma run_append_raises {α : Type} {finish : String → α} {e : NewEntry} {fault : Option ℕ} {db : Db}
    {e' : PyError} (hraise : ((append rt finish e).run err fault db).2 = .error e') :
    ((append rt finish e).run err fault db).1 = db := by
  by_cases hquery : fault = some 0
  · rw [hquery]
    rfl
  rw [append, selectLastEntry, run_stmt_ok _ hquery rfl] at hraise ⊢
  by_cases hinsert : later fault = some 0
  · rw [hinsert]
    rfl
  rcases @insertAuditEntry_cases rt db e with ⟨e'', herr, -⟩ | ⟨db', hok, -⟩
  · rw [run_stmt_error _ hinsert herr]
  · rw [run_stmt_ok _ hinsert hok] at hraise
    cases hraise

lemma setSync_unchanged_iff {a : SetArgs} {now : ℚ} {fault : Option ℕ} {db : Db} {e : PyError}
    (hraise : ((setSync rt a now).run err fault db).2 = .error e) :
    ((setSync rt a now).run err fault db).1 = db ↔
      fault = some 0 ∨ db.stateVariables.get? a.key = some (stateRow rt a now) := by
  by_cases hupsert : fault = some 0
  · rw [hupsert]
    exact iff_of_true rfl (Or.inl rfl)
  rw [setSync, withConn, upsertState, run_stmt_ok _ hupsert rfl] at hraise ⊢
  rw [run_append_raises hraise]
  constructor
  · intro hsame
    exact Or.inr (PyDict.set_eq_self_iff.mp (congrArg Db.stateVariables hsame))
  · intro hintact
    have hrow := PyDict.set_eq_self_iff.mpr (hintact.resolve_left hupsert)
    show { db with stateVariables := db.stateVariables.set a.key (stateRow rt a now) } = db
    rw [hrow]

lemma deleteSync_unchanged_iff {key : String} {now : ℚ} {fault : Option ℕ} {db : Db} {e : PyError}
    (hraise : ((deleteSync rt key now).run err fault db).2 = .error e) :
    ((deleteSync rt key now).run err fault db).1 = db ↔ fault = some 0 := by
  by_cases hdelete : fault = some 0
  · rw [hdelete]
    exact iff_of_true rfl rfl
  rw [deleteSync, withConn, run_stmt_ok _ hdelete rfl] at hraise ⊢
  by_cases hdeleted : (db.stateVariables.deleteState key).2 = true
  · rw [if_pos hdeleted] at hraise ⊢
    rw [run_append_raises hraise]
    refine iff_of_false (fun hsame => ?_) hdelete
    -- the row was there before the call, and is not there now
    have hgone : db.stateVariables.get? key = none := by
      have htable : db.stateVariables.erase key = db.stateVariables :=
        congrArg Db.stateVariables hsame
      rw [← htable, PyDict.get?_erase_self]
    have hthere : (db.stateVariables.get? key).isSome = true := hdeleted
    rw [hgone] at hthere
    exact absurd hthere (by decide)
  · rw [if_neg hdeleted] at hraise
    cases hraise

lemma recordSleepCheckpoint_unchanged_iff {a : Db.CheckpointArgs} {now : ℚ} {fault : Option ℕ}
    {db : Db} {e : PyError}
    (hraise : ((recordSleepCheckpoint rt a now).run err fault db).2 = .error e) :
    ((recordSleepCheckpoint rt a now).run err fault db).1 = db ↔
      a.checkpointId = "" ∨ fault = some 0 ∨ fault = some 1 ∨ a.durationMs.sqlReal = none := by
  unfold recordSleepCheckpoint at hraise ⊢
  by_cases hid : a.checkpointId = ""
  · rw [if_pos hid]
    exact iff_of_true rfl (Or.inl hid)
  rw [if_neg hid, withConn] at hraise ⊢
  by_cases hselect : fault = some 0
  · rw [hselect]
    exact iff_of_true rfl (Or.inr (Or.inl rfl))
  rw [selectCheckpoint, run_stmt_ok _ hselect rfl] at hraise ⊢
  by_cases hpresent : db.checkpoints.contains a.checkpointId = true
  · rw [if_pos hpresent] at hraise
    cases hraise
  rw [if_neg hpresent] at hraise ⊢
  by_cases hinsert : fault = some 1
  · rw [hinsert]
    exact iff_of_true rfl (Or.inr (Or.inr (Or.inl rfl)))
  have hlater : later fault ≠ some 0 := later_ne_zero hselect hinsert
  cases hduration : a.durationMs.sqlReal with
  | none =>
      have hrecord : ∃ e', insertCheckpoint a now db = .error e' := by
        rw [insertCheckpoint, Db.recordCheckpoint, if_neg hpresent, hduration]
        exact ⟨_, rfl⟩
      obtain ⟨e', he'⟩ := hrecord
      rw [run_stmt_error _ hlater he']
      exact iff_of_true rfl (Or.inr (Or.inr (Or.inr rfl)))
  | some d =>
      have hrecord : insertCheckpoint a now db = .ok ({ db with
          checkpoints := db.checkpoints.set a.checkpointId ⟨.finite now, a.lastProcessedStepId,
            a.sessionsConsolidated, a.sopsBaked, a.factsSuperseded, d⟩ }, ()) := by
        rw [insertCheckpoint, Db.recordCheckpoint, if_neg hpresent, hduration]
      rw [run_stmt_ok _ hlater hrecord] at hraise ⊢
      rw [run_append_raises hraise]
      refine iff_of_false (fun hsame => ?_) (by simp [hid, hselect, hinsert])
      have hrow := PyDict.set_eq_self_iff.mp (congrArg Db.checkpoints hsame)
      rw [PyDict.contains, hrow] at hpresent
      exact hpresent rfl

/-- The marker that `redact_audit_entry` writes. -/
def redactionMarker (reason : String) (redactedValue : Option String) (today : String) : String :=
  redactedValue.getD (redactionMarkerPrefix ++ reason ++ " " ++ today)

/-- Setting a content changes nothing exactly when the row has it. -/
lemma setNewValue_eq_self_iff {log : AuditLog} {n : ℤ} {v : Option String} :
    log.setNewValue n v = log ↔ ∀ r ∈ log.rows, r.seq = n → r.newValue = v := by
  have hrows : log.setNewValue n v = log ↔
      ∀ r ∈ log.rows, (if r.seq = n then { r with newValue := v } else r) = r := by
    rw [AuditLog.ext_iff]
    show log.rows.map _ = log.rows ↔ _
    rw [← List.map_inj_left, List.map_id']
  rw [hrows]
  refine forall₂_congr fun r _ => ?_
  by_cases hseq : r.seq = n
  · rw [if_pos hseq]
    constructor
    · intro hsame _
      exact (congrArg AuditRow.newValue hsame).symm
    · intro hvalue
      rw [← hvalue hseq]
  · rw [if_neg hseq]
    exact iff_of_true rfl fun hn => absurd hn hseq

lemma redactAuditEntry_unchanged_iff {seq : ℤ} {reason : String} {redactedValue : Option String}
    {today : String} {now : ℚ} {fault : Option ℕ} {db : Db} {e : PyError}
    (hraise : ((redactAuditEntry seq reason redactedValue today now).run err fault db).2 =
      .error e) :
    ((redactAuditEntry seq reason redactedValue today now).run err fault db).1 = db ↔
      fault = some 0 ∨ fault = some 1 ∨ ∀ r ∈ db.auditLog.rows, r.seq = seq →
        r.newValue = some (redactionMarker reason redactedValue today) := by
  unfold redactAuditEntry at hraise ⊢
  dsimp only at hraise ⊢
  split_ifs at hraise ⊢
  · cases hraise
  · cases hraise
  by_cases hselect : fault = some 0
  · rw [hselect]
    exact iff_of_true rfl (Or.inl rfl)
  rw [selectAuditRow, run_stmt_ok _ hselect rfl] at hraise ⊢
  cases hrow : db.auditLog.rows.find? fun r => decide (r.seq = seq) with
  | none =>
      simp only [hrow] at hraise
      cases hraise
  | some row =>
      simp only [hrow] at hraise ⊢
      by_cases hupdate : fault = some 1
      · rw [hupdate]
        exact iff_of_true rfl (Or.inr (Or.inl rfl))
      have hlater : later fault ≠ some 0 := later_ne_zero hselect hupdate
      rw [withConn, updateNewValue, run_stmt_ok _ hlater rfl] at hraise ⊢
      by_cases hreplace : later (later fault) = some 0
      · rw [hreplace, run_stmt_fault, ← setNewValue_eq_self_iff, or_iff_right hselect,
          or_iff_right hupdate]
        exact ⟨congrArg Db.auditLog, fun hsame => congrArg (fun log => { db with auditLog := log })
          hsame⟩
      · rw [replaceRedaction, run_stmt_ok _ hreplace rfl] at hraise
        cases hraise

lemma healAuditLogChain_unchanged_iff {fault : Option ℕ} {db : Db} {e : PyError}
    (hraise : ((healAuditLogChain rt).run err fault db).2 = .error e) :
    ((healAuditLogChain rt).run err fault db).1 = db ↔ ∀ n, fault = some (n + 1) →
      RowsChained rt (db.auditLog.rows.take n) ∧ ∀ r ∈ db.auditLog.rows.take n,
        r.confidence = some (.finite (PyFloat.clampUnit r.confidence)) := by
  by_cases hselect : fault = some 0
  · rw [hselect]
    exact iff_of_true rfl nofun
  rw [healAuditLogChain, withConn, selectAuditRows, run_stmt_ok _ hselect rfl] at hraise ⊢
  by_cases hlater : ∃ n < db.auditLog.rows.length, fault = some (n + 1)
  · obtain ⟨n, hn, rfl⟩ := hlater
    obtain ⟨log, hlog, hrun⟩ := @run_healLoop_fault rt err _
      (fun tip => clampConfidences (db.auditLog.rows.length, tip)) db.auditLog.rows n hn genesisHash
      db [] rfl
    rw [later_succ, hrun]
    have hsame : ({ db with auditLog := log } : Db) = db ↔
        relink rt.entryStamp healRow genesisHash (db.auditLog.rows.take n) =
          db.auditLog.rows.take n := by
      constructor
      · intro hdb
        have hrows : log.rows = db.auditLog.rows := congrArg (fun db : Db => db.auditLog.rows) hdb
        rw [hlog, List.nil_append] at hrows
        refine List.append_cancel_right (hrows.trans (List.take_append_drop n _).symm)
      · intro hrelink
        rw [hrelink, List.nil_append, List.take_append_drop] at hlog
        rw [AuditLog.ext hlog]
    rw [hsame, @relink_eq_self_iff _ _ AuditRow.prevHash AuditRow.entryHash rt.entryStamp healRow
      (fun _ _ _ => rfl) (fun _ _ _ => rfl) (fun _ _ _ _ => rfl)]
    have hfixed : ∀ r : AuditRow, healRow r r.prevHash r.entryHash = r ↔
        r.confidence = some (.finite (PyFloat.clampUnit r.confidence)) := fun r =>
      ⟨fun h => (congrArg AuditRow.confidence h).symm, fun h => by rw [healRow, ← h]⟩
    simp only [hfixed]
    constructor
    · intro hhealed m hm
      cases hm
      exact hhealed
    · intro hhealed
      exact hhealed n rfl
  · have hbeyond : ∀ n, later fault = some n → db.auditLog.rows.length ≤ n := by
      intro n hn
      rcases fault with _ | _ | k
      · cases hn
      · exact absurd rfl hselect
      · rw [later_succ, Option.some.injEq] at hn
        by_contra hlt
        exact hlater ⟨k, by omega, rfl⟩
    obtain ⟨log, rest, -, -, hrun⟩ := @run_healLoop rt err _
      (fun tip => clampConfidences (db.auditLog.rows.length, tip)) db.auditLog.rows _ hbeyond
      genesisHash db [] rfl
    rw [hrun, run_clampConfidences_ok] at hraise
    cases hraise

end Sql

/-! ## Atomicity -/

/-- A writer of the ledger with its arguments. -/
inductive LedgerWrite
  | setSync (a : SetArgs) (now : ℚ)
  | deleteSync (key : String) (now : ℚ)
  | recordSleepCheckpoint (a : Db.CheckpointArgs) (now : ℚ)
  | redactAuditEntry (seq : ℤ) (reason : String) (redactedValue : Option String)
      (today : String) (now : ℚ)
  | healAuditLogChain

namespace LedgerWrite

variable (rt : Runtime)

/-- The tables after a call whose statement at `fault` fails with `err`, and the exception that the
call raises. -/
def run (err : PyError) (fault : Option ℕ) (db : Db) : LedgerWrite → Db × Option PyError
  | .setSync a now => outcome ((Sql.setSync rt a now).run err fault db)
  | .deleteSync key now => outcome ((Sql.deleteSync rt key now).run err fault db)
  | .recordSleepCheckpoint a now => outcome ((Sql.recordSleepCheckpoint rt a now).run err fault db)
  | .redactAuditEntry seq reason redactedValue today now =>
    outcome ((Sql.redactAuditEntry seq reason redactedValue today now).run err fault db)
  | .healAuditLogChain => outcome ((Sql.healAuditLogChain rt).run err fault db)

def toCall : LedgerWrite → KvCall
  | .setSync a now => .setSync a now
  | .deleteSync key now => .deleteSync key now
  | .recordSleepCheckpoint a now => .recordSleepCheckpoint a now
  | .redactAuditEntry seq reason redactedValue today now =>
    .redactAuditEntry seq reason redactedValue today now
  | .healAuditLogChain => .healAuditLogChain

/-- Without a fault the statements do what the call does. -/
theorem run_none (err : PyError) (db : Db) (w : LedgerWrite) :
    (w.run rt err none db).1 = VerifiedKVStore.dbAfter rt db w.toCall := by
  cases w with
  | setSync a now => exact congrArg Prod.fst (Sql.run_setSync_none a now db)
  | deleteSync key now => exact congrArg Prod.fst (Sql.run_deleteSync_none key now db)
  | recordSleepCheckpoint a now =>
      exact congrArg Prod.fst (Sql.run_recordSleepCheckpoint_none a now db)
  | redactAuditEntry seq reason redactedValue today now =>
      exact congrArg Prod.fst
        (Sql.run_redactAuditEntry_none seq reason redactedValue today now db)
  | healAuditLogChain => exact congrArg Prod.fst (Sql.run_healAuditLogChain_none db)

/-- The statements before the failing one change nothing. -/
def Untouched (fault : Option ℕ) (db : Db) : LedgerWrite → Prop
  | .setSync a now =>
    fault = some 0 ∨ db.stateVariables.get? a.key = some (Sql.stateRow rt a now)
  | .deleteSync _ _ => fault = some 0
  | .recordSleepCheckpoint a _ =>
    a.checkpointId = "" ∨ fault = some 0 ∨ fault = some 1 ∨ a.durationMs.sqlReal = none
  | .redactAuditEntry seq reason redactedValue today _ =>
    fault = some 0 ∨ fault = some 1 ∨ ∀ r ∈ db.auditLog.rows, r.seq = seq →
      r.newValue = some (Sql.redactionMarker reason redactedValue today)
  | .healAuditLogChain => ∀ n, fault = some (n + 1) →
    RowsChained rt (db.auditLog.rows.take n) ∧ ∀ r ∈ db.auditLog.rows.take n,
      r.confidence = some (.finite (PyFloat.clampUnit r.confidence))

end LedgerWrite

/-- **A write that raises.** The tables are those of before the call exactly when no statement
before the failing one changed anything. -/
theorem unchanged_iff_untouched (rt : Runtime) (w : LedgerWrite) (db : Db) (fault : Option ℕ)
    (err e : PyError) (hraise : (w.run rt err fault db).2 = some e) :
    (w.run rt err fault db).1 = db ↔ w.Untouched rt fault db := by
  cases w with
  | setSync a now => exact Sql.setSync_unchanged_iff (error_of_outcome hraise)
  | deleteSync key now => exact Sql.deleteSync_unchanged_iff (error_of_outcome hraise)
  | recordSleepCheckpoint a now =>
      exact Sql.recordSleepCheckpoint_unchanged_iff (error_of_outcome hraise)
  | redactAuditEntry seq reason redactedValue today now =>
      exact Sql.redactAuditEntry_unchanged_iff (error_of_outcome hraise)
  | healAuditLogChain => exact Sql.healAuditLogChain_unchanged_iff (error_of_outcome hraise)

def diskFull : PyError := ⟨.operationalError, "database or disk is full"⟩

/-- The first `set_sync` of a fresh store, failing at the insert into the log. -/
theorem unchanged_iff_untouched_setSync :
    ((LedgerWrite.setSync { key := "k", value := .null } 1).run Runtime.sample diskFull (some 2)
      Db.empty).1 = Db.empty ↔
    (LedgerWrite.setSync { key := "k", value := .null } 1).Untouched Runtime.sample (some 2)
      Db.empty :=
  unchanged_iff_untouched Runtime.sample _ Db.empty (some 2) diskFull diskFull (by decide)

/-- **A half-done write.** The variable is stored, and the ledger has no entry for it. -/
theorem half_done_setSync :
    ¬ ∀ (rt : Runtime) (w : LedgerWrite) (db : Db) (fault : Option ℕ) (err e : PyError),
      (w.run rt err fault db).2 = some e → (w.run rt err fault db).1 = db := by
  intro h
  have hsame := h Runtime.sample (.setSync { key := "k", value := .null } 1) Db.empty (some 2)
    diskFull diskFull (by decide)
  have hrow := congrArg (fun db : Db => db.stateVariables.size) hsame
  revert hrow
  decide

end AtlasMemory
