import AtlasMemory.L2Semantic.ChainInvariant

/-!
# Deep verification and its false alarms

A deep verification couples four things: the chain, the content column, the redaction registry,
and the state table through the newest row of each key.  `verifyAuditLog_deep_iff` says what it
accepts, and `DeepOk` is the invariant under which it does.

Four calls can leave a log that it refuses although nothing was written behind the store's back,
because the writers share one key namespace, one free-text reason column and a hash that the
caller may supply: a write whose reason is the word that marks a deletion; an appended entry whose
hash is not that of its content; an appended entry or a checkpoint under the key of a live
variable; and the time stamp of `ChainInvariant`.  `Quiet` excludes these, in terms of the
arguments and of the tables before the call.
-/

namespace AtlasMemory

open HashChain

variable {rt : Runtime}

/-! ## What a deep verification accepts -/

/-- The newest row of the key is no deletion and carries the hash. -/
def NewestFits (log : AuditLog) (key hash : String) : Prop :=
  ∀ r, log.latest key = some r → r.reason ≠ some "delete" ∧ r.valueHash = hash

/-- The cross-table check passes a row of the state table. -/
lemma crossCheckRow_eq_none_iff {log : AuditLog} {key : String} {row : StateRow} :
    Db.crossCheckRow rt log key row = none ↔
      ∀ hash, row.valueHash = some hash → hash ≠ "" →
        rt.hexdigest row.value = hash ∧ NewestFits log key hash := by
  rw [Db.crossCheckRow]
  cases hhash : row.valueHash with
  | none => simp
  | some hash =>
      by_cases hempty : hash = ""
      · simp [hempty]
      · by_cases hvalue : rt.hexdigest row.value = hash
        · cases hlatest : log.latest key with
          | none => simp [hempty, hvalue, NewestFits, hlatest]
          | some r =>
              by_cases hreason : r.reason = some "delete"
              · simp [hempty, hvalue, NewestFits, hlatest, hreason]
              · simp [hempty, hvalue, NewestFits, hlatest, hreason]
        · simp [hempty, hvalue]

/-- The cross-table check passes every row of the state table. -/
def StatesAccepted (rt : Runtime) (db : Db) : Prop :=
  ∀ key row, db.stateVariables.get? key = some row →
    Db.crossCheckRow rt db.auditLog key row = none

lemma crossCheck_eq_none_iff {db : Db} : db.crossCheck rt = none ↔ StatesAccepted rt db := by
  rw [Db.crossCheck, List.findSome?_eq_none_iff]
  constructor
  · intro h key row hrow
    exact h (key, row) (PyDict.mem_entries_iff.mpr hrow)
  · rintro h ⟨key, row⟩ hmem
    exact h key row (PyDict.mem_entries_iff.mp hmem)

/-- The content check passes every row of the log. -/
def ContentAccepted (rt : Runtime) (db : Db) : Prop :=
  ∀ r ∈ db.auditLog.rows, contentAccepted rt db.redactions r = true

/-- A deep verification succeeds exactly if the log is chained, every content is accepted, and
every state row is. -/
lemma verifyAuditLog_deep_iff {db : Db} :
    (db.verifyAuditLog rt true).isValid = true ↔
      RowsChained rt db.auditLog.rows ∧ ContentAccepted rt db ∧ StatesAccepted rt db := by
  rw [Db.verifyAuditLog, ← crossCheck_eq_none_iff]
  cases hv : verifyRows rt db.redactions true genesisHash db.auditLog.rows with
  | error verdict =>
      constructor
      · intro h
        exact absurd h (by simp [isValid_of_error hv])
      · rintro ⟨hchain, hcontent, -⟩
        have hok := (@verifyRows_eq_ok_iff rt db.redactions true genesisHash _ _).mpr
          ⟨hchain, fun _ => hcontent, rfl⟩
        rw [hv] at hok
        cases hok
  | ok tip =>
      obtain ⟨hchain, hcontent, -⟩ := verifyRows_eq_ok_iff.mp hv
      cases hcross : db.crossCheck rt with
      | none => exact ⟨fun _ => ⟨hchain, hcontent rfl, rfl⟩, fun _ => rfl⟩
      | some seq => exact ⟨fun h => (by cases h), fun h => (by cases h.2.2)⟩

lemma brokenSeq_of_isValid {db : Db} {deep : Bool}
    (h : (db.verifyAuditLog rt deep).isValid = true) :
    (db.verifyAuditLog rt deep).brokenSeq = 0 := by
  rw [Db.verifyAuditLog] at h ⊢
  cases hv : verifyRows rt db.redactions deep genesisHash db.auditLog.rows with
  | error verdict =>
      rw [hv] at h
      exact absurd h (by simp [isValid_of_error hv])
  | ok tip =>
      rw [hv] at h
      cases deep with
      | false => rfl
      | true =>
          cases hcross : db.crossCheck rt with
          | none => simp
          | some seq => simp [hcross] at h

/-! ## The newest row of a key -/

lemma latest_of_rows_concat {log log' : AuditLog} {r : AuditRow}
    (h : log'.rows = log.rows ++ [r]) (key : String) :
    log'.latest key = if r.key = key then some r else log.latest key := by
  rw [AuditLog.latest, h, List.reverse_append, List.reverse_singleton, List.singleton_append,
    List.find?_cons]
  by_cases hkey : r.key = key
  · simp [hkey]
  · simp [hkey, AuditLog.latest]

lemma latest_of_rows_map {log log' : AuditLog} {f : AuditRow → AuditRow}
    (h : log'.rows = log.rows.map f) (hkey : ∀ r, (f r).key = r.key) (key : String) :
    log'.latest key = (log.latest key).map f := by
  rw [AuditLog.latest, h, ← List.map_reverse, List.find?_map, AuditLog.latest]
  refine congrArg (fun p => (log.rows.reverse.find? p).map f) ?_
  funext r
  simp [hkey]

lemma newestFits_of_rows_map {log log' : AuditLog} {f : AuditRow → AuditRow}
    (h : log'.rows = log.rows.map f) (hkey : ∀ r, (f r).key = r.key)
    (hreason : ∀ r, (f r).reason = r.reason) (hvalue : ∀ r, (f r).valueHash = r.valueHash)
    {key hash : String} (hfits : NewestFits log key hash) : NewestFits log' key hash := by
  intro r hr
  rw [latest_of_rows_map h hkey] at hr
  obtain ⟨r', hr', rfl⟩ := Option.map_eq_some_iff.mp hr
  rw [hreason, hvalue]
  exact hfits r' hr'

/-! ## The invariant -/

/-- A state row carries the hash of its value, and the newest audit row of its key agrees. -/
def StateFits (rt : Runtime) (log : AuditLog) (key : String) (row : StateRow) : Prop :=
  row.valueHash = some (rt.hexdigest row.value) ∧ NewestFits log key (rt.hexdigest row.value)

/-- The invariant of a store whose deep verification succeeds. -/
structure DeepOk (rt : Runtime) (db : Db) : Prop where
  ledger : LedgerOk rt db.auditLog
  content : ContentAccepted rt db
  states : ∀ key row, db.stateVariables.get? key = some row → StateFits rt db.auditLog key row

lemma deepOk_empty : DeepOk rt Db.empty := ⟨ledgerOk_empty, nofun, nofun⟩

lemma verifyAuditLog_deep_of_deepOk {db : Db} (h : DeepOk rt db) :
    (db.verifyAuditLog rt true).isValid = true := by
  refine verifyAuditLog_deep_iff.mpr ⟨h.ledger.chained, h.content, fun key row hrow => ?_⟩
  obtain ⟨hhash, hfits⟩ := h.states key row hrow
  refine crossCheckRow_eq_none_iff.mpr fun hash heq _ => ?_
  rw [hhash, Option.some.injEq] at heq
  subst heq
  exact ⟨rfl, hfits⟩

lemma deepOk_of_subtable {db : Db} (h : DeepOk rt db) {table : StateTable}
    (hsub : ∀ key row, table.get? key = some row → db.stateVariables.get? key = some row) :
    DeepOk rt { db with stateVariables := table } :=
  ⟨h.ledger, h.content, fun key row hrow => h.states key row (hsub key row hrow)⟩

/-! ## Writers -/

/-- The content of a new entry has the hash that the entry carries, or is a tombstone. -/
def ContentFits (rt : Runtime) (e : NewEntry) : Prop :=
  rt.hexdigest e.valJson = e.valueHash ∨
    PyString.stripWith (· = '"') e.valJson = deletedMarker ∧
      e.valueHash ∈ [rt.hexdigest deletedMarker, rt.hexdigest deletedMarkerJson]

/-- A row of the state table agrees with an entry that becomes the newest of its key. -/
def EntryFits (rt : Runtime) (e : NewEntry) (row : StateRow) : Prop :=
  e.reason ≠ "delete" ∧ e.valueHash = rt.hexdigest row.value

lemma contentAccepted_of_contentFits {e : NewEntry} (h : ContentFits rt e)
    (reg : RedactionRegistry) (log : AuditLog) (stored : PyFloat) :
    contentAccepted rt reg (appendedRow rt log e stored) = true := by
  by_cases heq : rt.hexdigest e.valJson = e.valueHash
  · simp [contentAccepted, appendedRow, heq]
  · have htomb := h.resolve_left heq
    simp only [contentAccepted, appendedRow, heq, ne_eq, not_false_eq_true, if_true, htomb.1,
      htomb.2, decide_true, Bool.and_self, Bool.true_or]

/-- **Append rule.** The state table may already have been changed for the new entry, under the
entry's key. -/
lemma deepOk_append {db : Db} {e : NewEntry} (hledger : LedgerOk rt db.auditLog)
    (hcontent : ContentAccepted rt db) (hts : e.timestamp.sqlReal = some e.timestamp)
    (hfits : ContentFits rt e)
    (hstates : ∀ key row, db.stateVariables.get? key = some row →
      row.valueHash = some (rt.hexdigest row.value) ∧
      (key = e.key → EntryFits rt e row) ∧
      (key ≠ e.key → NewestFits db.auditLog key (rt.hexdigest row.value))) :
    DeepOk rt (db.append rt e).1 := by
  rw [Db.append]
  rcases append_cases (numbered_of_ledgerOk hledger) e with ⟨hnone, -⟩ | ⟨stored, log', hstored, hok, hrows⟩
  · rw [hts] at hnone
    cases hnone
  · rw [hts, Option.some.injEq] at hstored
    subst hstored
    rw [hok]
    refine ⟨ledgerOk_of_rows_eq hledger hrows, ?_, fun key row hrow => ?_⟩
    · intro r hr
      rw [hrows] at hr
      rcases List.mem_append.mp hr with hr | hr
      · exact hcontent r hr
      · rw [List.mem_singleton.mp hr]
        exact contentAccepted_of_contentFits hfits _ _ _
    · obtain ⟨hhash, hsame, hother⟩ := hstates key row hrow
      refine ⟨hhash, fun r hr => ?_⟩
      rw [latest_of_rows_concat hrows] at hr
      change (if e.key = key then some (appendedRow rt db.auditLog e e.timestamp)
        else db.auditLog.latest key) = some r at hr
      by_cases hkey : e.key = key
      · rw [if_pos hkey, Option.some.injEq] at hr
        obtain ⟨hreason, hvalue⟩ := hsame hkey.symm
        rw [← hr]
        exact ⟨fun h => hreason (Option.some.inj h), hvalue⟩
      · rw [if_neg hkey] at hr
        exact hother (Ne.symm hkey) r hr

/-- The condition on a call under which it raises no false alarm. -/
def Quiet (rt : Runtime) (db : Db) : KvCall → Prop
  | .setSync a _ => a.reason ≠ "delete"
  | .appendAuditLog entry now => ∀ e, entry.toNewEntry rt now = .ok e →
      StoredFaithfully e.timestamp ∧ ContentFits rt e ∧
        ∀ row, db.stateVariables.get? e.key = some row → EntryFits rt e row
  | .recordSleepCheckpoint a now => db.checkpoints.contains a.checkpointId = true ∨
      ∀ row, db.stateVariables.get? a.checkpointId = some row → EntryFits rt (a.entry rt now) row
  | _ => True

lemma deepOk_setSync {db : Db} (h : DeepOk rt db) {a : SetArgs} (now : ℚ)
    (hreason : a.reason ≠ "delete") : DeepOk rt (db.setSync rt a now).1 := by
  refine deepOk_append h.ledger h.content rfl (Or.inl rfl) fun key row hrow => ?_
  by_cases hkey : a.key = key
  · subst hkey
    rw [StateTable.get?_setState_self, Option.some.injEq] at hrow
    subst hrow
    exact ⟨rfl, fun _ => ⟨hreason, rfl⟩, fun hne => absurd rfl hne⟩
  · rw [StateTable.get?_setState_of_ne _ hkey] at hrow
    obtain ⟨hhash, hfits⟩ := h.states key row hrow
    exact ⟨hhash, fun heq => absurd heq.symm hkey, fun _ => hfits⟩

lemma deepOk_deleteSync {db : Db} (h : DeepOk rt db) (key : String) (now : ℚ) :
    DeepOk rt (db.deleteSync rt key now).1 := by
  have hsub : ∀ key' row, (db.stateVariables.erase key).get? key' = some row →
      db.stateVariables.get? key' = some row ∧ key ≠ key' := by
    intro key' row hrow
    by_cases hkey : key = key'
    · subst hkey
      rw [PyDict.get?_erase_self] at hrow
      cases hrow
    · rw [PyDict.get?_erase_of_ne _ hkey] at hrow
      exact ⟨hrow, hkey⟩
  unfold Db.deleteSync StateTable.deleteState
  cases db.stateVariables.contains key with
  | false => exact deepOk_of_subtable h fun key' row hrow => (hsub key' row hrow).1
  | true =>
      refine deepOk_append h.ledger h.content rfl (Or.inl rfl) fun key' row hrow => ?_
      obtain ⟨hold, hne⟩ := hsub key' row hrow
      obtain ⟨hhash, hfits⟩ := h.states key' row hold
      exact ⟨hhash, fun heq => absurd heq.symm hne, fun _ => hfits⟩

lemma deepOk_appendAuditLog {db : Db} (h : DeepOk rt db) {entry : AuditEntry} {now : ℚ}
    (hquiet : Quiet rt db (.appendAuditLog entry now)) :
    DeepOk rt (db.appendAuditLog rt entry now).1 := by
  rw [appendAuditLog_eq]
  cases hconv : entry.toNewEntry rt now with
  | error err => exact h
  | ok e =>
      obtain ⟨hts, hcontent, hlive⟩ := hquiet e hconv
      by_cases hnan : e.timestamp = .nan
      · -- the time stamp column refuses the row, so nothing happens
        rcases @append_cases rt _ (numbered_of_ledgerOk h.ledger) e with
          ⟨-, herr⟩ | ⟨stored, log', hstored, -, -⟩
        · show DeepOk rt (db.append rt e).1
          rw [Db.append, herr]
          exact h
        · rw [hnan] at hstored
          cases hstored
      · refine deepOk_append h.ledger h.content
          ((PyFloat.sqlReal_eq_self_iff _).mpr ⟨hts, hnan⟩) hcontent fun key row hrow => ?_
        obtain ⟨hhash, hfits⟩ := h.states key row hrow
        exact ⟨hhash, fun heq => hlive row (heq ▸ hrow), fun _ => hfits⟩

lemma deepOk_recordSleepCheckpoint {db : Db} (h : DeepOk rt db) {a : Db.CheckpointArgs} {now : ℚ}
    (hquiet : Quiet rt db (.recordSleepCheckpoint a now)) :
    DeepOk rt (db.recordSleepCheckpoint rt a now).1 := by
  unfold Db.recordSleepCheckpoint
  split_ifs
  · exact h
  · cases hrec : Db.recordCheckpoint db.checkpoints a now with
    | error err => exact h
    | ok result =>
        obtain ⟨table, created⟩ := result
        cases created with
        | false => exact h
        | true =>
            have hnew : ¬ db.checkpoints.contains a.checkpointId = true := by
              intro hold
              rw [Db.recordCheckpoint, if_pos hold] at hrec
              cases hrec
            refine deepOk_append h.ledger h.content rfl (Or.inl rfl) fun key row hrow => ?_
            obtain ⟨hhash, hfits⟩ := h.states key row hrow
            refine ⟨hhash, fun heq => ?_, fun _ => hfits⟩
            change key = a.checkpointId at heq
            exact hquiet.resolve_left hnew row (heq ▸ hrow)

/-! ## Maintenance -/

/-- A redaction replaces a content and registers exactly the row that it touches. -/
lemma deepOk_redactAuditEntry {db : Db} (h : DeepOk rt db) (seq : ℤ) (reason : String)
    (redactedValue : Option String) (today : String) (now : ℚ) :
    DeepOk rt (db.redactAuditEntry seq reason redactedValue today now).1 := by
  unfold Db.redactAuditEntry AtlasMemory.redactAuditEntry
  dsimp only
  split_ifs with hmarker hreason
  · exact h
  · exact h
  · cases hfind : db.auditLog.rows.find? (fun r => decide (r.seq = seq)) with
    | none => exact h
    | some row =>
        have hseq : row.seq = seq := by simpa using List.find?_some hfind
        have hrow : row ∈ db.auditLog.rows := List.mem_of_find?_eq_some hfind
        refine ⟨ledgerOk_setNewValue h.ledger _ _, ?_, fun key row' hrow' => ?_⟩
        · intro r hr
          obtain ⟨r', hr', rfl⟩ := List.mem_map.mp hr
          by_cases hsame : r'.seq = seq
          · -- the redacted row: its marker is registered under its own key and hash
            have heq : r' = row := AuditLog.eq_of_seq_eq hr' hrow (hsame.trans hseq.symm)
            have hstarts : PyString.startsWith (redactedValue.getD
                (redactionMarkerPrefix ++ reason ++ " " ++ today)) redactionMarkerPrefix = true := by
              simpa using hmarker
            subst heq
            simp [contentAccepted, hsame, hstarts, RedactionRegistry.isAuthorized]
          · have hold := h.content r' hr'
            have hreg : (db.redactions.set row.seq
                ⟨row.key, row.valueHash, reason, .finite now⟩).get? r'.seq =
                  db.redactions.get? r'.seq :=
              PyDict.get?_set_of_ne _ _ (fun heq => hsame (heq.symm.trans hseq))
            simp only [if_neg hsame]
            simpa only [contentAccepted, RedactionRegistry.isAuthorized, hreg] using hold
        · obtain ⟨hhash, hfits⟩ := h.states key row' hrow'
          refine ⟨hhash, newestFits_of_rows_map (f := fun r => if r.seq = seq then _ else r) rfl
            ?_ ?_ ?_ hfits⟩ <;>
          · intro r
            by_cases hr : r.seq = seq <;> simp [hr]

lemma deepOk_healAuditLogChain {db : Db} (h : DeepOk rt db) :
    DeepOk rt (db.healAuditLogChain rt).1 := by
  have hrows := rows_heal_of_ledgerOk h.ledger
  refine ⟨ledgerOk_heal h.ledger, ?_, fun key row hrow => ?_⟩
  · intro r hr
    change r ∈ (db.auditLog.heal rt).rows at hr
    rw [hrows] at hr
    obtain ⟨r', hr', rfl⟩ := List.mem_map.mp hr
    exact h.content r' hr'
  · change (db.stateVariables.clampConfidences).get? key = some row at hrow
    rw [StateTable.clampConfidences, PyDict.get?_mapValues] at hrow
    obtain ⟨row', hrow', rfl⟩ := Option.map_eq_some_iff.mp hrow
    obtain ⟨hhash, hfits⟩ := h.states key row' hrow'
    exact ⟨hhash, newestFits_of_rows_map hrows (fun _ => rfl) (fun _ => rfl) (fun _ => rfl) hfits⟩

/-- **A quiet call keeps the invariant.** -/
lemma deepOk_dbAfter {db : Db} (h : DeepOk rt db) (c : KvCall) (hc : Quiet rt db c) :
    DeepOk rt (VerifiedKVStore.dbAfter rt db c) := by
  cases c with
  | setSync a now => exact deepOk_setSync h now hc
  | deleteSync key now => exact deepOk_deleteSync h key now
  | appendAuditLog entry now => exact deepOk_appendAuditLog h hc
  | recordSleepCheckpoint a now => exact deepOk_recordSleepCheckpoint h hc
  | redactAuditEntry seq reason redactedValue today now =>
      exact deepOk_redactAuditEntry h seq reason redactedValue today now
  | healAuditLogChain => exact deepOk_healAuditLogChain h
  | purgeStaleProbeKeys prefixes =>
      simp only [VerifiedKVStore.dbAfter, Db.purgeStaleProbeKeys]
      split_ifs
      · exact h
      · exact deepOk_of_subtable h fun _ _ hrow => StateTable.get?_of_get?_purge hrow
  | verifyAuditLog deep => exact h
  | savepoint name => exact h
  | rollbackSavepoint name => exact h
  | releaseSavepoint name => exact h

/-! ## Runs -/

/-- Writes, an annotation under a key of its own, a checkpoint, a redaction and a deletion. -/
def quietCalls : List KvCall :=
  [.setSync { key := "k", value := .bool true } 1,
    .appendAuditLog ⟨.missing, some "note", .given (.str "v"), none, .missing, none⟩ 1,
    .recordSleepCheckpoint { checkpointId := "night", lastProcessedStepId := 7 } 1,
    .redactAuditEntry 1 "GDPR" none "2026-01-01" 2,
    .deleteSync "k" 2]

end AtlasMemory
