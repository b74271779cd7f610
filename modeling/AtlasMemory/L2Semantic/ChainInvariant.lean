import AtlasMemory.L2Semantic.KvStore

/-!
# The ledger is an append-only chain

Every writer of the store takes the tip from the table, so in a store that was used only through
its calls the rows are numbered from one without a gap and hash-chained.  `LedgerOk` is that
invariant.  It is stable under savepoints because it is kept for every snapshot as well.

There is one way to break it.  The entry hash covers the text of the time stamp that the caller
gave, and the verification recomputes it from the time stamp that the table gives back; a real
column does not give back `-0.0`.  `chain_of_run` excludes that time stamp and nothing else.
-/

namespace AtlasMemory

open HashChain

variable {rt : Runtime}

/-! ## The invariant -/

/-- The sequence numbers `1..n`. -/
def firstSeqs (n : ℕ) : List ℤ := (List.range n).map fun i : ℕ => (i : ℤ) + 1

lemma firstSeqs_succ (n : ℕ) : firstSeqs (n + 1) = firstSeqs n ++ [(n : ℤ) + 1] := by
  simp [firstSeqs, List.range_succ]

lemma lt_of_mem_firstSeqs {n : ℕ} {k : ℤ} (h : k ∈ firstSeqs n) : k < (n : ℤ) + 1 := by
  obtain ⟨i, hi, rfl⟩ := List.mem_map.mp h
  have hlt : i < n := List.mem_range.mp hi
  omega

/-- The rows are hash-chained from the genesis hash on. -/
def RowsChained (rt : Runtime) (rows : List AuditRow) : Prop :=
  Chained AuditRow.prevHash AuditRow.entryHash rt.entryStamp genesisHash rows

/-- The rows are numbered `1..n` and none has an empty hash. -/
structure Numbered (log : AuditLog) : Prop where
  seqs : log.rows.map AuditRow.seq = firstSeqs log.rows.length
  hash_ne : ∀ r ∈ log.rows, r.entryHash ≠ ""

/-- The invariant of the ledger: chained, and numbered `1..n`. -/
structure LedgerOk (rt : Runtime) (log : AuditLog) : Prop where
  chained : RowsChained rt log.rows
  seqs : log.rows.map AuditRow.seq = firstSeqs log.rows.length

lemma numbered_empty : Numbered AuditLog.empty :=
  ⟨rfl, fun _ hr => absurd hr List.not_mem_nil⟩

lemma ledgerOk_empty : LedgerOk rt AuditLog.empty := ⟨trivial, rfl⟩

lemma numbered_of_ledgerOk {log : AuditLog} (h : LedgerOk rt log) : Numbered log where
  seqs := h.seqs
  hash_ne r hr := by
    rw [← stamp_eq_of_mem h.chained hr]
    exact rt.hexdigest_ne_empty _

/-! ## Verification decides the chain -/

lemma verifyRows_eq_ok_iff {reg : RedactionRegistry} {deep : Bool} {origin tip : String}
    {rows : List AuditRow} :
    verifyRows rt reg deep origin rows = .ok tip ↔
      Chained AuditRow.prevHash AuditRow.entryHash rt.entryStamp origin rows ∧
      (deep = true → ∀ r ∈ rows, contentAccepted rt reg r = true) ∧
      HashChain.tip AuditRow.entryHash origin rows = tip := by
  induction rows generalizing origin with
  | nil => simp [verifyRows, Chained]
  | cons r rs ih =>
      rw [verifyRows, Chained, tip_cons]
      by_cases hprev : r.prevHash = origin
      · rw [if_neg (not_not.mpr hprev)]
        by_cases hcontent : (deep && !contentAccepted rt reg r) = true
        · rw [if_pos hcontent]
          simp only [Bool.and_eq_true, Bool.not_eq_true'] at hcontent
          have hr : ¬ ∀ r' ∈ r :: rs, contentAccepted rt reg r' = true := fun h => by
            have hr := h r List.mem_cons_self
            rw [hcontent.2] at hr
            cases hr
          constructor
          · intro h
            cases h
          · rintro ⟨-, hall, -⟩
            exact absurd (hall hcontent.1) hr
        · rw [if_neg hcontent]
          have hr : deep = true → contentAccepted rt reg r = true := by
            intro hdeep
            simpa [hdeep] using hcontent
          by_cases hstamp : rt.entryStamp r r.prevHash = r.entryHash
          · rw [if_neg (not_not.mpr hstamp), ih]
            constructor
            · rintro ⟨hchain, hall, htip⟩
              exact ⟨⟨hprev, hstamp, hchain⟩,
                fun hdeep => List.forall_mem_cons.mpr ⟨hr hdeep, hall hdeep⟩, htip⟩
            · rintro ⟨⟨-, -, hchain⟩, hall, htip⟩
              exact ⟨hchain, fun hdeep => (List.forall_mem_cons.mp (hall hdeep)).2, htip⟩
          · simp [hstamp]
      · simp [hprev]

lemma isValid_of_error {reg : RedactionRegistry} {deep : Bool} {origin : String}
    {rows : List AuditRow} {v : Verification} (h : verifyRows rt reg deep origin rows = .error v) :
    v.isValid = false := by
  induction rows generalizing origin with
  | nil => cases h
  | cons r rs ih =>
      rw [verifyRows] at h
      split_ifs at h
      · rw [← Except.error.inj h]
      · rw [← Except.error.inj h]
      · rw [← Except.error.inj h]
      · exact ih h

/-- A shallow verification succeeds exactly on a chained log. -/
lemma verifyAuditLog_shallow_iff {db : Db} :
    (db.verifyAuditLog rt false).isValid = true ↔ RowsChained rt db.auditLog.rows := by
  rw [Db.verifyAuditLog]
  constructor
  · intro h
    cases hv : verifyRows rt db.redactions false genesisHash db.auditLog.rows with
    | error verdict =>
        rw [hv] at h
        exact absurd h (by simp [isValid_of_error hv])
    | ok tip => exact (verifyRows_eq_ok_iff.mp hv).1
  · intro h
    have hok := (@verifyRows_eq_ok_iff rt db.redactions false genesisHash
      (HashChain.tip AuditRow.entryHash genesisHash db.auditLog.rows) db.auditLog.rows).mpr
      ⟨h, nofun, rfl⟩
    rw [hok]
    rfl

/-! ## One append -/

lemma getLastEntry_of_numbered {log : AuditLog} (h : Numbered log) :
    log.getLastEntry =
      ((log.rows.length : ℤ) + 1, HashChain.tip AuditRow.entryHash genesisHash log.rows) := by
  rw [AuditLog.getLastEntry]
  cases hlast : log.rows.getLast? with
  | none =>
      rw [List.getLast?_eq_none_iff.mp hlast]
      rfl
  | some r =>
      obtain ⟨before, hrows⟩ := List.getLast?_eq_some_iff.mp hlast
      have hne : r.entryHash ≠ "" := h.hash_ne r (by simp [hrows])
      have hseq : r.seq = (log.rows.length : ℤ) := by
        have hseqs := h.seqs
        rw [hrows, List.map_append, List.length_append, List.length_singleton, firstSeqs_succ] at hseqs
        have hr := List.append_inj_right' hseqs rfl
        simp only [List.map_cons, List.map_nil, List.cons.injEq, and_true] at hr
        simp [hr, hrows]
      show (if r.entryHash ≠ "" then (r.seq + 1, r.entryHash) else (1, genesisHash)) = _
      rw [if_pos hne, hseq, hrows, tip_concat]

/-- The row that an append adds to a numbered log, with the time stamp as it is stored. -/
def appendedRow (rt : Runtime) (log : AuditLog) (e : NewEntry) (stored : PyFloat) : AuditRow where
  seq := (log.rows.length : ℤ) + 1
  timestamp := stored
  key := e.key
  valueHash := e.valueHash
  prevHash := HashChain.tip AuditRow.entryHash genesisHash log.rows
  entryHash := rt.computeEntryHash ((log.rows.length : ℤ) + 1) e.timestamp e.key e.valueHash
    (HashChain.tip AuditRow.entryHash genesisHash log.rows)
  newValue := some e.valJson
  confidence := e.confidence.sqlReal
  reason := some e.reason

/-- **What an append does** to a numbered log: a time stamp that the column refuses makes it
raise, and otherwise one row is added at the end. -/
lemma append_cases {log : AuditLog} (h : Numbered log) (e : NewEntry) :
    (e.timestamp.sqlReal = none ∧ log.append rt e = .error (notNullError "timestamp")) ∨
    ∃ stored log', e.timestamp.sqlReal = some stored ∧
      log.append rt e = .ok (log', (appendedRow rt log e stored).entryHash) ∧
      log'.rows = log.rows ++ [appendedRow rt log e stored] := by
  rw [AuditLog.append, getLastEntry_of_numbered h]
  cases hts : e.timestamp.sqlReal with
  | none => exact Or.inl ⟨rfl, by simp [AuditLog.insertAuditEntry, hts]⟩
  | some stored =>
      have hlt : ∀ r ∈ log.rows, r.seq < (appendedRow rt log e stored).seq := fun r hr =>
        lt_of_mem_firstSeqs (h.seqs ▸ List.mem_map_of_mem hr)
      obtain ⟨log', hins, hrows⟩ := AuditLog.insert_of_forall_lt hlt
      refine Or.inr ⟨stored, log', rfl, ?_, hrows⟩
      have hentry : log.insertAuditEntry ((log.rows.length : ℤ) + 1)
          (HashChain.tip AuditRow.entryHash genesisHash log.rows)
          (appendedRow rt log e stored).entryHash e = .ok log' := by
        rw [AuditLog.insertAuditEntry, hts]
        unfold appendedRow at hins ⊢
        dsimp only
        rw [hins]
      unfold appendedRow at hentry ⊢
      dsimp only at hentry ⊢
      rw [hentry]

lemma numbered_of_rows_eq {log log' : AuditLog} (h : Numbered log) {e : NewEntry}
    {stored : PyFloat} (hrows : log'.rows = log.rows ++ [appendedRow rt log e stored]) :
    Numbered log' where
  seqs := by
    rw [hrows, List.map_append, h.seqs, List.length_append, List.length_singleton, firstSeqs_succ]
    rfl
  hash_ne r hr := by
    rw [hrows] at hr
    rcases List.mem_append.mp hr with hr | hr
    · exact h.hash_ne r hr
    · rw [List.mem_singleton.mp hr]
      exact rt.hexdigest_ne_empty _

/-- The new row fits the chain when its time stamp is stored as it was given. -/
lemma ledgerOk_of_rows_eq {log log' : AuditLog} (h : LedgerOk rt log) {e : NewEntry}
    (hrows : log'.rows = log.rows ++ [appendedRow rt log e e.timestamp]) : LedgerOk rt log' where
  chained := by
    rw [RowsChained, hrows]
    exact chained_concat h.chained rfl rfl
  seqs := (numbered_of_rows_eq (numbered_of_ledgerOk h) hrows).seqs

/-- The rows of `new` are those of `old` with at most one more at the end. -/
def Extends (old new : AuditLog) : Prop :=
  ∃ tail, tail.length ≤ 1 ∧ new.rows = old.rows ++ tail

lemma extends_refl (log : AuditLog) : Extends log log := ⟨[], by simp, by simp⟩

/-- A time stamp that a real column either gives back as it is or refuses. -/
def StoredFaithfully (timestamp : PyFloat) : Prop := timestamp ≠ .negZero

/-- An append extends a numbered log, and keeps it numbered. -/
lemma numbered_append (db : Db) (h : Numbered db.auditLog) (e : NewEntry) :
    Extends db.auditLog (db.append rt e).1.auditLog ∧ Numbered (db.append rt e).1.auditLog := by
  rw [Db.append]
  rcases append_cases h e with ⟨-, herr⟩ | ⟨stored, log', -, hok, hrows⟩
  · rw [herr]
    exact ⟨extends_refl _, h⟩
  · rw [hok]
    exact ⟨⟨[_], by simp, hrows⟩, numbered_of_rows_eq h hrows⟩

/-- The rows after an append whose time stamp the column takes. -/
lemma rows_append (db : Db) (h : Numbered db.auditLog) {e : NewEntry} {stored : PyFloat}
    (hstored : e.timestamp.sqlReal = some stored) :
    (db.append rt e).1.auditLog.rows =
      db.auditLog.rows ++ [appendedRow rt db.auditLog e stored] := by
  rw [Db.append]
  rcases @append_cases rt _ h e with ⟨hrefused, -⟩ | ⟨stored', log', hstored', hok, hrows⟩
  · rw [hrefused] at hstored
    cases hstored
  · rw [hstored] at hstored'
    rw [hok, Option.some.inj hstored']
    exact hrows

/-- An append keeps the chain when the time stamp is stored faithfully. -/
lemma ledgerOk_append (db : Db) (h : LedgerOk rt db.auditLog) {e : NewEntry}
    (hstored : StoredFaithfully e.timestamp) : LedgerOk rt (db.append rt e).1.auditLog := by
  rw [Db.append]
  rcases append_cases (numbered_of_ledgerOk h) e with ⟨-, herr⟩ | ⟨stored, log', hts, hok, hrows⟩
  · rw [herr]
    exact h
  · rw [hok]
    refine ledgerOk_of_rows_eq h (e := e) ?_
    have hsame : stored = e.timestamp := by
      cases hcase : e.timestamp <;> rw [hcase] at hts <;>
        first
          | exact (Option.some.inj hts).symm
          | exact absurd hcase hstored
          | cases hts
    exact hsame ▸ hrows

/-! ## The calls -/

/-- `append_audit_log` converts the entry first, and then appends. -/
lemma appendAuditLog_eq (db : Db) (entry : AuditEntry) (now : ℚ) :
    db.appendAuditLog rt entry now = match entry.toNewEntry rt now with
      | .error err => (db, .error err)
      | .ok e => db.append rt e := by
  rw [Db.appendAuditLog, AuditLog.appendAuditLog]
  cases entry.toNewEntry rt now with
  | error err => rfl
  | ok e => rfl

/-- The time stamp of a converted entry is the given one, or the reading of the clock. -/
lemma timestamp_of_toNewEntry {entry : AuditEntry} {now : ℚ} {e : NewEntry}
    (h : entry.toNewEntry rt now = .ok e) :
    entry.timestamp = .given e.timestamp ∨ e.timestamp = .finite now := by
  obtain ⟨timestamp, key, value, valueHash, confidence, reason⟩ := entry
  cases timestamp <;> cases value <;> cases confidence <;>
    simp [AuditEntry.toNewEntry, AuditEntry.rawValue, Field.get, bind, Except.bind, pure,
      Except.pure] at h <;> simp [← h]

lemma key_of_toNewEntry {entry : AuditEntry} {now : ℚ} {e : NewEntry}
    (h : entry.toNewEntry rt now = .ok e) : e.key = entry.key.getD "" := by
  obtain ⟨timestamp, key, value, valueHash, confidence, reason⟩ := entry
  cases timestamp <;> cases value <;> cases confidence <;>
    simp [AuditEntry.toNewEntry, AuditEntry.rawValue, Field.get, bind, Except.bind, pure,
      Except.pure] at h <;> simp [← h]

/-- `set_sync` writes the table and appends. -/
lemma setSync_eq_append (db : Db) (a : SetArgs) (now : ℚ) :
    ∃ db' : Db, db'.auditLog = db.auditLog ∧
      db.setSync rt a now = db'.append rt (a.entry rt now) := by
  refine ⟨_, ?_, rfl⟩
  rfl

/-- `record_sleep_checkpoint` does nothing to the log and the variables, or it appends. -/
lemma recordSleepCheckpoint_cases (db : Db) (a : Db.CheckpointArgs) (now : ℚ) :
    (db.recordSleepCheckpoint rt a now).1 = db ∨
      ∃ table, (db.recordSleepCheckpoint rt a now).1 =
        (Db.append rt { db with checkpoints := table } (a.entry rt now)).1 := by
  unfold Db.recordSleepCheckpoint
  split_ifs
  · exact Or.inl rfl
  · cases Db.recordCheckpoint db.checkpoints a now with
    | error err => exact Or.inl rfl
    | ok result =>
        obtain ⟨table, created⟩ := result
        cases created with
        | false => exact Or.inl rfl
        | true => exact Or.inr ⟨table, rfl⟩

/-- The only condition on a call: a time stamp that the caller of `append_audit_log` chooses is
not negative zero. -/
def TimestampStored : KvCall → Prop
  | .appendAuditLog entry _ => ∀ x, entry.timestamp = .given x → StoredFaithfully x
  | _ => True

/-- What a call may do to the log.  Redaction changes the content of its row and nothing else;
healing changes confidences only; every other call but a rollback adds at most one row. -/
def LogStep (old new : AuditLog) : KvCall → Prop
  | .redactAuditEntry seq _ _ _ _ => new = old ∨ ∃ marker, new = old.setNewValue seq marker
  | .healAuditLogChain => new.rows = old.rows.map fun r =>
      { r with confidence := some (.finite (PyFloat.clampUnit r.confidence)) }
  | .rollbackSavepoint _ => True
  | _ => Extends old new

/-- Setting a content column keeps the chain: no hash covers it directly. -/
lemma rowsChained_setNewValue {log : AuditLog} (h : RowsChained rt log.rows) (n : ℤ)
    (v : Option String) : RowsChained rt (log.setNewValue n v).rows := by
  refine (chained_map ?_ ?_ ?_).mpr h
  · intro r
    by_cases hr : r.seq = n <;> simp [hr]
  · intro r
    by_cases hr : r.seq = n <;> simp [hr]
  · intro r prev
    by_cases hr : r.seq = n <;> simp [hr, Runtime.entryStamp]

lemma numbered_setNewValue {log : AuditLog} (h : Numbered log) (n : ℤ) (v : Option String) :
    Numbered (log.setNewValue n v) where
  seqs := by
    have hseqs : (log.setNewValue n v).rows.map AuditRow.seq = log.rows.map AuditRow.seq := by
      rw [AuditLog.setNewValue, AuditLog.mapRows, List.map_map]
      refine List.map_congr_left fun r _ => ?_
      by_cases hr : r.seq = n <;> simp [hr]
    rw [hseqs, h.seqs, AuditLog.setNewValue, AuditLog.mapRows, List.length_map]
  hash_ne r hr := by
    obtain ⟨r', hr', rfl⟩ := List.mem_map.mp hr
    have hne := h.hash_ne r' hr'
    by_cases hseq : r'.seq = n
    · simpa [hseq] using hne
    · simpa [hseq] using hne

lemma ledgerOk_setNewValue {log : AuditLog} (h : LedgerOk rt log) (n : ℤ) (v : Option String) :
    LedgerOk rt (log.setNewValue n v) where
  chained := rowsChained_setNewValue h.chained n v
  seqs := (numbered_setNewValue (numbered_of_ledgerOk h) n v).seqs

/-- On a chained log, healing rewrites each hash to what it was. -/
lemma rows_heal_of_ledgerOk {log : AuditLog} (h : LedgerOk rt log) :
    (log.heal rt).rows = log.rows.map fun r =>
      { r with confidence := some (.finite (PyFloat.clampUnit r.confidence)) } :=
  relink_of_chained h.chained

lemma rowsChained_heal (log : AuditLog) : RowsChained rt (log.heal rt).rows :=
  @chained_relink _ _ AuditRow.prevHash AuditRow.entryHash rt.entryStamp healRow
    (fun _ _ _ => rfl) (fun _ _ _ => rfl) (fun _ _ _ _ => rfl) _ _

lemma numbered_heal {log : AuditLog} (h : Numbered log) : Numbered (log.heal rt) where
  seqs := by
    have hseqs : (log.heal rt).rows.map AuditRow.seq = log.rows.map AuditRow.seq :=
      map_relink seq_healRow genesisHash log.rows
    have hlen : (log.heal rt).rows.length = log.rows.length := by
      rw [← List.length_map AuditRow.seq, hseqs, List.length_map]
    rw [hlen, hseqs, h.seqs]
  hash_ne r hr := by
    rw [← stamp_eq_of_mem (rowsChained_heal log) hr]
    exact rt.hexdigest_ne_empty _

lemma ledgerOk_heal {log : AuditLog} (h : LedgerOk rt log) : LedgerOk rt (log.heal rt) where
  chained := rowsChained_heal log
  seqs := (numbered_heal (numbered_of_ledgerOk h)).seqs

lemma redactAuditEntry_log (log : AuditLog) (reg : RedactionRegistry) (seq : ℤ)
    (reason : String) (redactedValue : Option String) (today : String) (now : ℚ) :
    (redactAuditEntry log reg seq reason redactedValue today now).1 = log ∨
      ∃ marker, (redactAuditEntry log reg seq reason redactedValue today now).1 =
        log.setNewValue seq marker := by
  unfold redactAuditEntry
  dsimp only
  split_ifs
  · exact Or.inl rfl
  · exact Or.inl rfl
  · cases log.rows.find? (fun r => decide (r.seq = seq)) with
    | none => exact Or.inl rfl
    | some row => exact Or.inr ⟨_, rfl⟩

/-- **What a call other than a rollback does to the log**: nothing, one append, a new content of one
row, or a healing. -/
lemma dbAfter_cases (db : Db) (c : KvCall) :
    ((VerifiedKVStore.dbAfter rt db c).auditLog = db.auditLog ∧ c ≠ .healAuditLogChain) ∨
    (∃ (db' : Db) (e : NewEntry), db'.auditLog = db.auditLog ∧
      VerifiedKVStore.dbAfter rt db c = (db'.append rt e).1 ∧
      (∀ old new, Extends old new → LogStep old new c) ∧
      (TimestampStored c → StoredFaithfully e.timestamp)) ∨
    (∃ seq reason redactedValue today now marker,
      c = .redactAuditEntry seq reason redactedValue today now ∧
      (VerifiedKVStore.dbAfter rt db c).auditLog = db.auditLog.setNewValue seq marker) ∨
    (c = .healAuditLogChain ∧
      (VerifiedKVStore.dbAfter rt db c).auditLog = db.auditLog.heal rt) := by
  cases c with
  | setSync a now =>
      exact Or.inr (Or.inl ⟨{ db with
        stateVariables := db.stateVariables.setState a.key a.value.dumps
          (PyFloat.clampUnit a.confidence) now
          (Json.obj (a.storedMetadata rt now).entries).dumps (rt.hexdigest a.value.dumps) },
        a.entry rt now, rfl, rfl, fun _ _ h => h, fun _ => by rintro ⟨⟩⟩)
  | deleteSync key now =>
      by_cases hdel : db.stateVariables.contains key = true
      · refine Or.inr (Or.inl ⟨{ db with stateVariables := db.stateVariables.erase key },
          Db.deleteEntry rt key now, rfl, ?_, fun _ _ h => h, fun _ => by rintro ⟨⟩⟩)
        simp only [VerifiedKVStore.dbAfter, Db.deleteSync, StateTable.deleteState, hdel, if_true]
      · refine Or.inl ⟨?_, by rintro ⟨⟩⟩
        simp [VerifiedKVStore.dbAfter, Db.deleteSync, StateTable.deleteState, hdel]
  | appendAuditLog entry now =>
      simp only [VerifiedKVStore.dbAfter, appendAuditLog_eq]
      cases hconv : entry.toNewEntry rt now with
      | error err => exact Or.inl ⟨rfl, by rintro ⟨⟩⟩
      | ok e =>
          refine Or.inr (Or.inl ⟨db, e, rfl, rfl, fun _ _ h => h, fun hstored => ?_⟩)
          rcases timestamp_of_toNewEntry hconv with hgiven | hnow
          · exact hstored _ hgiven
          · rw [hnow]
            rintro ⟨⟩
  | recordSleepCheckpoint a now =>
      simp only [VerifiedKVStore.dbAfter, Db.recordSleepCheckpoint]
      split_ifs
      · exact Or.inl ⟨rfl, by rintro ⟨⟩⟩
      · cases hrec : Db.recordCheckpoint db.checkpoints a now with
        | error err => exact Or.inl ⟨rfl, by rintro ⟨⟩⟩
        | ok result =>
            obtain ⟨table, created⟩ := result
            cases created with
            | false => exact Or.inl ⟨rfl, by rintro ⟨⟩⟩
            | true =>
                exact Or.inr (Or.inl ⟨{ db with checkpoints := table }, a.entry rt now, rfl, rfl,
                  fun _ _ h => h, fun _ => by rintro ⟨⟩⟩)
  | redactAuditEntry seq reason redactedValue today now =>
      rcases redactAuditEntry_log db.auditLog db.redactions seq reason redactedValue today now with
        heq | ⟨marker, heq⟩
      · exact Or.inl ⟨heq, by rintro ⟨⟩⟩
      · exact Or.inr (Or.inr (Or.inl ⟨seq, reason, redactedValue, today, now, marker, rfl, heq⟩))
  | healAuditLogChain => exact Or.inr (Or.inr (Or.inr ⟨rfl, rfl⟩))
  | purgeStaleProbeKeys prefixes =>
      simp only [VerifiedKVStore.dbAfter, Db.purgeStaleProbeKeys]
      split_ifs <;> exact Or.inl ⟨rfl, by rintro ⟨⟩⟩
  | verifyAuditLog deep => exact Or.inl ⟨rfl, by rintro ⟨⟩⟩
  | savepoint name => exact Or.inl ⟨rfl, by rintro ⟨⟩⟩
  | rollbackSavepoint name => exact Or.inl ⟨rfl, by rintro ⟨⟩⟩
  | releaseSavepoint name => exact Or.inl ⟨rfl, by rintro ⟨⟩⟩

lemma numbered_dbAfter {db : Db} (h : Numbered db.auditLog) (c : KvCall) :
    Numbered (VerifiedKVStore.dbAfter rt db c).auditLog := by
  rcases @dbAfter_cases rt db c with ⟨heq, -⟩ | ⟨db', e, hlog, heq, -⟩ |
    ⟨seq, _, _, _, _, marker, -, heq⟩ | ⟨-, heq⟩
  · rw [heq]
    exact h
  · rw [heq]
    exact (numbered_append db' (hlog ▸ h) e).2
  · rw [heq]
    exact numbered_setNewValue h seq marker
  · rw [heq]
    exact numbered_heal h

/-- A call keeps the chain when its time stamp is stored faithfully. -/
lemma ledgerOk_dbAfter {db : Db} (h : LedgerOk rt db.auditLog) (c : KvCall)
    (hc : TimestampStored c) : LedgerOk rt (VerifiedKVStore.dbAfter rt db c).auditLog := by
  rcases @dbAfter_cases rt db c with ⟨heq, -⟩ | ⟨db', e, hlog, heq, -, hstored⟩ |
    ⟨seq, _, _, _, _, marker, -, heq⟩ | ⟨-, heq⟩
  · rw [heq]
    exact h
  · rw [heq]
    exact ledgerOk_append db' (hlog ▸ h) (hstored hc)
  · rw [heq]
    exact ledgerOk_setNewValue h seq marker
  · rw [heq]
    exact ledgerOk_heal h

/-- A call changes a well-formed log as `LogStep` allows. -/
lemma logStep_dbAfter {db : Db} (h : LedgerOk rt db.auditLog) (c : KvCall) :
    LogStep db.auditLog (VerifiedKVStore.dbAfter rt db c).auditLog c := by
  rcases @dbAfter_cases rt db c with ⟨heq, hheal⟩ | ⟨db', e, hlog, heq, hext, -⟩ |
    ⟨seq, _, _, _, _, marker, rfl, heq⟩ | ⟨rfl, heq⟩
  · rw [heq]
    cases c with
    | healAuditLogChain => exact absurd rfl hheal
    | redactAuditEntry seq reason redactedValue today now => exact Or.inl rfl
    | rollbackSavepoint name => trivial
    | _ => exact extends_refl _
  · rw [heq]
    refine hext _ _ ?_
    rw [← hlog]
    exact (numbered_append db' (hlog ▸ numbered_of_ledgerOk h) e).1
  · exact Or.inr ⟨marker, heq⟩
  · rw [heq]
    exact rows_heal_of_ledgerOk h

/-! ## Runs -/

/-- Every snapshot of a run from a fresh store has a well-formed log. -/
lemma ledgerOk_of_run {calls : List KvCall} (hcalls : ∀ c ∈ calls, TimestampStored c) :
    SavepointStack.Everywhere (fun db => LedgerOk rt db.auditLog)
      (VerifiedKVStore.init.run rt calls).tables := by
  refine VerifiedKVStore.everywhere_run (P := fun db => LedgerOk rt db.auditLog)
    (Q := fun _ c => TimestampStored c)
    (fun db c h hc => ledgerOk_dbAfter h c hc) (VerifiedKVStore.everywhere_init ledgerOk_empty) ?_
  have hall : ∀ (cs : List KvCall) (s : VerifiedKVStore), (∀ c ∈ cs, TimestampStored c) →
      VerifiedKVStore.AllSteps rt (fun _ c => TimestampStored c) s cs := by
    intro cs
    induction cs with
    | nil => intro s _; trivial
    | cons c cs ih =>
        intro s hcs
        exact ⟨hcs c List.mem_cons_self, ih _ fun c' hc' => hcs c' (List.mem_cons_of_mem _ hc')⟩
  exact hall calls _ hcalls

/-- **The append-only chain.** After any sequence of calls on a fresh store in which no caller of
`append_audit_log` passes negative zero as the time stamp, the shallow verification succeeds, the
sequence numbers are `1..n`, and every further call changes the log as `LogStep` allows. -/
theorem chain_of_run (rt : Runtime) (calls : List KvCall)
    (hcalls : ∀ c ∈ calls, TimestampStored c) :
    let s := VerifiedKVStore.init.run rt calls
    (s.db.verifyAuditLog rt false).isValid = true ∧
    s.db.auditLog.rows.map AuditRow.seq = firstSeqs s.db.auditLog.rows.length ∧
    ∀ c, LogStep s.db.auditLog (s.call rt c).db.auditLog c := by
  intro s
  have hok : LedgerOk rt s.db.auditLog := (ledgerOk_of_run hcalls).1
  refine ⟨verifyAuditLog_shallow_iff.mpr hok.chained, hok.seqs, fun c => ?_⟩
  cases hc : c with
  | rollbackSavepoint name => trivial
  | _ =>
      rw [← hc, VerifiedKVStore.db_call (by rw [hc]; nofun)]
      exact logStep_dbAfter hok c

/-- A write, an entry with a caller's time stamp, a redaction and a deletion. -/
def sampleCalls : List KvCall :=
  [.setSync { key := "k", value := .bool true } 1,
    .appendAuditLog ⟨.given (.finite 2), some "note", .given (.str "v"), none, .missing, none⟩ 1,
    .redactAuditEntry 1 "GDPR" none "2026-01-01" 2,
    .deleteSync "k" 2]

/-- The chain of a run with all kinds of writers. -/
theorem chain_of_sampleCalls :
    let s := VerifiedKVStore.init.run Runtime.sample sampleCalls
    (s.db.verifyAuditLog Runtime.sample false).isValid = true ∧
    s.db.auditLog.rows.map AuditRow.seq = firstSeqs s.db.auditLog.rows.length ∧
    ∀ c, LogStep s.db.auditLog (s.call Runtime.sample c).db.auditLog c :=
  chain_of_run Runtime.sample sampleCalls (by simp [sampleCalls, TimestampStored, StoredFaithfully])

/-- An entry whose time stamp is negative zero. -/
def negZeroEntry : AuditEntry :=
  ⟨.given .negZero, some "k", .given (.str "v"), none, .missing, none⟩

/-- **Negative zero breaks the chain.** The verification of a log with one such entry fails. -/
theorem chain_broken_by_negZero :
    ¬ ∀ (rt : Runtime) (calls : List KvCall),
      ((VerifiedKVStore.init.run rt calls).db.verifyAuditLog rt false).isValid = true := by
  intro h
  exact absurd (h Runtime.sample [.appendAuditLog negZeroEntry 1]) (by decide)

end AtlasMemory
