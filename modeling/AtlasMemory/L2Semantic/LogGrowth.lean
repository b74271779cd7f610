import AtlasMemory.L2Semantic.ChainInvariant

/-!
# Growth of the ledger

What a row keeps for ever is its identity: the sequence number, the key and the time stamp.  A
redaction rewrites its content and a healing its hashes and confidence, but no call changes an
identity, and no call but a rollback removes one.  So along a run the identities only grow, and a
rollback cuts them back to an earlier prefix.
-/

namespace AtlasMemory

variable {rt : Runtime}

def AuditRow.identity (r : AuditRow) : ℤ × String × PyFloat := (r.seq, r.key, r.timestamp)

def AuditLog.identities (log : AuditLog) : List (ℤ × String × PyFloat) :=
  log.rows.map AuditRow.identity

/-- The identities of the newer log continue those of the older one. -/
def Grows (older newer : Db) : Prop :=
  older.auditLog.identities <+: newer.auditLog.identities

lemma grows_refl (db : Db) : Grows db db := List.prefix_rfl

lemma grows_trans (a b c : Db) (hab : Grows a b) (hbc : Grows b c) : Grows a c := hab.trans hbc

lemma grows_of_identities_eq {older newer : Db}
    (h : newer.auditLog.identities = older.auditLog.identities) : Grows older newer := by
  rw [Grows, h]

lemma identities_setNewValue (log : AuditLog) (n : ℤ) (v : Option String) :
    (log.setNewValue n v).identities = log.identities := by
  rw [AuditLog.identities, AuditLog.identities, AuditLog.setNewValue, AuditLog.mapRows,
    List.map_map]
  refine List.map_congr_left fun r _ => ?_
  by_cases hr : r.seq = n <;> simp [hr, AuditRow.identity]

lemma identity_healRow (r : AuditRow) (prev stamp : String) :
    (healRow r prev stamp).identity = r.identity := rfl

lemma identities_heal (log : AuditLog) : (log.heal rt).identities = log.identities :=
  HashChain.map_relink identity_healRow genesisHash log.rows

/-- Every call but a rollback makes the identities grow. -/
lemma grows_dbAfter {db : Db} (h : Numbered db.auditLog) (c : KvCall) :
    Grows db (VerifiedKVStore.dbAfter rt db c) := by
  rcases @dbAfter_cases rt db c with ⟨heq, -⟩ | ⟨db', e, hlog, heq, -⟩ |
    ⟨seq, _, _, _, _, marker, -, heq⟩ | ⟨-, heq⟩
  · exact grows_of_identities_eq (by rw [heq])
  · obtain ⟨tail, -, hrows⟩ := (@numbered_append rt db' (hlog ▸ h) e).1
    refine ⟨tail.map AuditRow.identity, ?_⟩
    rw [heq, AuditLog.identities, AuditLog.identities, hrows, List.map_append, hlog]
  · exact grows_of_identities_eq (by rw [heq, identities_setNewValue])
  · exact grows_of_identities_eq (by rw [heq, identities_heal])

/-! ## Rows by their number -/

/-- In a numbered log the row at position `i` has the number `i + 1`. -/
lemma seq_getElem {log : AuditLog} (h : Numbered log) {i : ℕ} (hi : i < log.rows.length) :
    log.rows[i].seq = (i : ℤ) + 1 := by
  have hseqs : (log.rows.map AuditRow.seq)[i]? = (firstSeqs log.rows.length)[i]? := by rw [h.seqs]
  simpa [firstSeqs, hi] using hseqs

lemma seq_pos {log : AuditLog} (h : Numbered log) {r : AuditRow} (hr : r ∈ log.rows) :
    0 < r.seq := by
  obtain ⟨i, hi, rfl⟩ := List.getElem_of_mem hr
  rw [seq_getElem h hi]
  omega

lemma seq_le_length {log : AuditLog} (h : Numbered log) {r : AuditRow} (hr : r ∈ log.rows) :
    r.seq ≤ (log.rows.length : ℤ) := by
  obtain ⟨i, hi, rfl⟩ := List.getElem_of_mem hr
  rw [seq_getElem h hi]
  omega

/-- A row of the newer log whose number the older log has already is a row of the older one. -/
lemma exists_identity_of_grows {older newer : Db} (hgrows : Grows older newer)
    (hnumbered : Numbered newer.auditLog) {r : AuditRow} (hr : r ∈ newer.auditLog.rows)
    (hle : r.seq ≤ (older.auditLog.rows.length : ℤ)) :
    ∃ r' ∈ older.auditLog.rows, r'.identity = r.identity := by
  obtain ⟨i, hi, rfl⟩ := List.getElem_of_mem hr
  rw [seq_getElem hnumbered hi] at hle
  have hlt : i < older.auditLog.rows.length := by omega
  have hlen : i < older.auditLog.identities.length := by simpa [AuditLog.identities] using hlt
  refine ⟨older.auditLog.rows[i], List.getElem_mem hlt, ?_⟩
  have hsame := List.IsPrefix.getElem hgrows hlen
  simpa [AuditLog.identities] using hsame

lemma exists_identity_of_mem {older newer : Db} (hgrows : Grows older newer) {r : AuditRow}
    (hr : r ∈ older.auditLog.rows) : ∃ r' ∈ newer.auditLog.rows, r'.identity = r.identity :=
  List.mem_map.mp (hgrows.subset (List.mem_map_of_mem hr))

lemma length_le_of_grows {older newer : Db} (hgrows : Grows older newer) :
    older.auditLog.rows.length ≤ newer.auditLog.rows.length := by
  simpa [AuditLog.identities] using hgrows.length_le

/-! ## The store -/

/-- The invariant of the tables and their snapshots: numbered logs that continue each other. -/
structure GrowthOk (s : VerifiedKVStore) : Prop where
  numbered : SavepointStack.Everywhere (fun db => Numbered db.auditLog) s.tables
  nested : SavepointStack.Nested Grows s.tables

lemma growthOk_init : GrowthOk .init :=
  ⟨VerifiedKVStore.everywhere_init numbered_empty, SavepointStack.nested_of_saved_nil _ rfl⟩

lemma growthOk_call {s : VerifiedKVStore} (h : GrowthOk s) (c : KvCall) :
    GrowthOk (s.call rt c) where
  numbered := VerifiedKVStore.everywhere_call (P := fun db => Numbered db.auditLog) h.numbered
    (numbered_dbAfter h.numbered.1 c)
  nested := VerifiedKVStore.nested_call grows_refl grows_trans h.nested
    (grows_dbAfter h.numbered.1 c)

lemma growthOk_run {s : VerifiedKVStore} (h : GrowthOk s) (calls : List KvCall) :
    GrowthOk (s.run rt calls) := by
  induction calls generalizing s with
  | nil => exact h
  | cons c cs ih => exact ih (growthOk_call h c)

lemma grows_call {s : VerifiedKVStore} (h : GrowthOk s) {c : KvCall}
    (hc : ∀ name, c ≠ .rollbackSavepoint name) : Grows s.db (s.call rt c).db := by
  rw [VerifiedKVStore.db_call hc]
  exact grows_dbAfter h.numbered.1 c

lemma grows_of_rollback {s : VerifiedKVStore} (h : GrowthOk s) (name : String) :
    Grows (s.call rt (.rollbackSavepoint name)).db s.db :=
  (VerifiedKVStore.nested_rollbackSavepoint grows_refl h.nested name).2

/-- Calls without a rollback among them make the identities grow. -/
lemma grows_run {s : VerifiedKVStore} (h : GrowthOk s) {calls : List KvCall}
    (hcalls : ∀ c ∈ calls, ∀ name, c ≠ .rollbackSavepoint name) :
    Grows s.db (s.run rt calls).db := by
  induction calls generalizing s with
  | nil => exact grows_refl _
  | cons c cs ih =>
      have hrest := ih (@growthOk_call rt s h c) fun c' hc' => hcalls c' (List.mem_cons_of_mem _ hc')
      exact (grows_call h (hcalls c List.mem_cons_self)).trans hrest

end AtlasMemory
