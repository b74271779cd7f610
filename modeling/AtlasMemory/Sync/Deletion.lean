import AtlasMemory.L2Semantic.LogGrowth
import AtlasMemory.Sync.Replay

/-!
# Deletions at the receiver

A deletion is logged with confidence zero, and at the receiver it passes the same potential gate as
a value.  So it takes effect only where the variable carries next to no information:
`deletion_propagates_iff`.
-/

namespace AtlasMemory

open ReplicaTable

variable {rt : Runtime}

/-! ## The export after a deletion -/

def deletionRow (rt : Runtime) (log : AuditLog) (k : String) (now : ℚ) : AuditRow :=
  appendedRow rt log (Db.deleteEntry rt k now) (.finite now)

/-- The log after a successful deletion has one row more. -/
lemma rows_deleteSync {db : Db} (h : Numbered db.auditLog) {k : String} {now : ℚ}
    (hcontains : db.stateVariables.contains k = true) :
    (db.deleteSync rt k now).1.auditLog.rows =
      db.auditLog.rows ++ [deletionRow rt db.auditLog k now] := by
  rw [Db.deleteSync, StateTable.deleteState, hcontains]
  exact rows_append { db with stateVariables := db.stateVariables.erase k } h rfl

/-- A batch that carries the deletion carries it last, after the batch that was due before it. -/
lemma queryAuditRows_deleteSync {a a' : StateSyncBridge} (h : Numbered a.kv.db.auditLog)
    {row : AuditRow} (hrow : row.seq = (a.kv.db.auditLog.rows.length : ℤ) + 1)
    (hrows : a'.kv.db.auditLog.rows = a.kv.db.auditLog.rows ++ [row]) {sinceSeq : ℤ} {limit : ℕ}
    (hcarried : row ∈ a'.queryAuditRows sinceSeq limit) :
    a'.queryAuditRows sinceSeq limit = a.queryAuditRows sinceSeq limit ++ [row] := by
  have hnot : ∀ r ∈ a.kv.db.auditLog.rows, r ≠ row := by
    rintro r hr rfl
    have hle := seq_le_length h hr
    omega
  unfold StateSyncBridge.queryAuditRows at *
  rw [hrows, List.filter_append] at hcarried ⊢
  set earlier := a.kv.db.auditLog.rows.filter fun r => decide (sinceSeq < r.seq) with hearlier
  have hnotEarlier : row ∉ earlier := fun hmem => hnot row (List.mem_of_mem_filter hmem) rfl
  by_cases hsince : sinceSeq < row.seq
  · have hlast : [row].filter (fun r => decide (sinceSeq < r.seq)) = [row] := by simp [hsince]
    rw [hlast] at hcarried ⊢
    have hfits : earlier.length < limit := by
      by_contra hlong
      rw [List.take_append_of_le_length (not_lt.mp hlong)] at hcarried
      exact hnotEarlier (List.mem_of_mem_take hcarried)
    rw [List.take_of_length_le (by simpa using hfits), List.take_of_length_le hfits.le]
  · have hnone : [row].filter (fun r => decide (sinceSeq < r.seq)) = [] := by simp [hsince]
    rw [hnone, List.append_nil] at hcarried
    exact absurd (List.mem_of_mem_take hcarried) hnotEarlier

/-! ## The deletion in the replay -/

lemma replay_deletionRow (t : ReplicaTable) (log : AuditLog) (k : String) (now : ℚ) :
    t.replay (deletionRow rt log k now) =
      if PyString.strip k = "" then t
      else if (t.lookup (PyString.strip k)).any (outweighs · (.finite 0)) then t
      else t.erase (PyString.strip k) := by
  have hconfidence : exportedConfidence (deletionRow rt log k now) = .finite 0 := rfl
  have hdeleted : (deletionRow rt log k now).toMutation.isDeleted = true := by
    simp [Mutation.isDeleted, deletionRow, appendedRow, AuditRow.toMutation, Db.deleteEntry]
  have hkey : (deletionRow rt log k now).toMutation.appliedKey = PyString.strip k := rfl
  rw [replay, hconfidence, hkey, hdeleted, if_pos rfl]

/-- **What the replay of the deletion leaves of the variable**: nothing, exactly if the variable was
not there, or its key is applied as it stands and its potential does not outweigh zero. -/
lemma get?_replay_deletionRow (t : ReplicaTable) (log : AuditLog) (k : String) (now : ℚ) :
    (t.replay (deletionRow rt log k now)).get? k = none ↔
      ∀ replica, t.get? k = some replica →
        PyString.strip k = k ∧ k ≠ "" ∧ outweighs replica (.finite 0) = false := by
  rw [replay_deletionRow]
  cases hget : t.get? k with
  | none =>
      refine iff_of_true ?_ nofun
      split_ifs
      · exact hget
      · exact hget
      · by_cases hstrip : PyString.strip k = k
        · rw [hstrip]
          exact PyDict.get?_erase_self t k
        · rw [PyDict.get?_erase_of_ne t hstrip]
          exact hget
  | some replica =>
      have hsome : ∀ replica', some replica = some replica' ↔ replica' = replica := by
        intro replica'
        rw [Option.some.injEq, eq_comm]
      simp only [hsome, forall_eq]
      by_cases hstrip : PyString.strip k = k
      · have hlookup : t.lookup k = some replica := by rw [lookup, hget]
        rw [hstrip, hlookup, Option.any_some]
        split_ifs with hempty houtweighs
        · rw [hget]
          simp [hempty]
        · rw [hget]
          simp [houtweighs]
        · have hfits : outweighs replica (.finite 0) = false := by simpa using houtweighs
          simp [hempty, hfits]
      · -- the deletion is applied to another key
        have hkept : (if PyString.strip k = "" then t
            else if (t.lookup (PyString.strip k)).any (outweighs · (.finite 0)) then t
            else t.erase (PyString.strip k)).get? k = some replica := by
          split_ifs
          · exact hget
          · exact hget
          · rw [PyDict.get?_erase_of_ne t hstrip]
            exact hget
        simp [hkept, hstrip]

/-! ## The deletion at the receiver -/

/-- The delta is taken, and when the deletion's turn comes after the rows `earlier`, the receiver
either has no variable `k` or has one that is worth next to nothing.  (A stale delta changes
nothing.) -/
def DeletionPasses (rt : Runtime) (b : StateSyncBridge) (d : Delta) (earlier : List AuditRow)
    (k : String) : Prop :=
  if b.rejectsAsStale d then b.kv.db.stateVariables.get? k = none
  else ∀ replica, (earlier.foldl replay (b.kv.db.stateVariables.view rt)).get? k = some replica →
    PyString.strip k = k ∧ k ≠ "" ∧ outweighs replica (.finite 0) = false

/-- The store deleted the variable: `delete_sync` returns true. -/
def Deletes (rt : Runtime) (db : Db) (k : String) (now : ℚ) : Prop :=
  ∃ entryHash, (db.deleteSync rt k now).2 = .ok (some entryHash)

lemma contains_of_deletes {db : Db} {k : String} {now : ℚ} (h : Deletes rt db k now) :
    db.stateVariables.contains k = true := by
  obtain ⟨entryHash, hok⟩ := h
  cases hcontains : db.stateVariables.contains k with
  | true => rfl
  | false =>
      rw [Db.deleteSync, StateTable.deleteState, hcontains] at hok
      cases hok

lemma deletes_of_contains {db : Db} (h : Numbered db.auditLog) {k : String} {now : ℚ}
    (hcontains : db.stateVariables.contains k = true) : Deletes rt db k now := by
  rw [Deletes, Db.deleteSync, StateTable.deleteState, hcontains]
  rcases @append_cases rt db.auditLog h (Db.deleteEntry rt k now) with
    ⟨hrefused, -⟩ | ⟨stored, log', -, hok, -⟩
  · cases hrefused
  · refine ⟨(appendedRow rt db.auditLog (Db.deleteEntry rt k now) stored).entryHash, ?_⟩
    show (Db.append rt { db with stateVariables := db.stateVariables.erase k }
      (Db.deleteEntry rt k now)).2.map some = _
    rw [Db.append, hok]
    rfl

/-- **When a deletion propagates.** The sender's store is the result of any calls, and the receiver
is arbitrary; the export carries the deletion, after the rows that were due before it. -/
theorem deletion_propagates_iff (rt : Runtime) (calls : List KvCall) (node : String)
    (clock : CompactVectorClock) (k : String) (now : ℚ) (sinceSeq limit : ℤ) (b : StateSyncBridge)
    (times : ℕ → ℚ) :
    let a : StateSyncBridge := ⟨VerifiedKVStore.init.run rt calls, node, clock⟩
    let d := ((a.localCall rt (.deleteSync k now)).exportDeltaFromAudit sinceSeq limit).2
    Deletes rt a.kv.db k now →
    (a.kv.db.auditLog.rows.length : ℤ) + 1 ∈ d.mutations.map Mutation.seq →
    ((b.applyRemoteDelta rt d times).1.kv.db.stateVariables.get? k = none ↔
      DeletionPasses rt b d (a.queryAuditRows sinceSeq (StateSyncBridge.safeLimit limit)) k) := by
  intro a d hdeletes hcarried
  set a' := a.localCall rt (.deleteSync k now) with ha'
  have hnumbered : Numbered a.kv.db.auditLog := (growthOk_run growthOk_init calls).numbered.1
  have hdb : a'.kv.db = (a.kv.db.deleteSync rt k now).1 := VerifiedKVStore.db_call (by nofun)
  have hrows : a'.kv.db.auditLog.rows =
      a.kv.db.auditLog.rows ++ [deletionRow rt a.kv.db.auditLog k now] := by
    rw [hdb]
    exact rows_deleteSync hnumbered (contains_of_deletes hdeletes)
  have hnumbered' : Numbered a'.kv.db.auditLog := by
    rw [hdb]
    exact numbered_dbAfter hnumbered (.deleteSync k now)
  -- the row with the new number is the deletion's
  have hrow : deletionRow rt a.kv.db.auditLog k now ∈
      a'.queryAuditRows sinceSeq (StateSyncBridge.safeLimit limit) := by
    obtain ⟨m, hm, hseq⟩ := List.mem_map.mp hcarried
    obtain ⟨r, hr, rfl⟩ := List.mem_map.mp hm
    have hmem := StateSyncBridge.mem_rows_of_mem_queryAuditRows hr
    have hlast : deletionRow rt a.kv.db.auditLog k now ∈ a'.kv.db.auditLog.rows := by
      rw [hrows]
      simp
    have hsame : r = deletionRow rt a.kv.db.auditLog k now :=
      AuditLog.eq_of_seq_eq hmem hlast hseq
    exact hsame ▸ hr
  have hmutations : d.mutations = (a.queryAuditRows sinceSeq (StateSyncBridge.safeLimit limit) ++
      [deletionRow rt a.kv.db.auditLog k now]).map AuditRow.toMutation := by
    rw [← queryAuditRows_deleteSync hnumbered rfl hrows hrow]
    rfl
  unfold DeletionPasses StateSyncBridge.applyRemoteDelta
  split_ifs
  · rfl
  · have hview := @view_applyMutations rt d.sourceNode b.kv
      (a.queryAuditRows sinceSeq (StateSyncBridge.safeLimit limit) ++
        [deletionRow rt a.kv.db.auditLog k now]) times
    rw [← hmutations, List.foldl_append, List.foldl_cons, List.foldl_nil] at hview
    rw [← get?_replay_deletionRow _ a.kv.db.auditLog k now, ← hview, StateTable.view,
      PyDict.get?_mapValues, Option.map_eq_none_iff]

/-- A variable without information is deleted. -/
theorem deletion_propagates_of_zero :
    let a : StateSyncBridge := ⟨VerifiedKVStore.init.run Runtime.sample
      [.setSync { key := "k", value := .bool true, confidence := some (.finite 0) } 1], "a",
      .single "a" 0⟩
    let d := ((a.localCall Runtime.sample (.deleteSync "k" 2)).exportDeltaFromAudit 0 200).2
    let b := StateSyncBridge.init .init "b"
    ((b.applyRemoteDelta Runtime.sample d fun _ => 3).1.kv.db.stateVariables.get? "k" = none ↔
      DeletionPasses Runtime.sample b d
        (a.queryAuditRows 0 (StateSyncBridge.safeLimit 200)) "k") :=
  deletion_propagates_iff Runtime.sample
    [.setSync { key := "k", value := .bool true, confidence := some (.finite 0) } 1] "a"
    (.single "a" 0) "k" 2 0 200 (.init .init "b") (fun _ => 3)
    (deletes_of_contains (growthOk_run growthOk_init _).numbered.1 (by decide))
    (by decide)

/-- **A deletion of a certain value is outweighed.** The sender writes a variable and exports it,
the receiver, which writes nothing itself, applies the export; then the sender deletes the variable
and exports the deletion, and the receiver keeps the variable. -/
theorem deletion_outweighed :
    ¬ ∀ (rt : Runtime) (calls : List KvCall) (k : String) (now : ℚ) (times times' : ℕ → ℚ),
      let exported := (StateSyncBridge.init (VerifiedKVStore.init.run rt calls)
        "a").exportDeltaFromAudit 0 200
      let b := ((StateSyncBridge.init .init "b").applyRemoteDelta rt exported.2 times).1
      let deletion := ((exported.1.localCall rt (.deleteSync k now)).exportDeltaFromAudit
        exported.2.maxSeq 200).2
      Deletes rt exported.1.kv.db k now →
        (b.applyRemoteDelta rt deletion times').1.kv.db.stateVariables.get? k = none := by
  intro h
  have hnumbered := (@growthOk_run Runtime.sample _ growthOk_init
    [.setSync { key := "k", value := .bool true } 1]).numbered.1
  have habsent := h Runtime.sample [.setSync { key := "k", value := .bool true } 1] "k" 2
    (fun _ => 3) (fun _ => 4) (deletes_of_contains hnumbered (by decide))
  exact absurd habsent (by decide +kernel)

end AtlasMemory
