import AtlasMemory.L2Semantic.DeepVerification

/-!
# What healing repairs

`heal_audit_log_chain` rewrites the links and the entry hashes of all rows, and reports success
whatever it found.  The chain holds afterwards, and a second heal changes nothing.  The contents,
the hashes of the values and the state table are left as they were, so a deep verification
succeeds afterwards exactly when its checks of these passed before.
-/

namespace AtlasMemory

variable {rt : Runtime}

/-- What `heal_audit_log_chain` of the repository returns: the number of rows, the flag that it
reports, and the tip. -/
def Db.healReport (rt : Runtime) (db : Db) : ℕ × Bool × String :=
  let log := db.auditLog.heal rt
  (log.rows.length, true, HashChain.tip AuditRow.entryHash genesisHash log.rows)

/-- The tables after `heal_audit_log_chain`. -/
def Db.healed (rt : Runtime) (db : Db) : Db := (db.healAuditLogChain rt).1

/-- What the content check reads of a row. -/
def AuditRow.checked (r : AuditRow) : ℤ × String × String × Option String × Option String :=
  (r.seq, r.key, r.valueHash, r.newValue, r.reason)

lemma map_checked_heal (log : AuditLog) :
    (log.heal rt).rows.map AuditRow.checked = log.rows.map AuditRow.checked :=
  @HashChain.map_relink _ _ rt.entryStamp healRow _ AuditRow.checked (fun _ _ _ => rfl)
    genesisHash log.rows

/-! ## Healing twice -/

lemma clampUnit_clampUnit (x : Option PyFloat) :
    PyFloat.clampUnit (some (.finite (PyFloat.clampUnit x))) = PyFloat.clampUnit x :=
  PyFloat.clampUnit_finite_of_mem (PyFloat.clampUnit_nonneg x) (PyFloat.clampUnit_le_one x)

lemma confidence_of_mem_heal {log : AuditLog} {r : AuditRow} (h : r ∈ (log.heal rt).rows) :
    some (.finite (PyFloat.clampUnit r.confidence)) = r.confidence := by
  have hrelink : ∀ (rows : List AuditRow) (origin : String),
      ∀ r ∈ HashChain.relink rt.entryStamp healRow origin rows,
        some (.finite (PyFloat.clampUnit r.confidence)) = r.confidence := by
    intro rows
    induction rows with
    | nil => nofun
    | cons a as ih =>
        intro origin r hr
        rcases List.mem_cons.mp hr with rfl | hr
        · show some (PyFloat.finite (PyFloat.clampUnit (some (.finite _)))) = _
          rw [clampUnit_clampUnit]
          rfl
        · exact ih _ r hr
  exact hrelink log.rows genesisHash r h

lemma heal_heal (log : AuditLog) : (log.heal rt).heal rt = log.heal rt := by
  refine AuditLog.ext ?_
  refine (@HashChain.relink_eq_self_iff _ _ AuditRow.prevHash AuditRow.entryHash rt.entryStamp
    healRow (fun _ _ _ => rfl) (fun _ _ _ => rfl) (fun _ _ _ _ => rfl) genesisHash _).mpr
    ⟨rowsChained_heal log, fun r hr => ?_⟩
  have hconf := confidence_of_mem_heal hr
  show { r with confidence := some (.finite (PyFloat.clampUnit r.confidence)) } = r
  rw [hconf]

lemma clampConfidences_clampConfidences (t : StateTable) :
    t.clampConfidences.clampConfidences = t.clampConfidences := by
  have hclamp : ∀ x : ℚ, max 0 (min (max 0 (min x 1)) 1) = max 0 (min x 1) := by
    intro x
    have hle : max 0 (min x 1) ≤ 1 := max_le (by decide) (min_le_right x 1)
    rw [min_eq_left hle, max_eq_right (le_max_left 0 _)]
  have hentries : t.clampConfidences.clampConfidences.entries = t.clampConfidences.entries := by
    unfold StateTable.clampConfidences
    rw [PyDict.entries_mapValues, PyDict.entries_mapValues, List.map_map]
    refine List.map_congr_left fun e _ => ?_
    simp only [Function.comp_apply, hclamp]
  exact PyDict.ext hentries

lemma healed_healed (db : Db) : (db.healed rt).healed rt = db.healed rt := by
  have hlog : (db.auditLog.heal rt).heal rt = db.auditLog.heal rt := heal_heal db.auditLog
  have htable := clampConfidences_clampConfidences db.stateVariables
  unfold Db.healed Db.healAuditLogChain
  dsimp only
  rw [hlog, htable]

/-! ## What a heal leaves alone -/

lemma exists_of_mem_heal {log : AuditLog} {r : AuditRow} (h : r ∈ (log.heal rt).rows) :
    ∃ r' ∈ log.rows, r'.checked = r.checked := by
  have hmem : r.checked ∈ (log.heal rt).rows.map AuditRow.checked := List.mem_map_of_mem h
  rw [map_checked_heal] at hmem
  exact List.mem_map.mp hmem

lemma exists_heal_of_mem {log : AuditLog} {r : AuditRow} (h : r ∈ log.rows) :
    ∃ r' ∈ (log.heal rt).rows, r'.checked = r.checked := by
  have hmem : r.checked ∈ log.rows.map AuditRow.checked := List.mem_map_of_mem h
  rw [← @map_checked_heal rt] at hmem
  exact List.mem_map.mp hmem

lemma contentAccepted_congr {r r' : AuditRow} (h : r'.checked = r.checked)
    (reg : RedactionRegistry) : contentAccepted rt reg r' = contentAccepted rt reg r := by
  simp only [AuditRow.checked, Prod.mk.injEq] at h
  obtain ⟨hseq, hkey, hhash, hvalue, -⟩ := h
  rw [contentAccepted, contentAccepted, hseq, hkey, hhash, hvalue]

/-- The content check passes after the heal as before it. -/
lemma contentAccepted_healed {db : Db} :
    ContentAccepted rt (db.healed rt) ↔ ContentAccepted rt db := by
  constructor
  · intro h r hr
    obtain ⟨r', hr', hsame⟩ := @exists_heal_of_mem rt _ _ hr
    rw [← contentAccepted_congr hsame]
    exact h r' hr'
  · intro h r hr
    obtain ⟨r', hr', hsame⟩ := exists_of_mem_heal hr
    have hold := h r' hr'
    rwa [contentAccepted_congr hsame] at hold

/-- The newest row of a key is found by what the heal leaves alone. -/
lemma map_checked_latest {log log' : AuditLog}
    (h : log'.rows.map AuditRow.checked = log.rows.map AuditRow.checked) (key : String) :
    (log'.latest key).map AuditRow.checked = (log.latest key).map AuditRow.checked := by
  have hfind : ∀ rows : List AuditRow,
      (rows.find? fun r => decide (r.key = key)).map AuditRow.checked =
        (rows.map AuditRow.checked).find? fun c => decide (c.2.1 = key) := by
    intro rows
    rw [List.find?_map]
    rfl
  rw [AuditLog.latest, AuditLog.latest, hfind, hfind, List.map_reverse, List.map_reverse, h]

lemma newestFits_congr {log log' : AuditLog}
    (h : log'.rows.map AuditRow.checked = log.rows.map AuditRow.checked) {key hash : String}
    (hfits : NewestFits log key hash) : NewestFits log' key hash := by
  intro r hr
  have hlatest := map_checked_latest h key
  rw [hr, Option.map_some, eq_comm, Option.map_eq_some_iff] at hlatest
  obtain ⟨r', hr', hsame⟩ := hlatest
  simp only [AuditRow.checked, Prod.mk.injEq] at hsame
  obtain ⟨-, -, hhash, -, hreason⟩ := hsame
  rw [← hhash, ← hreason]
  exact hfits r' hr'

lemma newestFits_heal_iff {log : AuditLog} {key hash : String} :
    NewestFits (log.heal rt) key hash ↔ NewestFits log key hash :=
  ⟨newestFits_congr (map_checked_heal log).symm, newestFits_congr (map_checked_heal log)⟩

/-- The state table passes its check after the heal as before it. -/
lemma statesAccepted_healed {db : Db} :
    StatesAccepted rt (db.healed rt) ↔ StatesAccepted rt db := by
  have hrow : ∀ (key : String) (row : StateRow),
      Db.crossCheckRow rt (db.auditLog.heal rt) key
          { row with confidence := max 0 (min row.confidence 1) } = none ↔
        Db.crossCheckRow rt db.auditLog key row = none := by
    intro key row
    rw [crossCheckRow_eq_none_iff, crossCheckRow_eq_none_iff]
    simp only [newestFits_heal_iff]
  have hget : ∀ key, (db.healed rt).stateVariables.get? key =
      (db.stateVariables.get? key).map fun row =>
        { row with confidence := max 0 (min row.confidence 1) } := by
    intro key
    show db.stateVariables.clampConfidences.get? key = _
    rw [StateTable.clampConfidences, PyDict.get?_mapValues]
  constructor
  · intro h key row hold
    refine (hrow key row).mp (h key _ ?_)
    rw [hget, hold, Option.map_some]
  · intro h key row hnew
    rw [hget] at hnew
    obtain ⟨row', hold, rfl⟩ := Option.map_eq_some_iff.mp hnew
    exact (hrow key row').mpr (h key row' hold)

/-! ## What a heal repairs -/

/-- **A heal repairs the chain and nothing else.** Whatever the tables hold, the shallow
verification succeeds after a heal and a second heal changes nothing.  The deep verification
succeeds exactly when the contents and the state table were right before. -/
theorem heal_repairs_chain (rt : Runtime) (db : Db) :
    ((db.healed rt).verifyAuditLog rt false).isValid = true ∧
      (db.healed rt).healed rt = db.healed rt ∧
      (db.healReport rt).2.1 = true ∧
      (((db.healed rt).verifyAuditLog rt true).isValid = true ↔
        ContentAccepted rt db ∧ StatesAccepted rt db) := by
  have hchained : RowsChained rt (db.healed rt).auditLog.rows := rowsChained_heal db.auditLog
  refine ⟨verifyAuditLog_shallow_iff.mpr hchained, healed_healed db, rfl, ?_⟩
  rw [verifyAuditLog_deep_iff, contentAccepted_healed, statesAccepted_healed]
  exact and_iff_right hchained

/-- A log whose only entry carries the hash of another content. -/
def forgedDb : Db :=
  { Db.empty with
    auditLog := ⟨[⟨1, .finite 1, "k", "#1", "", "", some "2", some (.finite 1), none⟩],
      by decide⟩ }

/-- **The report of success says nothing about the contents.** -/
theorem not_deep_of_heal_ok :
    ¬ ∀ (rt : Runtime) (db : Db), (db.healReport rt).2.1 = true →
      ((db.healed rt).verifyAuditLog rt true).isValid = true := by
  intro h
  have hvalid := h Runtime.sample forgedDb rfl
  exact absurd hvalid (by decide)

end AtlasMemory
