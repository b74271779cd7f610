import AtlasMemory.L2Semantic.DeepVerification

/-!
# Which tampering a deep verification sees

Single changes to the content that the ledger protects, made behind the store's back in a store
whose deep verification succeeds.  `tamper_seen_iff` is the exact line between those that the next
deep verification reports and those that it does not.

The unseen ones are what the verification skips on purpose: a content column that is `NULL`, the
spellings of a tombstone, a state row without a hash, a key without an audit row, and a key of the
log that is missing from the state table.
-/

namespace AtlasMemory

variable {rt : Runtime}

/-- A single change to the tables, not made by a call of the store. -/
inductive Tamper
  | auditContent (seq : ℤ) (newValue : Option String)
  | stateValue (key value : String)
  | stateHash (key : String) (valueHash : Option String)
  | insertState (key : String) (row : StateRow)
  | removeState (key : String)
  deriving DecidableEq

def Tamper.apply (db : Db) : Tamper → Db
  | .auditContent seq newValue => { db with auditLog := db.auditLog.setNewValue seq newValue }
  | .stateValue key value => { db with
      stateVariables := match db.stateVariables.get? key with
        | some row => db.stateVariables.set key { row with value }
        | none => db.stateVariables }
  | .stateHash key valueHash => { db with
      stateVariables := match db.stateVariables.get? key with
        | some row => db.stateVariables.set key { row with valueHash }
        | none => db.stateVariables }
  | .insertState key row => { db with stateVariables := db.stateVariables.set key row }
  | .removeState key => { db with stateVariables := db.stateVariables.erase key }

/-- The change changes something: the row it touches is there (or, for an insertion, is not) and
gets another content; and no redaction is registered for it. -/
def Tamper.Genuine (db : Db) : Tamper → Prop
  | .auditContent seq newValue => db.redactions.get? seq = none ∧
      ∃ r ∈ db.auditLog.rows, r.seq = seq ∧ r.newValue ≠ newValue
  | .stateValue key value => ∃ row, db.stateVariables.get? key = some row ∧ row.value ≠ value
  | .stateHash key valueHash =>
      ∃ row, db.stateVariables.get? key = some row ∧ row.valueHash ≠ valueHash
  | .insertState key _ => db.stateVariables.get? key = none
  | .removeState key => (db.stateVariables.get? key).isSome

/-- A hash column that the cross-table check skips: `NULL` or empty. -/
def BlankHash (valueHash : Option String) : Prop := ∀ hash, valueHash = some hash → hash = ""

/-- The content is a spelling of the tombstone, and the hash is that of one. -/
def IsTombstone (rt : Runtime) (content valueHash : String) : Prop :=
  PyString.stripWith (· = '"') content = deletedMarker ∧
    valueHash ∈ [rt.hexdigest deletedMarker, rt.hexdigest deletedMarkerJson]

/-- The changes that a deep verification skips.  For an audit row: the content becomes `NULL`, or a
tombstone of a row that is one, or is put back where it was `NULL`.  For a state row: it ends up
without a hash, or with the hash of its value while no audit row of its key objects.  A removed
state row is always skipped. -/
def Tamper.Skipped (rt : Runtime) (db : Db) : Tamper → Prop
  | .auditContent _ none => True
  | .auditContent seq (some content) => ∃ r ∈ db.auditLog.rows, r.seq = seq ∧
      (IsTombstone rt content r.valueHash ∨
        r.newValue = none ∧ rt.hexdigest content = r.valueHash)
  | .stateValue key _ => ∃ row, db.stateVariables.get? key = some row ∧ BlankHash row.valueHash
  | .stateHash key valueHash => BlankHash valueHash ∨
      ∃ row, db.stateVariables.get? key = some row ∧ BlankHash row.valueHash ∧
        valueHash = some (rt.hexdigest row.value) ∧
        NewestFits db.auditLog key (rt.hexdigest row.value)
  | .insertState key row => BlankHash row.valueHash ∨
      row.valueHash = some (rt.hexdigest row.value) ∧
        NewestFits db.auditLog key (rt.hexdigest row.value)
  | .removeState _ => True

/-! ## The content column -/

lemma contentAccepted_some_iff {reg : RedactionRegistry} {r : AuditRow} {content : String}
    (hreg : reg.get? r.seq = none) (hcontent : r.newValue = some content) :
    contentAccepted rt reg r = true ↔
      rt.hexdigest content = r.valueHash ∨ IsTombstone rt content r.valueHash := by
  have hauth : reg.isAuthorized r.seq r.key r.valueHash = false := by
    simp [RedactionRegistry.isAuthorized, hreg]
  by_cases hhash : rt.hexdigest content = r.valueHash
  · simp [contentAccepted, hcontent, hhash]
  · simp only [contentAccepted, hcontent, hhash, hauth, ne_eq, not_false_eq_true, if_true,
      Bool.and_false, Bool.or_false, Bool.and_eq_true, decide_eq_true_eq, false_or, IsTombstone]

/-- Changing one content leaves the verdict to the content check of the touched row. -/
lemma deep_setNewValue_iff {db : Db} (hv : (db.verifyAuditLog rt true).isValid = true)
    {r : AuditRow} (hr : r ∈ db.auditLog.rows) (newValue : Option String) :
    ((Tamper.auditContent r.seq newValue).apply db |>.verifyAuditLog rt true).isValid = true ↔
      contentAccepted rt db.redactions { r with newValue } = true := by
  obtain ⟨hchain, hcontent, hstates⟩ := verifyAuditLog_deep_iff.mp hv
  rw [verifyAuditLog_deep_iff]
  have htouched : { r with newValue } ∈ (db.auditLog.setNewValue r.seq newValue).rows :=
    List.mem_map.mpr ⟨r, hr, if_pos rfl⟩
  constructor
  · rintro ⟨-, hall, -⟩
    exact hall _ htouched
  · intro hok
    refine ⟨rowsChained_setNewValue hchain _ _, ?_, fun key row hrow => ?_⟩
    · intro r' hr'
      obtain ⟨r₀, hr₀, rfl⟩ := List.mem_map.mp hr'
      by_cases hsame : r₀.seq = r.seq
      · rw [if_pos hsame, AuditLog.eq_of_seq_eq hr₀ hr hsame]
        exact hok
      · rw [if_neg hsame]
        exact hcontent r₀ hr₀
    · refine crossCheckRow_eq_none_iff.mpr fun hash hhash hne => ?_
      obtain ⟨hvalue, hfits⟩ := crossCheckRow_eq_none_iff.mp (hstates key row hrow) hash hhash hne
      refine ⟨hvalue, newestFits_of_rows_map
        (f := fun r' => if r'.seq = r.seq then { r' with newValue } else r') rfl ?_ ?_ ?_ hfits⟩ <;>
      · intro r'
        by_cases hr' : r'.seq = r.seq <;> simp [hr']

/-- A different content is accepted only as a tombstone, or where there was none. -/
lemma auditContent_seen_iff (hinj : Function.Injective rt.hexdigest) {db : Db}
    (hv : (db.verifyAuditLog rt true).isValid = true) {seq : ℤ} {newValue : Option String}
    (hg : (Tamper.auditContent seq newValue).Genuine db) :
    ((Tamper.auditContent seq newValue).apply db |>.verifyAuditLog rt true).isValid = true ↔
      (Tamper.auditContent seq newValue).Skipped rt db := by
  obtain ⟨hreg, r, hr, rfl, hne⟩ := hg
  rw [deep_setNewValue_iff hv hr]
  cases newValue with
  | none => exact ⟨fun _ => trivial, fun _ => rfl⟩
  | some content =>
      rw [@contentAccepted_some_iff rt db.redactions { r with newValue := some content } content
        hreg rfl]
      have hunique : ∀ r' ∈ db.auditLog.rows, r'.seq = r.seq → r' = r := fun r' hr' hseq =>
        AuditLog.eq_of_seq_eq hr' hr hseq
      constructor
      · rintro (hhash | htomb)
        · cases hold : r.newValue with
          | none => exact ⟨r, hr, rfl, Or.inr ⟨hold, hhash⟩⟩
          | some old =>
              have haccepted := (verifyAuditLog_deep_iff.mp hv).2.1 r hr
              refine ⟨r, hr, rfl, Or.inl ?_⟩
              rcases (contentAccepted_some_iff hreg hold).mp haccepted with holdHash | htomb
              · -- two contents with the hash of the row are equal
                exact absurd (hold.trans (congrArg some (hinj (holdHash.trans hhash.symm)))) hne
              · -- the row is a tombstone, and its hash is that of the new content
                refine ⟨?_, htomb.2⟩
                have hmem := htomb.2
                rw [← hhash] at hmem
                rcases List.mem_cons.mp hmem with heq | hmem
                · rw [hinj heq]
                  decide
                · rw [hinj (List.mem_singleton.mp hmem)]
                  decide
        · exact ⟨r, hr, rfl, Or.inl htomb⟩
      · rintro ⟨r', hr', hseq, hskip⟩
        rw [hunique r' hr' hseq] at hskip
        rcases hskip with htomb | ⟨-, hhash⟩
        · exact Or.inr htomb
        · exact Or.inl hhash

/-! ## The state table -/

/-- Writing one state row leaves the verdict to the cross-table check of that row. -/
lemma deep_setState_iff {db : Db} (hv : (db.verifyAuditLog rt true).isValid = true) (key : String)
    (row : StateRow) :
    (({ db with stateVariables := db.stateVariables.set key row } : Db).verifyAuditLog rt
      true).isValid = true ↔ Db.crossCheckRow rt db.auditLog key row = none := by
  obtain ⟨hchain, hcontent, hstates⟩ := verifyAuditLog_deep_iff.mp hv
  rw [verifyAuditLog_deep_iff]
  constructor
  · rintro ⟨-, -, hall⟩
    exact hall key row (PyDict.get?_set_self _ key row)
  · intro hok
    refine ⟨hchain, hcontent, fun key' row' hrow' => ?_⟩
    change (db.stateVariables.set key row).get? key' = some row' at hrow'
    rw [PyDict.get?_set] at hrow'
    split_ifs at hrow' with hkey
    · rw [← hkey, ← Option.some.inj hrow']
      exact hok
    · exact hstates key' row' hrow'

/-- A row is skipped by the cross-table check if it has no hash; otherwise its hash must be that of
its value, and no newest audit row may object. -/
lemma crossCheckRow_skips_iff {log : AuditLog} {key : String} {row : StateRow} :
    Db.crossCheckRow rt log key row = none ↔ BlankHash row.valueHash ∨
      row.valueHash = some (rt.hexdigest row.value) ∧
        NewestFits log key (rt.hexdigest row.value) := by
  rw [crossCheckRow_eq_none_iff]
  constructor
  · intro h
    cases hhash : row.valueHash with
    | none => exact Or.inl nofun
    | some hash =>
        by_cases hempty : hash = ""
        · refine Or.inl fun hash' heq => ?_
          rw [← Option.some.inj heq, hempty]
        · obtain ⟨hvalue, hfits⟩ := h hash hhash hempty
          rw [hvalue]
          exact Or.inr ⟨rfl, hfits⟩
  · rintro (hblank | ⟨hhash, hfits⟩) hash heq hne
    · exact absurd (hblank hash heq) hne
    · rw [hhash, Option.some.injEq] at heq
      subst heq
      exact ⟨rfl, hfits⟩

/-- A hash that a successful verification did not skip is that of the value. -/
lemma valueHash_of_not_blank {db : Db} (hv : (db.verifyAuditLog rt true).isValid = true)
    {key : String} {row : StateRow} (hrow : db.stateVariables.get? key = some row)
    (hblank : ¬ BlankHash row.valueHash) :
    row.valueHash = some (rt.hexdigest row.value) ∧
      NewestFits db.auditLog key (rt.hexdigest row.value) :=
  (crossCheckRow_skips_iff.mp ((verifyAuditLog_deep_iff.mp hv).2.2 key row hrow)).resolve_left hblank

lemma stateValue_seen_iff (hinj : Function.Injective rt.hexdigest) {db : Db}
    (hv : (db.verifyAuditLog rt true).isValid = true) {key value : String}
    (hg : (Tamper.stateValue key value).Genuine db) :
    ((Tamper.stateValue key value).apply db |>.verifyAuditLog rt true).isValid = true ↔
      (Tamper.stateValue key value).Skipped rt db := by
  obtain ⟨row, hrow, hne⟩ := hg
  have happly : (Tamper.stateValue key value).apply db =
      { db with stateVariables := db.stateVariables.set key { row with value } } := by
    rw [Tamper.apply, hrow]
  rw [happly, deep_setState_iff hv, crossCheckRow_skips_iff]
  constructor
  · rintro (hblank | ⟨hhash, -⟩)
    · exact ⟨row, hrow, hblank⟩
    · by_contra hskip
      have hblank : ¬ BlankHash row.valueHash := fun hblank => hskip ⟨row, hrow, hblank⟩
      have hold := (valueHash_of_not_blank hv hrow hblank).1
      exact hne (hinj (Option.some.inj (hold.symm.trans hhash)))
  · rintro ⟨row', hrow', hblank⟩
    rw [hrow, Option.some.injEq] at hrow'
    subst hrow'
    exact Or.inl hblank

lemma stateHash_seen_iff {db : Db} (hv : (db.verifyAuditLog rt true).isValid = true)
    {key : String} {valueHash : Option String} (hg : (Tamper.stateHash key valueHash).Genuine db) :
    ((Tamper.stateHash key valueHash).apply db |>.verifyAuditLog rt true).isValid = true ↔
      (Tamper.stateHash key valueHash).Skipped rt db := by
  obtain ⟨row, hrow, hne⟩ := hg
  have happly : (Tamper.stateHash key valueHash).apply db =
      { db with stateVariables := db.stateVariables.set key { row with valueHash } } := by
    rw [Tamper.apply, hrow]
  rw [happly, deep_setState_iff hv, crossCheckRow_skips_iff]
  constructor
  · rintro (hblank | ⟨hhash, hfits⟩)
    · exact Or.inl hblank
    · refine Or.inr ⟨row, hrow, ?_, hhash, hfits⟩
      by_contra hblank
      exact hne ((valueHash_of_not_blank hv hrow hblank).1.trans hhash.symm)
  · rintro (hblank | ⟨row', hrow', -, hhash, hfits⟩)
    · exact Or.inl hblank
    · rw [hrow, Option.some.injEq] at hrow'
      subst hrow'
      exact Or.inr ⟨hhash, hfits⟩

lemma insertState_seen_iff {db : Db} (hv : (db.verifyAuditLog rt true).isValid = true)
    (key : String) (row : StateRow) :
    ((Tamper.insertState key row).apply db |>.verifyAuditLog rt true).isValid = true ↔
      (Tamper.insertState key row).Skipped rt db := by
  rw [Tamper.apply, deep_setState_iff hv, crossCheckRow_skips_iff]
  rfl

/-- A missing state row is never missed. -/
lemma removeState_unseen {db : Db} (hv : (db.verifyAuditLog rt true).isValid = true)
    (key : String) :
    ((Tamper.removeState key).apply db |>.verifyAuditLog rt true).isValid = true := by
  obtain ⟨hchain, hcontent, hstates⟩ := verifyAuditLog_deep_iff.mp hv
  refine verifyAuditLog_deep_iff.mpr ⟨hchain, hcontent, fun key' row hrow => ?_⟩
  change (db.stateVariables.erase key).get? key' = some row at hrow
  by_cases hkey : key = key'
  · subst hkey
    rw [PyDict.get?_erase_self] at hrow
    cases hrow
  · rw [PyDict.get?_erase_of_ne _ hkey] at hrow
    exact hstates key' row hrow

/-- **Tamper evidence.** In a store whose deep verification succeeds, with an injective digest, a
genuine change to an unredacted row is reported by the next deep verification unless it is one of
those that the verification skips. -/
theorem tamper_seen_iff (rt : Runtime) (hinj : Function.Injective rt.hexdigest) (db : Db)
    (hv : (db.verifyAuditLog rt true).isValid = true) (t : Tamper) (hg : t.Genuine db) :
    ((t.apply db).verifyAuditLog rt true).isValid = false ↔ ¬ t.Skipped rt db := by
  rw [← Bool.not_eq_true]
  refine not_congr ?_
  cases t with
  | auditContent seq newValue => exact auditContent_seen_iff hinj hv hg
  | stateValue key value => exact stateValue_seen_iff hinj hv hg
  | stateHash key valueHash => exact stateHash_seen_iff hv hg
  | insertState key row => exact insertState_seen_iff hv key row
  | removeState key => exact ⟨fun _ => trivial, fun _ => removeState_unseen hv key⟩

def oneVariable : Db :=
  (Db.empty.setSync Runtime.sample { key := "k", value := .bool true } 1).1

/-- A changed value is reported. -/
theorem changed_value_seen :
    (((Tamper.stateValue "k" "false").apply oneVariable).verifyAuditLog Runtime.sample
      true).isValid = false ↔ ¬ (Tamper.stateValue "k" "false").Skipped Runtime.sample oneVariable :=
  tamper_seen_iff Runtime.sample Runtime.sample_injective oneVariable (by decide) _
    ⟨⟨"true", 1, .finite 1, some "{}", some "#true"⟩, by decide, by decide⟩

/-- **A removed variable goes unnoticed.** -/
theorem removed_variable_unseen :
    ¬ ∀ (rt : Runtime), Function.Injective rt.hexdigest → ∀ db : Db,
      (db.verifyAuditLog rt true).isValid = true → ∀ t : Tamper, t.Genuine db →
        ((t.apply db).verifyAuditLog rt true).isValid = false := by
  intro h
  have hunseen := h Runtime.sample Runtime.sample_injective oneVariable (by decide)
    (.removeState "k") (by change (oneVariable.stateVariables.get? "k").isSome; decide)
  exact absurd hunseen (by decide)

end AtlasMemory
