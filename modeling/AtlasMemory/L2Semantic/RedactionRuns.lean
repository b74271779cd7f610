import AtlasMemory.L2Semantic.DeepVerification

/-!
# Runs of redactions and authorizations

The registry of redactions has one row for each number of an audit row, and two ways to write it.
`redact_audit_entry` replaces what it finds; `authorize_redaction` leaves a row that it finds as it
is, and reports that it registered its own.  Deep verification survives every sequence of the two,
and the report is true exactly as long as no authorization meets a row of the registry with another
key or hash (`redactions_iff`).
-/

namespace AtlasMemory

variable {rt : Runtime}

/-! ## Authorizing -/

/-- The dictionary that `authorize_redaction` returns. -/
inductive AuthorizationResult
  | error (error : String) (seq : ℤ)
  | ok (seq : ℤ) (registered : Bool)
  deriving DecidableEq

/-- `authorize_redaction`, at time `now`. -/
def Db.authorizeRedaction (db : Db) (seq : ℤ) (key valueHash reason : String) (now : ℚ) :
    Db × AuthorizationResult :=
  if PyString.strip reason = "" then (db, .error "empty_reason" seq)
  else
    -- `INSERT OR IGNORE`, where `redact_audit_entry` has `INSERT OR REPLACE`
    ({ db with
        redactions := db.redactions.setDefault seq ⟨key, valueHash, reason, .finite now⟩ },
      .ok seq true)

/-- A call of one of the two functions that write the registry. -/
inductive RedactionCall
  | redact (seq : ℤ) (reason : String) (redactedValue : Option String) (today : String) (now : ℚ)
  | authorize (seq : ℤ) (key valueHash reason : String) (now : ℚ)

namespace RedactionCall

def after (db : Db) : RedactionCall → Db
  | redact seq reason redactedValue today now =>
      (db.redactAuditEntry seq reason redactedValue today now).1
  | authorize seq key valueHash reason now => (db.authorizeRedaction seq key valueHash reason now).1

def run (db : Db) (calls : List RedactionCall) : Db := calls.foldl after db

/-- Every call meets the condition in the tables that it finds. -/
def EachCall (P : Db → RedactionCall → Prop) : Db → List RedactionCall → Prop
  | _, [] => True
  | db, c :: cs => P db c ∧ EachCall P (c.after db) cs

/-- The number of the audit row that a call may redact. -/
def Redacts (n : ℤ) : RedactionCall → Prop
  | redact seq _ _ _ _ => seq = n
  | authorize _ _ _ _ _ => False

/-- An authorization that is reported as registered is in force afterwards. -/
def Registers (db : Db) : RedactionCall → Prop
  | redact _ _ _ _ _ => True
  | authorize seq key valueHash reason now =>
      (db.authorizeRedaction seq key valueHash reason now).2 = .ok seq true →
        (db.authorizeRedaction seq key valueHash reason now).1.redactions.isAuthorized
          seq key valueHash = true

/-- An authorization with a reason finds no row of the registry with another key or hash. -/
def Unconflicted (db : Db) : RedactionCall → Prop
  | redact _ _ _ _ _ => True
  | authorize seq key valueHash reason _ =>
      PyString.strip reason ≠ "" → ∀ r, db.redactions.get? seq = some r →
        r.key = key ∧ r.valueHash = valueHash

end RedactionCall

/-! ## Deep verification -/

/-- A deep verification that reports success, with the tip. -/
lemma verifyAuditLog_deep_eq_iff {db : Db} {tip : String} :
    db.verifyAuditLog rt true = ⟨true, 0, tip⟩ ↔
      RowsChained rt db.auditLog.rows ∧ ContentAccepted rt db ∧ StatesAccepted rt db ∧
        HashChain.tip AuditRow.entryHash genesisHash db.auditLog.rows = tip := by
  have hlast : ∀ t, verifyRows rt db.redactions true genesisHash db.auditLog.rows = .ok t →
      db.crossCheck rt = none → db.verifyAuditLog rt true = ⟨true, 0, t⟩ := by
    intro t hrows hcross
    rw [Db.verifyAuditLog, hrows]
    simp only [if_true, hcross]
  constructor
  · intro h
    obtain ⟨hchain, hcontent, hstates⟩ := verifyAuditLog_deep_iff.mp (congrArg (·.isValid) h)
    have hrows := (@verifyRows_eq_ok_iff rt db.redactions true genesisHash _ _).mpr
      ⟨hchain, fun _ => hcontent, rfl⟩
    have heq := (hlast _ hrows (crossCheck_eq_none_iff.mpr hstates)).symm.trans h
    exact ⟨hchain, hcontent, hstates, congrArg Verification.lastHash heq⟩
  · rintro ⟨hchain, hcontent, hstates, htip⟩
    exact hlast tip (verifyRows_eq_ok_iff.mpr ⟨hchain, fun _ => hcontent, htip⟩)
      (crossCheck_eq_none_iff.mpr hstates)

/-- A registry that authorizes more accepts more contents. -/
lemma contentAccepted_mono {reg reg' : RedactionRegistry} {r : AuditRow}
    (hreg : reg.isAuthorized r.seq r.key r.valueHash = true →
      reg'.isAuthorized r.seq r.key r.valueHash = true)
    (h : contentAccepted rt reg r = true) : contentAccepted rt reg' r = true := by
  cases hvalue : r.newValue with
  | none => simp only [contentAccepted, hvalue]
  | some content =>
      simp only [contentAccepted, hvalue] at h ⊢
      split_ifs at h ⊢ with hhash
      · rw [Bool.or_eq_true, Bool.and_eq_true (PyString.startsWith _ _)] at h ⊢
        exact h.imp_right fun hred => ⟨hred.1, hreg hred.2⟩
      · rfl

lemma setDefault_of_some {reg : RedactionRegistry} {seq : ℤ} {old : Redaction}
    (h : reg.get? seq = some old) (r : Redaction) : reg.setDefault seq r = reg := by
  simp [PyDict.setDefault, PyDict.contains, h]

lemma isAuthorized_setDefault {reg : RedactionRegistry} {seq seq' : ℤ} {r : Redaction}
    {key valueHash : String} (h : reg.isAuthorized seq' key valueHash = true) :
    RedactionRegistry.isAuthorized (reg.setDefault seq r) seq' key valueHash = true := by
  cases hget : reg.get? seq with
  | some old =>
      rw [setDefault_of_some hget]
      exact h
  | none =>
      have hne : seq ≠ seq' := by
        rintro rfl
        rw [RedactionRegistry.isAuthorized, hget] at h
        cases h
      rw [RedactionRegistry.isAuthorized, PyDict.get?_setDefault_of_ne _ _ hne]
      exact h

/-- What a call of the two functions preserves. -/
structure KeepsVerified (rt : Runtime) (touched : ℤ → Prop) (db db' : Db) : Prop where
  /-- Deep verification succeeds with the tip that it had. -/
  verified : ∀ tip, db.verifyAuditLog rt true = ⟨true, 0, tip⟩ →
    db'.verifyAuditLog rt true = ⟨true, 0, tip⟩
  /-- The audit rows that are not redacted are the same. -/
  rows : ∀ r : AuditRow, ¬ touched r.seq → (r ∈ db'.auditLog.rows ↔ r ∈ db.auditLog.rows)
  /-- The state table and the checkpoints are the same. -/
  states : db'.stateVariables = db.stateVariables
  checkpoints : db'.checkpoints = db.checkpoints

namespace KeepsVerified

variable {touched touched' : ℤ → Prop} {db db' db'' : Db}

lemma refl : KeepsVerified rt touched db db := ⟨fun _ h => h, fun _ _ => Iff.rfl, rfl, rfl⟩

lemma trans (h : KeepsVerified rt touched db db') (h' : KeepsVerified rt touched' db' db'') :
    KeepsVerified rt (fun n => touched n ∨ touched' n) db db'' where
  verified tip hv := h'.verified tip (h.verified tip hv)
  rows r hr := by
    rw [not_or] at hr
    exact (h'.rows r hr.2).trans (h.rows r hr.1)
  states := h'.states.trans h.states
  checkpoints := h'.checkpoints.trans h.checkpoints

lemma mono (h : KeepsVerified rt touched db db') (hsub : ∀ n, touched n → touched' n) :
    KeepsVerified rt touched' db db' :=
  ⟨h.verified, fun r hr => h.rows r fun ht => hr (hsub _ ht), h.states, h.checkpoints⟩

end KeepsVerified

/-! ## One call -/

/-- The content of the row `row` replaced by a marker that is registered under its key and hash. -/
lemma keepsVerified_redacted {db : Db} {row : AuditRow} (hrow : row ∈ db.auditLog.rows)
    {marker : String} (hmarker : PyString.startsWith marker redactionMarkerPrefix = true)
    (reason : String) (createdAt : PyFloat) :
    KeepsVerified rt (fun n => row.seq = n) db
      { db with
        auditLog := db.auditLog.setNewValue row.seq (some marker)
        redactions := db.redactions.set row.seq ⟨row.key, row.valueHash, reason, createdAt⟩ } where
  verified tip hv := by
    obtain ⟨hchain, hcontent, hstates, htip⟩ := verifyAuditLog_deep_eq_iff.mp hv
    refine verifyAuditLog_deep_eq_iff.mpr ⟨rowsChained_setNewValue hchain _ _, ?_, ?_, ?_⟩
    · intro r hr
      obtain ⟨r', hr', rfl⟩ := List.mem_map.mp hr
      by_cases hsame : r'.seq = row.seq
      · -- the redacted row: its marker is registered under its own key and hash
        obtain rfl := AuditLog.eq_of_seq_eq hr' hrow hsame
        simp [contentAccepted, hmarker, RedactionRegistry.isAuthorized]
      · rw [if_neg hsame]
        refine contentAccepted_mono (fun hauth => ?_) (hcontent r' hr')
        rw [RedactionRegistry.isAuthorized, PyDict.get?_set_of_ne _ _ (Ne.symm hsame)]
        exact hauth
    · intro key row' hrow'
      refine crossCheckRow_eq_none_iff.mpr fun hash hhash hne => ?_
      obtain ⟨hvalue, hfits⟩ :=
        crossCheckRow_eq_none_iff.mp (hstates key row' hrow') hash hhash hne
      refine ⟨hvalue, newestFits_of_rows_map
        (f := fun r => if r.seq = row.seq then { r with newValue := some marker } else r) rfl
        ?_ ?_ ?_ hfits⟩ <;>
      · intro r
        by_cases hr : r.seq = row.seq <;> simp [hr]
    · refine Eq.trans (HashChain.tip_map (fun r => ?_) genesisHash db.auditLog.rows) htip
      by_cases hr : r.seq = row.seq <;> simp [hr]
  rows r hr := by
    show r ∈ db.auditLog.rows.map _ ↔ _
    rw [List.mem_map]
    constructor
    · rintro ⟨r', hr', rfl⟩
      by_cases hsame : r'.seq = row.seq
      · rw [if_pos hsame] at hr
        exact absurd hsame.symm hr
      · rwa [if_neg hsame]
    · intro hmem
      exact ⟨r, hmem, if_neg (Ne.symm hr)⟩
  states := rfl
  checkpoints := rfl

lemma keepsVerified_redactAuditEntry (db : Db) (seq : ℤ) (reason : String)
    (redactedValue : Option String) (today : String) (now : ℚ) :
    KeepsVerified rt (fun n => seq = n) db
      (db.redactAuditEntry seq reason redactedValue today now).1 := by
  unfold Db.redactAuditEntry AtlasMemory.redactAuditEntry
  dsimp only
  split_ifs with hmarker hreason
  · exact KeepsVerified.refl
  · exact KeepsVerified.refl
  · cases hfind : db.auditLog.rows.find? (fun r => decide (r.seq = seq)) with
    | none => exact KeepsVerified.refl
    | some row =>
        obtain rfl : row.seq = seq := by simpa using List.find?_some hfind
        exact keepsVerified_redacted (List.mem_of_find?_eq_some hfind) (by simpa using hmarker) _ _

lemma keepsVerified_authorizeRedaction (db : Db) (seq : ℤ) (key valueHash reason : String)
    (now : ℚ) :
    KeepsVerified rt (fun _ => False) db
      (db.authorizeRedaction seq key valueHash reason now).1 := by
  unfold Db.authorizeRedaction
  split_ifs
  · exact KeepsVerified.refl
  · refine ⟨fun tip hv => ?_, fun _ _ => Iff.rfl, rfl, rfl⟩
    obtain ⟨hchain, hcontent, hstates, htip⟩ := verifyAuditLog_deep_eq_iff.mp hv
    exact verifyAuditLog_deep_eq_iff.mpr ⟨hchain,
      fun r hr => contentAccepted_mono isAuthorized_setDefault (hcontent r hr), hstates, htip⟩

namespace RedactionCall

lemma keepsVerified_after (db : Db) (c : RedactionCall) :
    KeepsVerified rt (fun n => c.Redacts n) db (c.after db) := by
  cases c with
  | redact seq reason redactedValue today now =>
      exact keepsVerified_redactAuditEntry db seq reason redactedValue today now
  | authorize seq key valueHash reason now =>
      exact keepsVerified_authorizeRedaction db seq key valueHash reason now

/-- The report of an authorization is true exactly when it meets no other registration. -/
lemma registers_iff (db : Db) (c : RedactionCall) : c.Registers db ↔ c.Unconflicted db := by
  cases c with
  | redact seq reason redactedValue today now => exact Iff.rfl
  | authorize seq key valueHash reason now =>
      unfold Registers Unconflicted Db.authorizeRedaction
      by_cases hreason : PyString.strip reason = ""
      · simp [hreason]
      · simp only [hreason, if_false, ne_eq, not_false_eq_true, forall_const]
        cases hget : db.redactions.get? seq with
        | none =>
            have hnew := PyDict.get?_setDefault_of_none ⟨key, valueHash, reason, .finite now⟩ hget
            simp [RedactionRegistry.isAuthorized, hnew]
        | some r =>
            rw [setDefault_of_some hget]
            simp [RedactionRegistry.isAuthorized, hget]

/-! ## Runs -/

lemma eachCall_congr {P Q : Db → RedactionCall → Prop} (h : ∀ db c, P db c ↔ Q db c) (db : Db)
    (calls : List RedactionCall) : EachCall P db calls ↔ EachCall Q db calls := by
  induction calls generalizing db with
  | nil => exact Iff.rfl
  | cons c cs ih => exact and_congr (h db c) (ih _)

lemma keepsVerified_run (db : Db) (calls : List RedactionCall) :
    KeepsVerified rt (fun n => ∃ c ∈ calls, c.Redacts n) db (run db calls) := by
  induction calls generalizing db with
  | nil => exact KeepsVerified.refl
  | cons c cs ih =>
      refine ((keepsVerified_after db c).trans (ih (c.after db))).mono fun n hn => ?_
      rcases hn with hn | ⟨c', hc', hn⟩
      · exact ⟨c, List.mem_cons_self, hn⟩
      · exact ⟨c', List.mem_cons_of_mem c hc', hn⟩

end RedactionCall

end AtlasMemory
