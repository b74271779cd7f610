import AtlasMemory.Foundations.JsonRoundTrip
import AtlasMemory.Foundations.SeparatedText
import AtlasMemory.L2Semantic.ChainInvariant

/-!
# What the tip of the ledger binds

The entry hash seals the sequence number, the time stamp, the key, the value hash and the previous
hash of a row, joined by colons.  Numbers and digests contain no colon, but a key does, and the
value hash may be any text that the caller of `append_audit_log` gives.  So the tip determines of
every row the number, the time stamp and the text `key:value_hash`, and it determines the two sides
of that text exactly if the value hash has as many colons (`ledger_binding_iff`).
-/

namespace AtlasMemory

open HashChain SeparatedText

variable {rt : Runtime}

/-! ## Numbers and digests have no colon -/

lemma colon_notMem_toString (n : ℤ) : ':' ∉ (toString n).toList :=
  notMem_toString (by decide) (by decide) n

lemma colon_notMem_floatStr (x : PyFloat) : ':' ∉ (rt.floatStr x).toList := by
  cases x with
  | finite q =>
      intro h
      exact absurd (Json.forall_of_isNumber (rt.floatLit q).valid ':' h) (by decide)
  | negZero => exact show ':' ∉ "-0.0".toList by decide
  | posInf => exact show ':' ∉ "inf".toList by decide
  | negInf => exact show ':' ∉ "-inf".toList by decide
  | nan => exact show ':' ∉ "nan".toList by decide

lemma toList_genesisHash : genesisHash.toList = List.replicate 64 '0' := String.toList_ofList

lemma colon_notMem_genesisHash : ':' ∉ genesisHash.toList := by
  intro h
  rw [toList_genesisHash] at h
  exact absurd (List.eq_of_mem_replicate h) (by decide)

/-! ## The sealed text -/

/-- What the entry hash seals of a row for certain. -/
def AuditRow.sealed (r : AuditRow) : ℤ × PyFloat × List Char :=
  (r.seq, r.timestamp, r.key.toList ++ ':' :: r.valueHash.toList)

/-- The columns that the entry hash covers. -/
def AuditRow.covered (r : AuditRow) : ℤ × PyFloat × String × String :=
  (r.seq, r.timestamp, r.key, r.valueHash)

/-- The number of colons in the value hash. -/
def AuditRow.colons (r : AuditRow) : ℕ := r.valueHash.toList.count ':'

/-- The entry hash determines the sealed columns and the previous hash. -/
lemma sealed_eq_of_entryStamp_eq (hinj : Function.Injective rt.hexdigest) {r r' : AuditRow}
    (hprev : ':' ∉ r.prevHash.toList) (hprev' : ':' ∉ r'.prevHash.toList)
    (hfloat : rt.floatStr r.timestamp = rt.floatStr r'.timestamp → r.timestamp = r'.timestamp)
    (h : rt.entryStamp r r.prevHash = rt.entryStamp r' r'.prevHash) :
    r.sealed = r'.sealed ∧ r.prevHash = r'.prevHash := by
  have htext := congrArg String.toList (hinj h)
  simp only [String.toList_append, show ":".toList = [':'] from rfl, List.append_assoc,
    List.cons_append, List.nil_append] at htext
  obtain ⟨hseq, htext⟩ := append_cons_inj_of_notMem htext (colon_notMem_toString _)
    (colon_notMem_toString _)
  obtain ⟨htimestamp, htext⟩ := append_cons_inj_of_notMem htext (colon_notMem_floatStr _)
    (colon_notMem_floatStr _)
  have hassoc : ∀ k v p : List Char, k ++ ':' :: (v ++ ':' :: p) = (k ++ ':' :: v) ++ ':' :: p := by
    intro k v p
    rw [List.append_assoc, List.cons_append]
  rw [hassoc, hassoc] at htext
  obtain ⟨hpair, hlink⟩ := append_cons_inj_of_count htext (by
    rw [List.count_eq_zero.mpr hprev, List.count_eq_zero.mpr hprev'])
  refine ⟨?_, String.toList_inj.mp hlink⟩
  rw [AuditRow.sealed, AuditRow.sealed, toString_injective (String.toList_inj.mp hseq),
    hfloat (String.toList_inj.mp htimestamp), hpair]

/-- The covered columns are the sealed ones with a place to split the text. -/
lemma covered_eq_iff {r r' : AuditRow} (h : r.sealed = r'.sealed) :
    r.covered = r'.covered ↔ r.colons = r'.colons := by
  constructor
  · intro hcovered
    exact congrArg (fun c : ℤ × PyFloat × String × String => c.2.2.2.toList.count ':') hcovered
  · intro hcolons
    simp only [AuditRow.sealed, Prod.mk.injEq] at h
    obtain ⟨hseq, htimestamp, htext⟩ := h
    obtain ⟨hkey, hhash⟩ := append_cons_inj_of_count htext hcolons
    rw [AuditRow.covered, AuditRow.covered, hseq, htimestamp, String.toList_inj.mp hkey,
      String.toList_inj.mp hhash]

lemma map_covered_eq_iff {rows rows' : List AuditRow}
    (h : rows.map AuditRow.sealed = rows'.map AuditRow.sealed) :
    rows.map AuditRow.covered = rows'.map AuditRow.covered ↔
      rows.map AuditRow.colons = rows'.map AuditRow.colons := by
  induction rows generalizing rows' with
  | nil =>
      rw [List.map_nil, eq_comm, List.map_eq_nil_iff] at h
      rw [h]
      exact iff_of_true rfl rfl
  | cons r rs ih =>
      cases rows' with
      | nil => cases h
      | cons r' rs' =>
          obtain ⟨hr, hrs⟩ := List.cons.inj h
          rw [List.map_cons, List.map_cons, List.map_cons, List.map_cons, List.cons.injEq,
            List.cons.injEq, covered_eq_iff hr, ih hrs]

/-! ## The ledger -/

/-- What a successful shallow verification says about the rows. -/
lemma chained_of_verifyAuditLog {db : Db} {tip : String}
    (h : db.verifyAuditLog rt false = ⟨true, 0, tip⟩) :
    RowsChained rt db.auditLog.rows ∧
      HashChain.tip AuditRow.entryHash genesisHash db.auditLog.rows = tip := by
  rw [Db.verifyAuditLog] at h
  cases hv : verifyRows rt db.redactions false genesisHash db.auditLog.rows with
  | error verdict =>
      rw [hv] at h
      have hinvalid := isValid_of_error hv
      change verdict = _ at h
      rw [h] at hinvalid
      cases hinvalid
  | ok reached =>
      rw [hv] at h
      have hreached : reached = tip := congrArg Verification.lastHash h
      obtain ⟨hchain, -, htip⟩ := verifyRows_eq_ok_iff.mp hv
      exact ⟨hchain, htip.trans hreached⟩

/-- **Binding.** Two ledgers that verify with the same tip and have as many rows agree row by row on
number, time stamp, key and value hash exactly if the value hashes have as many colons row by
row. -/
theorem ledger_binding_iff (rt : Runtime) (hinj : Function.Injective rt.hexdigest)
    (hdigest : ∀ s, ':' ∉ (rt.hexdigest s).toList) (db db' : Db) (tip : String)
    (hfloat : ∀ r ∈ db.auditLog.rows, ∀ r' ∈ db'.auditLog.rows,
      rt.floatStr r.timestamp = rt.floatStr r'.timestamp → r.timestamp = r'.timestamp)
    (hverify : db.verifyAuditLog rt false = ⟨true, 0, tip⟩)
    (hverify' : db'.verifyAuditLog rt false = ⟨true, 0, tip⟩)
    (hlen : db.auditLog.rows.length = db'.auditLog.rows.length) :
    db.auditLog.rows.map AuditRow.covered = db'.auditLog.rows.map AuditRow.covered ↔
      db.auditLog.rows.map AuditRow.colons = db'.auditLog.rows.map AuditRow.colons := by
  obtain ⟨hchain, htip⟩ := chained_of_verifyAuditLog hverify
  obtain ⟨hchain', htip'⟩ := chained_of_verifyAuditLog hverify'
  have hprev := forall_prev_of_chained (P := fun hash => ':' ∉ hash.toList) hchain
    colon_notMem_genesisHash fun _ _ => hdigest _
  have hprev' := forall_prev_of_chained (P := fun hash => ':' ∉ hash.toList) hchain'
    colon_notMem_genesisHash fun _ _ => hdigest _
  refine map_covered_eq_iff (map_eq_of_tip_eq hchain hchain' ?_ (htip.trans htip'.symm) hlen)
  intro r hr r' hr' hstamp
  exact sealed_eq_of_entryStamp_eq hinj (hprev r hr) (hprev' r' hr') (hfloat r hr r' hr') hstamp

def escapeColon (c : Char) : List Char :=
  if c = ':' then ['/', '1'] else if c = '/' then ['/', '0'] else [c]

lemma colon_notMem_escapeColon (c : Char) : ':' ∉ escapeColon c := by
  unfold escapeColon
  split_ifs with hcolon
  · decide
  · decide
  · rw [List.mem_singleton]
    exact fun h => hcolon h.symm

/-- The replacement of one character is never the start of that of another. -/
lemma escapeColon_append_inj {c d : Char} {cs ds : List Char}
    (h : escapeColon c ++ cs = escapeColon d ++ ds) : c = d ∧ cs = ds := by
  unfold escapeColon at h
  split_ifs at h <;> grind

lemma flatMap_escapeColon_injective {cs ds : List Char}
    (h : cs.flatMap escapeColon = ds.flatMap escapeColon) : cs = ds := by
  have hne : ∀ (c : Char) (rest : List Char), escapeColon c ++ rest ≠ [] := by
    intro c rest
    unfold escapeColon
    split_ifs <;> exact List.cons_ne_nil _ _
  induction cs generalizing ds with
  | nil =>
      cases ds with
      | nil => rfl
      | cons d ds => exact absurd h.symm (hne d _)
  | cons c cs ih =>
      cases ds with
      | nil => exact absurd h (hne c _)
      | cons d ds =>
          rw [List.flatMap_cons, List.flatMap_cons] at h
          obtain ⟨rfl, hrest⟩ := escapeColon_append_inj h
          rw [ih hrest]

/-- A runtime for evaluating the model in which no digest has a colon. -/
def Runtime.colonFree : Runtime :=
  { Runtime.sample with
    hexdigest := fun s => String.ofList ('#' :: s.toList.flatMap escapeColon)
    hexdigest_ne_empty := fun s h => by
      have hlist := congrArg String.toList h
      rw [String.toList_ofList] at hlist
      exact absurd hlist (List.cons_ne_nil _ _) }

lemma colonFree_injective : Function.Injective Runtime.colonFree.hexdigest := by
  intro s t h
  have hlist := (List.cons.inj (String.ofList_injective h)).2
  exact String.toList_inj.mp (flatMap_escapeColon_injective hlist)

lemma colon_notMem_colonFree (s : String) : ':' ∉ (Runtime.colonFree.hexdigest s).toList := by
  show ':' ∉ (String.ofList ('#' :: s.toList.flatMap escapeColon)).toList
  rw [String.toList_ofList, List.mem_cons, List.mem_flatMap]
  rintro (hmark | ⟨c, -, hc⟩)
  · exact absurd hmark (by decide)
  · exact colon_notMem_escapeColon c hc

/-- A ledger with one write under a key with a colon, for the given reason. -/
def oneWrite (reason : String) : Db :=
  (VerifiedKVStore.init.run Runtime.colonFree
    [.setSync { key := "user:name", value := .bool true, reason } 1]).db

/-- Two ledgers that differ in a column that is not covered. -/
theorem ledger_binding_oneWrite :
    (oneWrite "update").auditLog.rows.map AuditRow.covered =
        (oneWrite "edit").auditLog.rows.map AuditRow.covered ↔
      (oneWrite "update").auditLog.rows.map AuditRow.colons =
        (oneWrite "edit").auditLog.rows.map AuditRow.colons :=
  ledger_binding_iff Runtime.colonFree colonFree_injective colon_notMem_colonFree
    (oneWrite "update") (oneWrite "edit")
    ((oneWrite "update").verifyAuditLog Runtime.colonFree false).lastHash
    (by decide) (by decide) (by decide) (by decide)

/-- A ledger with one appended entry whose caller gives the value hash. -/
def oneEntry (key valueHash : String) : Db :=
  (VerifiedKVStore.init.run Runtime.sample
    [.appendAuditLog ⟨.given (.finite 1), some key, .given (.str "v"), some valueHash, .missing,
      none⟩ 1]).db

/-- **The colon is ambiguous.** An entry with the key `a:b` and the value hash `c` has the entry
hash of one with the key `a` and the value hash `b:c`. -/
theorem ledger_not_bound :
    ¬ ∀ (rt : Runtime), Function.Injective rt.hexdigest → (∀ s, rt.hexdigest s ≠ genesisHash) →
      ∀ (db db' : Db) (tip : String), db.verifyAuditLog rt false = ⟨true, 0, tip⟩ →
        db'.verifyAuditLog rt false = ⟨true, 0, tip⟩ →
        db.auditLog.rows.length = db'.auditLog.rows.length →
        db.auditLog.rows.map AuditRow.covered = db'.auditLog.rows.map AuditRow.covered := by
  intro h
  have hgenesis : ∀ s, Runtime.sample.hexdigest s ≠ genesisHash := by
    intro s heq
    have hlist : ("#" ++ s).toList = genesisHash.toList := congrArg String.toList heq
    rw [toList_genesisHash, String.toList_append] at hlist
    have hmark : '#' ∈ List.replicate 64 '0' := hlist ▸ List.mem_append_left _ (by decide)
    exact absurd (List.eq_of_mem_replicate hmark) (by decide)
  have hbound := h Runtime.sample Runtime.sample_injective hgenesis (oneEntry "a:b" "c")
    (oneEntry "a" "b:c") ((oneEntry "a" "b:c").verifyAuditLog Runtime.sample false).lastHash
    (by decide) (by decide) (by decide)
  exact absurd hbound (by decide)

end AtlasMemory
