import AtlasMemory.Cognitive.RevisionCount
import AtlasMemory.Cognitive.RowOrigins
import AtlasMemory.Core.Models
import AtlasMemory.L2Semantic.BatchLookups
import AtlasMemory.L2Semantic.ValueReadback
import AtlasMemory.Server.SyncTurn

/-!
# The ingestion of memory files

The model of `extract_memory_md_records` and `sync_memory_md_into_engine`: the sections of the
memory files, each under a key made from the first line of its text, are compared with the record
that the store has for the key, and where they differ from it they go through the write path.  Which
files are read is given, with the text of each, or none for a file that cannot be read; so are the
barrier that turns away the subjects of a conversation, `str.upper`, and the item of the vector
store that is made of a record.  A write that raises is passed over.

The key keeps only the kind of the file and the subject.  `settles_iff_keysApart` says for which
files a second run finds nothing to do.
-/

namespace AtlasMemory

namespace MnemosyneIngest

open SyncTurn (strippedLines words)

/-! ## Sections -/

/-- A memory file. -/
structure MemoryFile where
  path : String
  stem : String
  /-- The text of the file, if it can be read. -/
  content : Option String

/-- `MemoryRecord`, with the fields that differ from section to section. -/
structure SectionRecord where
  subject : String
  object : String
  importanceScore : ℚ
  origin : String
  sectionIndex : ℕ
  sourceFile : String

/-- What the ingestion uses. -/
structure IngestEnv (ρ : Type) where
  path : WriteEnv ρ
  /-- `text.upper()`. -/
  upper : String → String
  /-- `is_discourse_garbage_subject`. -/
  isDiscourseGarbageSubject : String → Bool
  /-- The item of the vector store. -/
  vectorOf : SectionRecord → ρ

variable {ρ : Type} (env : IngestEnv ρ)

/-- `subject`. -/
def sectionSubject (idx : ℕ) (firstLine : String) : String :=
  if PyString.hasChar ':' firstLine then PyString.strip ((PyString.split ':' firstLine).headD "")
  else if words firstLine = [] then "fact_" ++ toString idx
  else String.ofList ([' '].intercalate ((words firstLine).take 5))

/-- `origin_name`. -/
def originName (file : MemoryFile) : String :=
  if env.upper file.stem = "USER" then "hermes_user_md" else "hermes_memory_md"

/-- The record of a section, if its subject passes the barrier.  The record takes the characters out
of its texts that are not safe, the barrier does not. -/
def sectionRecord (file : MemoryFile) (idx : ℕ) (sec : String) : Option SectionRecord :=
  match (strippedLines sec).filter fun line => decide (line ≠ "") with
  | [] => none
  | firstLine :: _ =>
    let subject := sectionSubject idx firstLine
    if env.isDiscourseGarbageSubject subject then none
    else
      some
        { subject := sanitizeEpistemicText subject
          object := sanitizeEpistemicText sec
          importanceScore := if originName env file = "hermes_user_md" then 98 / 100 else 90 / 100
          origin := originName env file
          sectionIndex := idx
          sourceFile := file.path }

/-- `raw_sections`. -/
def rawSections (content : String) : List String :=
  ((PyString.split '§' content).map PyString.strip).filter fun s => decide (s ≠ "")

def fileRecords (file : MemoryFile) : List SectionRecord :=
  match file.content with
  | some content => (rawSections content).zipIdx.filterMap fun p => sectionRecord env file p.2 p.1
  | none => []

/-- `extract_memory_md_records`. -/
def extractMemoryMdRecords (files : List MemoryFile) : List SectionRecord :=
  files.flatMap (fileRecords env)

namespace SectionRecord

/-- `var_key`. -/
def varKey (rec : SectionRecord) : String :=
  "hermes:" ++ (if rec.origin = "hermes_user_md" then "user_md" else "memory_md") ++ ":" ++
    rec.subject

end SectionRecord

/-! ## The comparison with the store -/

/-- `re.sub(r"\s+", " ", text.strip())`. -/
def normContent (text : String) : String :=
  String.ofList (Fingerprint.collapseSpaces false (PyString.strip text).toList)

/-- `content_hash`. -/
def contentHash (rec : SectionRecord) : String := env.path.rt.hexdigest (normContent rec.object)

/-- `get_sync`, with the items that the ingestion reads. -/
def existing (s : Stores ρ) (key : String) : Option MemoryItem :=
  (s.kv.db.stateVariables.lookup key).map fun e => e.2.toMemoryItem env.path.rt e.1

/-- `existing_norm`. -/
def existingNorm (m : MemoryItem) : String :=
  match m.value with
  | .null => ""
  | v => normContent (env.path.rt.pyStr v)

/-- `content_hash == existing_hash`. -/
def hasHash (m : MemoryItem) (hash : String) : Bool :=
  match m.metadata.get? "content_hash" with
  | some (.str hash') => decide (hash = hash')
  | _ => false

/-- The section is the one that the store has: the record has its hash, or its text up to white
space. -/
def isUnchanged (s : Stores ρ) (rec : SectionRecord) : Bool :=
  match existing env s rec.varKey with
  | some m =>
    hasHash m (contentHash env rec) || decide (normContent rec.object = existingNorm env m)
  | none => false

/-! ## Ingestion -/

/-- `rec.metadata`. -/
def sectionMetadata (rec : SectionRecord) : PyDict String Json :=
  PyDict.ofEntries [("origin", .str rec.origin),
    ("section_index", .number (.ofInt rec.sectionIndex)),
    ("source_file", .str rec.sourceFile),
    ("content_hash", .str (contentHash env rec))]

def sectionWrite (isUpdate : Bool) (rec : SectionRecord) : WriteRequest ρ where
  key := .str rec.varKey
  value := .str rec.object
  confidence := .finite 1
  metadata := some (sectionMetadata env rec)
  sourceType := some "user_explicit"
  reason := if isUpdate then "sync_memory_md_update" else "sync_memory_md"
  vectorRecord := some (env.vectorOf rec)

/-- The stores, and the counters of the run. -/
structure SyncState (ρ : Type) where
  stores : Stores ρ
  count : ℕ := 0
  updated : ℕ := 0
  vectorsIndexed : ℕ := 0
  graphEdgesAdded : ℕ := 0

/-- The counters after a write that returned. -/
def SyncState.counted (st : SyncState ρ) (isUpdate : Bool) (resp : WriteResponse) : SyncState ρ :=
  { st with
    count := if isUpdate then st.count else st.count + 1
    updated := if isUpdate then st.updated + 1 else st.updated
    vectorsIndexed := if resp.status = "ok" then st.vectorsIndexed + 1 else st.vectorsIndexed
    graphEdgesAdded :=
      if resp.status = "ok" then st.graphEdgesAdded + resp.edgesAdded else st.graphEdgesAdded }

def isUpdate (s : Stores ρ) (rec : SectionRecord) : Bool := (existing env s rec.varKey).isSome

def syncRecord (times : WriteTimes) (st : SyncState ρ) (rec : SectionRecord) : SyncState ρ :=
  if isUnchanged env st.stores rec then st
  else
    let update := isUpdate env st.stores rec
    match WritePath.write env.path st.stores (sectionWrite env update rec) times with
    | (stores, .ok resp) => SyncState.counted { st with stores := stores } update resp
    | (stores, .error _) => { st with stores := stores }

/-- The loop, with the readings of the clock in each round. -/
def syncRecords (clock : ℕ → WriteTimes) : ℕ → SyncState ρ → List SectionRecord → SyncState ρ
  | _, st, [] => st
  | n, st, rec :: recs => syncRecords clock (n + 1) (syncRecord env (clock n) st rec) recs

/-- The items of the report that a run with sections has beside the numbers of writes. -/
structure SyncDetails where
  unchanged : ℕ
  vectorsIndexed : ℕ
  graphEdgesAdded : ℕ
  totalSections : ℕ
  deriving DecidableEq

/-- The dictionary that a run returns. -/
structure SyncReport where
  ingested : ℕ := 0
  updated : ℕ := 0
  details : Option SyncDetails := none
  deriving DecidableEq

/-- `sync_memory_md_into_engine`. -/
def syncMemoryMdIntoEngine (clock : ℕ → WriteTimes) (s : Stores ρ) (files : List MemoryFile) :
    Stores ρ × SyncReport :=
  let recs := extractMemoryMdRecords env files
  if recs = [] then (s, {})
  else
    let st := syncRecords env clock 0 { stores := s } recs
    (st.stores,
      { ingested := st.count
        updated := st.updated
        details := some ⟨recs.length - st.count - st.updated, st.vectorsIndexed,
          st.graphEdgesAdded, recs.length⟩ })

end MnemosyneIngest

/-! ## What the lookup of a key keeps finding -/

namespace StateTable

/-- The lookup of `own` finds the record under `found`, and every record under one of the two keys
has the text as its value. -/
structure Reads (t : StateTable) (own found text : String) : Prop where
  there : found ∈ t.keys
  value : ∀ key row, key = found ∨ key = own → t.get? key = some row → row.decodedValue = .str text
  first : t.get? own = none →
    (t.keys.find? fun k => decide (SqlText.lower k = SqlText.lower own)) = some found

variable {t : StateTable} {own found text : String} {row : StateRow}

lemma reads_self (hrow : t.get? own = some row) (hvalue : row.decodedValue = .str text) :
    t.Reads own own text where
  there := PyDict.mem_keys_of_get? hrow
  value key row' hkey hrow' := by
    obtain rfl : key = own := hkey.elim id id
    obtain rfl := Option.some.inj (hrow.symm.trans hrow')
    exact hvalue
  first h := by
    rw [hrow] at h
    cases h

lemma reads_of_lookup (h : t.lookup own = some (found, row))
    (hvalue : ∀ key row, key = found ∨ key = own → t.get? key = some row →
      row.decodedValue = .str text) : t.Reads own found text where
  there := PyDict.mem_keys_of_get? (mem_of_lookup h)
  value := hvalue
  first habsent := by
    unfold lookup at h
    rw [habsent] at h
    unfold PyDict.keys
    rw [List.find?_map]
    exact congrArg (Option.map Prod.fst) h

lemma Reads.of_lookup (h : t.Reads own found text) {key stored : String}
    (hkey : key = found ∨ key = own) (hlookup : t.lookup key = some (stored, row)) :
    row.decodedValue = .str text := by
  cases hget : t.get? key with
  | some row' =>
      rw [lookup, hget] at hlookup
      obtain ⟨rfl, rfl⟩ := Prod.mk.inj (Option.some.inj hlookup)
      exact h.value key _ hkey hget
  | none =>
      have hown : key = own := by
        rcases hkey with rfl | hown
        · exact absurd h.there (PyDict.get?_eq_none_iff.mp hget)
        · exact hown
      subst hown
      have hfirst := h.first hget
      unfold PyDict.keys at hfirst
      rw [List.find?_map] at hfirst
      rw [lookup, hget] at hlookup
      have hstored : stored = found :=
        Option.some.inj ((congrArg (Option.map Prod.fst) hlookup).symm.trans hfirst)
      have hrow : t.get? stored = some row :=
        mem_of_lookup (by rw [lookup, hget]; exact hlookup)
      exact h.value stored row (Or.inl hstored) hrow

lemma Reads.exists_lookup (h : t.Reads own found text) : ∃ stored row,
    t.lookup own = some (stored, row) ∧ row.decodedValue = .str text := by
  have hsome : ∃ e, t.lookup own = some e := by
    cases hget : t.get? own with
    | some row =>
        rw [lookup, hget]
        exact ⟨_, rfl⟩
    | none =>
        have hfirst := h.first hget
        unfold PyDict.keys at hfirst
        rw [List.find?_map, Option.map_eq_some_iff] at hfirst
        obtain ⟨e, he, -⟩ := hfirst
        rw [lookup, hget]
        exact ⟨e, he⟩
  obtain ⟨⟨stored, row⟩, he⟩ := hsome
  exact ⟨stored, row, he, h.of_lookup (Or.inr rfl) he⟩

/-- A row that has the text where it is one of the two. -/
lemma Reads.set (h : t.Reads own found text) {key : String}
    (hrow : key = found ∨ key = own → row.decodedValue = .str text) :
    StateTable.Reads (PyDict.set t key row) own found text where
  there := by
    unfold PyDict.keys PyDict.set
    rw [PyDict.map_fst_assign]
    split_ifs
    · exact h.there
    · exact List.mem_append_left _ h.there
  value key' row' hkey' hrow' := by
    rw [PyDict.get?_set] at hrow'
    split_ifs at hrow' with heq
    · rw [← Option.some.inj hrow']
      exact hrow (heq ▸ hkey')
    · exact h.value key' row' hkey' hrow'
  first habsent := by
    rw [PyDict.get?_set] at habsent
    split_ifs at habsent with heq
    have hfirst := h.first habsent
    unfold PyDict.keys PyDict.set at *
    rw [PyDict.map_fst_assign]
    split_ifs
    · exact hfirst
    · rw [List.find?_append, hfirst, Option.some_or]

end StateTable

/-! ## What a write of another text keeps -/

namespace WritePath

variable {ρ : Type}

/-- The store reads the text under `own`, and the buffer has no other text there. -/
structure Settled (s : Stores ρ) (own found text : String) : Prop where
  reads : s.kv.db.stateVariables.Reads own found text
  buffered : ∀ e ∈ s.hot.buffer, e.key = found ∨ e.key = own → e.value = .str text

variable {env : WriteEnv ρ} {s : Stores ρ} {own found text : String}

lemma Settled.value_of_held (h : Settled s own found text) {key : String}
    (hkey : key = found ∨ key = own) {m : MemoryItem} (hm : m ∈ heldRecords env s key) :
    m.value = .str text := by
  rcases List.mem_append.mp hm with hm | hm
  · rw [Option.mem_toList] at hm
    obtain ⟨row, hrow, rfl⟩ := Option.map_eq_some_iff.mp hm
    exact h.reads.value key row hkey hrow
  · obtain ⟨e, he, rfl⟩ := List.mem_map.mp hm
    obtain ⟨hbuffer, hentry⟩ := List.mem_filter.mp he
    exact h.buffered e hbuffer (of_decide_eq_true hentry ▸ hkey)

/-- A row that is written with the text has it, if the text comes back. -/
lemma decodedValue_of_readsBack (hback : ReadsBack (.str text)) {row : StateRow} {v : Json}
    (hrow : row.value = v.dumps) (hv : v = .str text) : row.decodedValue = .str text :=
  StateRow.decodedValue_str_iff (hrow.trans (congrArg Json.dumps hv)) |>.mpr hback

/-- A call that sets the text where it sets one of the two keys. -/
lemma reads_setSync {kv : VerifiedKVStore} (h : kv.db.stateVariables.Reads own found text)
    (hback : ReadsBack (.str text)) {b : SetArgs} {now : ℚ}
    (hb : b.key = found ∨ b.key = own → b.value = .str text) :
    (kv.call env.rt (.setSync b now)).db.stateVariables.Reads own found text := by
  rw [VerifiedKVStore.db_call (fun _ => by simp)]
  show (kv.db.setSync env.rt b now).1.stateVariables.Reads own found text
  rw [Db.stateVariables_setSync]
  exact h.set fun hkey => decodedValue_of_readsBack hback rfl (hb hkey)

lemma reads_revisionCalls (h : Settled s own found text) (hback : ReadsBack (.str text))
    {items : PyDict String MemoryItem} {key : String} {now : ℚ} {old : Option String}
    (hitems : ∀ k m, items.get? k = some m → k = found ∨ k = own → m.value = .str text) :
    (s.kv.run env.rt (revisionCalls env s items key now old)).db.stateVariables.Reads
      own found text := by
  cases old with
  | none => exact h.reads
  | some oldKey =>
      have hmarks : (s.kv.run env.rt (markCalls env items oldKey key now)).db.stateVariables.Reads
          own found text := by
        unfold markCalls
        cases hitem : items.get? oldKey with
        | none => exact h.reads
        | some m => exact reads_setSync h.reads hback fun hkey => hitems oldKey m hitem hkey
      unfold revisionCalls
      dsimp only
      split_ifs
      · exact hmarks
      · rw [run_append]
        unfold tombstoneCalls
        split
        · rename_i stored row hlookup
          exact reads_setSync hmarks hback fun hkey => hmarks.of_lookup hkey hlookup
        · exact hmarks

variable {req : WriteRequest ρ} {times : WriteTimes} {a : Accepted} {resp : WriteResponse}
  {key : String}

/-- A write that is not turned away and does not raise comes to its savepoint and through it. -/
lemma reaches_of_ok (hplain : PlainWrite req key) (hstr : env.rt.pyStr (.str key) = key)
    (h : (write env s req times).2 = .ok resp) (hstatus : resp.status = "ok") :
    ∃ a, Reaches env s req times a ∧
      (persist env s (revisedStores env s a times.revised) a req.vectorRecord times).2 =
        .ok resp := by
  have hending : Ending env s req times (write env s req times) :=
    ending_of_write fun _ hinput => hplain.not_replay hstr hinput
  generalize write env s req times = w at h hending
  cases hending with
  | turnedAway resp' _ _ hrejected =>
      rw [Except.ok.inj h, hstatus] at hrejected
      exact absurd hrejected (by decide)
  | raised after err => cases h
  | persisted a _ hreaches => exact ⟨a, hreaches, h⟩

/-- The rows after a write that goes through: one is set in those that its revision leaves. -/
lemma stateVariables_persist {before : Stores ρ} {record : Option ρ}
    (h : (persist env before s a record times).2 = .ok resp) :
    ∃ row : StateRow, row.value = a.value.dumps ∧
      (persist env before s a record times).1.kv.db.stateVariables =
        PyDict.set s.kv.db.stateVariables a.key row := by
  rw [kv_persist, persistCalls_of_ok h]
  show ∃ row : StateRow, _ ∧ (((s.kv.call env.rt (.savepoint sagaTx)).call env.rt
    (.setSync (persistArgs a) times.persisted)).call env.rt
      (.releaseSavepoint sagaTx)).db.stateVariables = _
  rw [db_releaseSavepoint, VerifiedKVStore.db_call (fun _ => by simp)]
  have hsaved : (s.kv.call env.rt (.savepoint sagaTx)).db = s.kv.db :=
    VerifiedKVStore.db_call fun _ => by simp
  rw [hsaved]
  refine ⟨_, ?_, Db.stateVariables_setSync env.rt s.kv.db (persistArgs a) times.persisted⟩
  rfl

/-- The buffer has nothing else under the key of the write. -/
lemma value_of_mem_update {hot : HotBuffer} {key' sourceType : String} {value : Json}
    {confidence now : ℚ} {metadata : PyDict String Json} {e : HotBufferEntry}
    (h : e ∈ (hot.update env.rt key' value confidence metadata sourceType now).buffer) :
    (e.key = key' ∧ e.value = value) ∨ (e.key ≠ key' ∧ e ∈ hot.buffer) := by
  rcases HotBuffer.mem_of_mem_push h with hold | hnew
  · obtain ⟨hbuffer, hne⟩ := List.mem_filter.mp hold
    exact Or.inr ⟨of_decide_eq_true hne, hbuffer⟩
  · rw [hnew]
    exact Or.inl ⟨rfl, rfl⟩

section Written

variable (hplain : PlainWrite req key) (hstr : env.rt.pyStr (.str key) = key)
  (hstrip : PyString.strip key = key) (hok : (write env s req times).2 = .ok resp)
  (hstatus : resp.status = "ok")

include hplain hstr hstrip hok hstatus

lemma settled_write (hvalue : req.value = .str text) (hback : ReadsBack (.str text)) :
    Settled (write env s req times).1 key key text := by
  obtain ⟨a, hreaches, hpersist⟩ := reaches_of_ok hplain hstr hok hstatus
  obtain ⟨hkey, hvalue', -⟩ := hplain.accepted hstr hreaches
  rw [hstrip] at hkey
  rw [write_of_reaches hreaches]
  obtain ⟨row, hrow, hset⟩ := stateVariables_persist hpersist
  obtain ⟨-, sourceType, hhot⟩ := left_of_persist hpersist
  constructor
  · rw [hset, hkey]
    exact StateTable.reads_self (PyDict.get?_set_self _ _ _)
      (decodedValue_of_readsBack hback hrow (hvalue'.trans hvalue))
  · intro e he hentry
    rw [hhot, hkey] at he
    rcases value_of_mem_update he with ⟨-, hnew⟩ | ⟨hne, -⟩
    · exact hnew.trans (hvalue'.trans hvalue)
    · exact absurd (hentry.elim id id) hne

/-- A write keeps what is settled, if it names no record as superseded and does not set another text
under one of the two keys. -/
lemma Settled.write (h : Settled s own found text) (hback : ReadsBack (.str text))
    (hunnamed : (req.metadata.getD ∅).get? "supersedes" = none)
    (hvalue : key = found ∨ key = own → req.value = .str text) :
    Settled (write env s req times).1 own found text := by
  obtain ⟨a, hreaches, hpersist⟩ := reaches_of_ok hplain hstr hok hstatus
  obtain ⟨hkey, hvalue', -⟩ := hplain.accepted hstr hreaches
  rw [hstrip] at hkey
  have hitems : ∀ k m, a.items.get? k = some m → k = found ∨ k = own → m.value = .str text := by
    intro k m hm hk
    obtain ⟨input, r, hinput, -, -, -, -, hsome⟩ := hreaches
    rw [items_of_revise hsome] at hm
    rcases allSourced_existingItems k m hm with hheld | ⟨-, -, v, hv, -⟩
    · exact h.value_of_held hk hheld
    · have hnamed := @get?_incomingOf _ env req input "supersedes" (by decide)
      rw [hplain.normalized hstr hinput] at hnamed
      rw [hplain.normalized hstr hinput, hnamed, hunnamed] at hv
      cases hv
  have hrevised := @reads_revisionCalls _ env s own found text h hback a.items a.key times.revised
    a.oldKey hitems
  rw [write_of_reaches hreaches]
  obtain ⟨row, hrow, hset⟩ := stateVariables_persist hpersist
  obtain ⟨-, sourceType, hhot⟩ := left_of_persist hpersist
  constructor
  · rw [hset, hkey]
    refine StateTable.Reads.set hrevised fun hk => ?_
    exact decodedValue_of_readsBack hback hrow (hvalue'.trans (hvalue hk))
  · intro e he hentry
    rw [hhot, hkey] at he
    rcases value_of_mem_update he with ⟨hown, hnew⟩ | ⟨-, hold⟩
    · exact hnew.trans (hvalue'.trans (hvalue (hown ▸ hentry)))
    · exact h.buffered e (mem_purgedHot.mp hold).1 hentry

end Written

end WritePath

/-! ## A second run -/

namespace MnemosyneIngest

open WritePath (Settled)

variable {ρ : Type} (env : IngestEnv ρ)

/-- In each round of a run, this holds of the stores before it, of the section, and of the sections
that follow. -/
def AlongRun (P : Stores ρ → WriteTimes → SectionRecord → List SectionRecord → Prop)
    (clock : ℕ → WriteTimes) : ℕ → SyncState ρ → List SectionRecord → Prop
  | _, _, [] => True
  | n, st, rec :: recs =>
    P st.stores (clock n) rec recs ∧
      AlongRun P clock (n + 1) (syncRecord env (clock n) st rec) recs

/-- The write returns, and is not rejected. -/
def isOk : Except PyError WriteResponse → Bool
  | .ok resp => decide (resp.status = "ok")
  | .error _ => false

/-- The section is not written, or its write goes through. -/
def GoesThrough (s : Stores ρ) (times : WriteTimes) (rec : SectionRecord)
    (_later : List SectionRecord) : Prop :=
  isUnchanged env s rec = true ∨
    isOk (WritePath.write env.path s (sectionWrite env (isUpdate env s rec) rec) times).2 = true

/-- The rows under the key, and the entries of the buffer, have the text as their value. -/
def HoldsOnly (s : Stores ρ) (key text : String) : Prop :=
  (∀ row, s.kv.db.stateVariables.get? key = some row → row.decodedValue = .str text) ∧
    ∀ e ∈ s.hot.buffer, e.key = key → e.value = .str text

/-- The store can keep the section as it is: its key and its text come back, and where a record is
taken to have the text already, it has it to the letter, and no later section sets another text
under the key of that record. -/
structure Faithful (s : Stores ρ) (_times : WriteTimes) (rec : SectionRecord)
    (later : List SectionRecord) : Prop where
  stripped : PyString.strip rec.varKey = rec.varKey
  readsBack : ReadsBack (.str rec.object)
  verbatim : isUnchanged env s rec = true → ∀ found row,
    s.kv.db.stateVariables.lookup rec.varKey = some (found, row) →
      HoldsOnly s found rec.object ∧ HoldsOnly s rec.varKey rec.object ∧
        ∀ rec' ∈ later, rec'.varKey = found → rec'.object = rec.object

instance (s : Stores ρ) (times : WriteTimes) (rec : SectionRecord) (later : List SectionRecord) :
    Decidable (GoesThrough env s times rec later) :=
  inferInstanceAs (Decidable (_ ∨ _))

instance instDecidableAlongRun
    {P : Stores ρ → WriteTimes → SectionRecord → List SectionRecord → Prop}
    [∀ s times rec later, Decidable (P s times rec later)] (clock : ℕ → WriteTimes) :
    ∀ (n : ℕ) (st : SyncState ρ) (recs : List SectionRecord),
      Decidable (AlongRun env P clock n st recs)
  | _, _, [] => Decidable.isTrue trivial
  | n, st, rec :: recs =>
    have := instDecidableAlongRun (P := P) clock (n + 1) (syncRecord env (clock n) st rec) recs
    inferInstanceAs (Decidable (_ ∧ _))

/-- Sections with one key have one text. -/
def KeysApart (recs : List SectionRecord) : Prop :=
  ∀ rec ∈ recs, ∀ rec' ∈ recs, rec.varKey = rec'.varKey → rec.object = rec'.object

/-- After a run, each section is the value of the record of its key, and a second run on the same
files writes nothing. -/
structure Settles (clock : ℕ → WriteTimes) (s : Stores ρ) (files : List MemoryFile) : Prop where
  kept : ∀ rec ∈ extractMemoryMdRecords env files, ∃ stored row,
    (syncMemoryMdIntoEngine env clock s files).1.kv.db.stateVariables.lookup rec.varKey =
      some (stored, row) ∧ row.decodedValue = .str rec.object
  unchanged : ∀ rec ∈ extractMemoryMdRecords env files,
    isUnchanged env (syncMemoryMdIntoEngine env clock s files).1 rec = true
  quiet : ∀ clock', (syncMemoryMdIntoEngine env clock'
      (syncMemoryMdIntoEngine env clock s files).1 files).1 =
        (syncMemoryMdIntoEngine env clock s files).1 ∧
    (syncMemoryMdIntoEngine env clock'
      (syncMemoryMdIntoEngine env clock s files).1 files).2.ingested = 0 ∧
    (syncMemoryMdIntoEngine env clock'
      (syncMemoryMdIntoEngine env clock s files).1 files).2.updated = 0

variable {env} {clock : ℕ → WriteTimes} {s : Stores ρ} {st : SyncState ρ} {times : WriteTimes}
  {rec : SectionRecord} {recs later : List SectionRecord} {own found text : String}

lemma exists_of_isOk {r : Except PyError WriteResponse} (h : isOk r = true) :
    ∃ resp, r = .ok resp ∧ resp.status = "ok" := by
  cases r with
  | ok resp => exact ⟨resp, rfl, of_decide_eq_true h⟩
  | error err => cases h

lemma plainWrite_section (b : Bool) : WritePath.PlainWrite (sectionWrite env b rec) rec.varKey where
  key := rfl
  replay := rfl
  replayAt := rfl

lemma syncRecord_of_unchanged (h : isUnchanged env st.stores rec = true) :
    syncRecord env times st rec = st := if_pos h

lemma stores_syncRecord (h : ¬isUnchanged env st.stores rec = true) :
    (syncRecord env times st rec).stores =
      (WritePath.write env.path st.stores
        (sectionWrite env (isUpdate env st.stores rec) rec) times).1 := by
  unfold syncRecord
  rw [if_neg h]
  dsimp only
  split
  · rename_i stores resp hwrite
    exact (congrArg Prod.fst hwrite).symm
  · rename_i stores err hwrite
    exact (congrArg Prod.fst hwrite).symm

/-- A run over sections that are unchanged does nothing. -/
lemma syncRecords_of_unchanged (h : ∀ rec ∈ recs, isUnchanged env st.stores rec = true) (n : ℕ) :
    syncRecords env clock n st recs = st := by
  induction recs generalizing n with
  | nil => rfl
  | cons rec recs ih =>
      rw [syncRecords, syncRecord_of_unchanged (h rec List.mem_cons_self)]
      exact ih (fun rec' hrec' => h rec' (List.mem_cons_of_mem _ hrec')) (n + 1)

section Str

variable (hstr : ∀ text, env.path.rt.pyStr (.str text) = text)

include hstr

lemma isUnchanged_of_settled (h : Settled s rec.varKey found rec.object) :
    isUnchanged env s rec = true := by
  obtain ⟨stored, row, hlookup, hvalue⟩ := h.reads.exists_lookup
  have hexisting : existing env s rec.varKey = some (row.toMemoryItem env.path.rt stored) := by
    unfold existing
    rw [hlookup]
    rfl
  have hnorm : existingNorm env (row.toMemoryItem env.path.rt stored) = normContent rec.object := by
    unfold existingNorm StateRow.toMemoryItem
    rw [hvalue]
    exact congrArg normContent (hstr rec.object)
  unfold isUnchanged
  rw [hexisting]
  dsimp only
  rw [hnorm, decide_eq_true rfl, Bool.or_true]

lemma settled_syncRecord (h : Settled st.stores own found text) (hback : ReadsBack (.str text))
    (hgo : GoesThrough env st.stores times rec later)
    (hfaithful : Faithful env st.stores times rec later)
    (hsame : rec.varKey = found ∨ rec.varKey = own → rec.object = text) :
    Settled (syncRecord env times st rec).stores own found text := by
  by_cases hunchanged : isUnchanged env st.stores rec = true
  · rw [syncRecord_of_unchanged hunchanged]
    exact h
  · obtain ⟨resp, hok, hstatus⟩ := exists_of_isOk (hgo.resolve_left hunchanged)
    rw [stores_syncRecord hunchanged]
    exact h.write (plainWrite_section _) (hstr _) hfaithful.stripped hok hstatus hback
      (by rfl) fun hkey => congrArg Json.str (hsame hkey)

/-- After its round a section is settled, and no later section sets another text under the key of
its record, if none does under its own. -/
lemma settled_of_round (hgo : GoesThrough env st.stores times rec later)
    (hfaithful : Faithful env st.stores times rec later)
    (happart : ∀ rec' ∈ later, rec'.varKey = rec.varKey → rec'.object = rec.object) :
    ∃ found, Settled (syncRecord env times st rec).stores rec.varKey found rec.object ∧
      ∀ rec' ∈ later, rec'.varKey = found ∨ rec'.varKey = rec.varKey →
        rec'.object = rec.object := by
  by_cases hunchanged : isUnchanged env st.stores rec = true
  · have hexists : ∃ e, st.stores.kv.db.stateVariables.lookup rec.varKey = some e := by
      by_contra hnone
      have hexisting : existing env st.stores rec.varKey = none := by
        unfold existing
        rw [Option.map_eq_none_iff, Option.eq_none_iff_forall_ne_some]
        exact fun e he => hnone ⟨e, he⟩
      unfold isUnchanged at hunchanged
      rw [hexisting] at hunchanged
      cases hunchanged
    obtain ⟨⟨found, row⟩, hlookup⟩ := hexists
    obtain ⟨hfound, hown, hlater⟩ := hfaithful.verbatim hunchanged found row hlookup
    refine ⟨found, ?_, fun rec' hrec' hkey => hkey.elim (hlater rec' hrec') (happart rec' hrec')⟩
    rw [syncRecord_of_unchanged hunchanged]
    constructor
    · refine StateTable.reads_of_lookup hlookup fun key row' hkey hrow' => ?_
      rcases hkey with rfl | rfl
      · exact hfound.1 row' hrow'
      · exact hown.1 row' hrow'
    · intro e he hkey
      exact hkey.elim (hfound.2 e he) (hown.2 e he)
  · obtain ⟨resp, hok, hstatus⟩ := exists_of_isOk (hgo.resolve_left hunchanged)
    refine ⟨rec.varKey, ?_, fun rec' hrec' hkey => happart rec' hrec' (hkey.elim id id)⟩
    rw [stores_syncRecord hunchanged]
    exact WritePath.settled_write (plainWrite_section _) (hstr _) hfaithful.stripped hok hstatus rfl
      hfaithful.readsBack

lemma settled_syncRecords {n : ℕ} (h : Settled st.stores own found text)
    (hback : ReadsBack (.str text)) (hgo : AlongRun env (GoesThrough env) clock n st recs)
    (hfaithful : AlongRun env (Faithful env) clock n st recs)
    (hsame : ∀ rec ∈ recs, rec.varKey = found ∨ rec.varKey = own → rec.object = text) :
    Settled (syncRecords env clock n st recs).stores own found text := by
  induction recs generalizing n st with
  | nil => exact h
  | cons rec recs ih =>
      have hround := settled_syncRecord hstr h hback hgo.1 hfaithful.1
        (hsame rec List.mem_cons_self)
      exact ih hround hgo.2 hfaithful.2
        fun rec' hrec' => hsame rec' (List.mem_cons_of_mem _ hrec')

/-- **After a run every section is settled**, if sections with one key have one text. -/
theorem settled_of_run {n : ℕ} (hgo : AlongRun env (GoesThrough env) clock n st recs)
    (hfaithful : AlongRun env (Faithful env) clock n st recs) (hkeys : KeysApart recs) :
    ∀ rec ∈ recs, ∃ found,
      Settled (syncRecords env clock n st recs).stores rec.varKey found rec.object := by
  induction recs generalizing n st with
  | nil => exact fun rec h => absurd h List.not_mem_nil
  | cons head recs ih =>
      intro rec hrec
      rcases List.mem_cons.mp hrec with rfl | htail
      · obtain ⟨found, hsettled, hlater⟩ := settled_of_round hstr hgo.1 hfaithful.1
          fun rec' hrec' hkey => hkeys rec' (List.mem_cons_of_mem _ hrec') rec hrec hkey
        refine ⟨found, ?_⟩
        show Settled (syncRecords env clock (n + 1) (syncRecord env (clock n) st rec) recs).stores
          rec.varKey found rec.object
        exact settled_syncRecords hstr hsettled hfaithful.1.readsBack hgo.2 hfaithful.2 hlater
      · exact ih hgo.2 hfaithful.2 (fun rec' hrec' rec'' hrec'' => hkeys rec'
          (List.mem_cons_of_mem _ hrec') rec'' (List.mem_cons_of_mem _ hrec'')) rec htail

end Str

lemma stores_sync (files : List MemoryFile) : (syncMemoryMdIntoEngine env clock s files).1 =
    (syncRecords env clock 0 { stores := s } (extractMemoryMdRecords env files)).stores := by
  unfold syncMemoryMdIntoEngine
  dsimp only
  split_ifs with hempty
  · rw [hempty]
    rfl
  · rfl

/-- A run over files whose sections are all unchanged does nothing. -/
lemma sync_of_unchanged {files : List MemoryFile}
    (h : ∀ rec ∈ extractMemoryMdRecords env files, isUnchanged env s rec = true) :
    (syncMemoryMdIntoEngine env clock s files).1 = s ∧
      (syncMemoryMdIntoEngine env clock s files).2.ingested = 0 ∧
      (syncMemoryMdIntoEngine env clock s files).2.updated = 0 := by
  have hrun : syncRecords env clock 0 { stores := s } (extractMemoryMdRecords env files) =
      { stores := s } := syncRecords_of_unchanged h 0
  unfold syncMemoryMdIntoEngine
  dsimp only
  rw [hrun]
  split_ifs
  · exact ⟨rfl, rfl, rfl⟩
  · exact ⟨rfl, rfl, rfl⟩

/-- **When the ingestion is complete and idempotent**: in a run whose writes go through and whose
sections the store can keep as they are, exactly if sections with one key have one text. -/
theorem settles_iff_keysApart {files : List MemoryFile}
    (hstr : ∀ text, env.path.rt.pyStr (.str text) = text)
    (hgo : AlongRun env (GoesThrough env) clock 0 { stores := s }
      (extractMemoryMdRecords env files))
    (hfaithful : AlongRun env (Faithful env) clock 0 { stores := s }
      (extractMemoryMdRecords env files)) :
    Settles env clock s files ↔ KeysApart (extractMemoryMdRecords env files) := by
  constructor
  · intro h rec hrec rec' hrec' hkey
    obtain ⟨stored, row, hlookup, hvalue⟩ := h.kept rec hrec
    obtain ⟨stored', row', hlookup', hvalue'⟩ := h.kept rec' hrec'
    rw [← hkey, hlookup] at hlookup'
    obtain ⟨-, rfl⟩ := Prod.mk.inj (Option.some.inj hlookup')
    exact Json.str.inj (hvalue.symm.trans hvalue')
  · intro hkeys
    have hsettled := settled_of_run hstr hgo hfaithful hkeys
    rw [← stores_sync files] at hsettled
    have hunchanged : ∀ rec ∈ extractMemoryMdRecords env files,
        isUnchanged env (syncMemoryMdIntoEngine env clock s files).1 rec = true := by
      intro rec hrec
      obtain ⟨found, h⟩ := hsettled rec hrec
      exact isUnchanged_of_settled hstr h
    refine ⟨fun rec hrec => ?_, hunchanged, fun clock' => sync_of_unchanged hunchanged⟩
    obtain ⟨found, h⟩ := hsettled rec hrec
    exact h.reads.exists_lookup

/-! ### Files -/

/-- An environment for evaluating the model: the barrier lets every subject through. -/
def sampleIngestEnv : IngestEnv Unit where
  path := sampleWriteEnv
  upper text := String.ofList (text.toList.map Char.toUpper)
  isDiscourseGarbageSubject _ := false
  vectorOf _ := ()

/-- A clock that stands still during a round. -/
def roundClock (n : ℕ) : WriteTimes := timesAt n

/-- A file whose sections have different subjects. -/
def differentSubjects : List MemoryFile := [⟨"MEMORY.md", "MEMORY", some "Port: 1\n§\nHost: b"⟩]

/-- A file of two sections with one subject. -/
def sharedSubject : List MemoryFile := [⟨"MEMORY.md", "MEMORY", some "Port: 1\n§\nPort: 2"⟩]

example :
    (extractMemoryMdRecords sampleIngestEnv sharedSubject).map (fun r => (r.varKey, r.object)) =
      [("hermes:memory_md:Port", "Port: 1"), ("hermes:memory_md:Port", "Port: 2")] := by
  decide +kernel

/-- Sections with different subjects are kept, and nothing is written again. -/
theorem differentSubjects_settle :
    Settles sampleIngestEnv roundClock emptyStores differentSubjects := by
  refine (settles_iff_keysApart (fun _ => rfl) (by decide +kernel) ?_).mpr ?_
  · refine ⟨⟨by decide +kernel, Or.inl (by decide +kernel), fun h => ?_⟩,
      ⟨by decide +kernel, Or.inl (by decide +kernel), fun h => ?_⟩, trivial⟩
    · exact absurd h (by decide +kernel)
    · exact absurd h (by decide +kernel)
  · unfold KeysApart
    decide +kernel

lemma decodedValue_ne {t : StateTable} {text other : String} (hback : ReadsBack (.str text))
    (ht : (t.entries.map fun e => e.2.value) = [(Json.str text).dumps]) (hne : other ≠ text) :
    ∀ e ∈ t.entries, e.2.decodedValue ≠ .str other := by
  intro e he heq
  have hvalue : e.2.value ∈ t.entries.map fun e => e.2.value := List.mem_map.mpr ⟨e, he, rfl⟩
  rw [ht, List.mem_singleton] at hvalue
  have hread : e.2.decodedValue = .str text := WritePath.decodedValue_of_readsBack hback hvalue rfl
  exact hne (Json.str.inj (heq.symm.trans hread))

/-- The record of the first of the two sections. -/
def portArgs : SetArgs where
  key := "hermes:memory_md:Port"
  value := .str "Port: 1"

def portStores : Stores Unit :=
  { emptyStores with kv := VerifiedKVStore.init.call Runtime.sample (.setSync portArgs 0) }

lemma sharedSubject_table : ((syncMemoryMdIntoEngine sampleIngestEnv roundClock portStores
    sharedSubject).1.kv.db.stateVariables.entries.map fun e => e.2.value) =
      [(Json.str "Port: 2").dumps] := by
  decide +kernel

/-- **Two sections with one subject**: no write is rejected, and the second section takes the place
of the first, which no record has any more. -/
theorem sharedSubject_overwritten :
    AlongRun sampleIngestEnv (GoesThrough sampleIngestEnv) roundClock 0 { stores := portStores }
        (extractMemoryMdRecords sampleIngestEnv sharedSubject) ∧
      ∃ text ∈ (extractMemoryMdRecords sampleIngestEnv sharedSubject).map SectionRecord.object,
        ∀ e ∈ (syncMemoryMdIntoEngine sampleIngestEnv roundClock portStores
          sharedSubject).1.kv.db.stateVariables.entries, e.2.decodedValue ≠ .str text := by
  have hback : ReadsBack (.str "Port: 2") := Or.inl (by decide +kernel)
  have hlost := decodedValue_ne hback sharedSubject_table (show "Port: 1" ≠ "Port: 2" by decide)
  exact ⟨by decide +kernel, "Port: 1", by decide +kernel, hlost⟩

end MnemosyneIngest

end AtlasMemory
