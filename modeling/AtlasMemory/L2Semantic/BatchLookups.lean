import AtlasMemory.L2Semantic.KvStore

/-!
# Lookups of several keys

The model of `get_states` and `filter_existing_keys`, against the lookup of one key.  All three look
for the keys as they are spelled, and search up to case for the others; but the lookup of one key
compares in the lower case of the database and takes the first record, while the lookups of several
keys take the lower case of the language on one side, take every record, and do not search for a key
when another spelling of it has been found.

The database refuses a statement with more parameters than its limit.  The keys of
`filter_existing_keys` come in chunks of 500, which is below the limit of any build.
-/

namespace AtlasMemory

namespace StateTable

variable (lower : String → String) (limit : ℕ) (t : StateTable)

def rowsIn (keys : List String) : List (String × StateRow) :=
  t.entries.filter fun e => decide (e.1 ∈ keys)

/-- The rows whose keys in lower case are among these texts. -/
def rowsUpToCase (lowered : List String) : List (String × StateRow) :=
  t.entries.filter fun e => decide (SqlText.lower e.1 ∈ lowered)

/-- The keys of `get_states` that are searched up to case. -/
def missingStates (keys : List String) : List String :=
  let found := (rowsIn t keys).flatMap fun e => [e.1, lower e.1]
  keys.filter fun k => decide (k ∉ found ∧ lower k ∉ found)

/-- The records of `get_states`. -/
def statesOf (keys : List String) : StateTable :=
  PyDict.ofEntries (rowsIn t keys ++ rowsUpToCase t ((missingStates lower t keys).map lower))

/-- `get_states`. -/
def getStates (keys : List String) : Except PyError StateTable :=
  if keys = [] then .ok ∅
  else if limit < keys.length then .error ⟨.operationalError, "too many SQL variables"⟩
  else .ok (statesOf lower t keys)

/-- The keys of a chunk that are searched up to case, with the keys that have been found. -/
def missingIn (found chunk : List String) : List String :=
  chunk.filter fun k => decide (k ∉ found ∧ lower k ∉ found.map lower)

/-- The keys found in a chunk, after those of the chunks before. -/
def filterChunk (found chunk : List String) : List String :=
  let found := found ++ (rowsIn t chunk).map Prod.fst
  found ++ (rowsUpToCase t ((missingIn lower found chunk).map lower)).map Prod.fst

/-- The keys that are not empty, in chunks of 500. -/
def keyChunks (keys : List String) : List (List String) :=
  let clean := keys.filter fun k => decide (k ≠ "")
  (List.range ((clean.length + 499) / 500)).map fun i => (clean.drop (500 * i)).take 500

/-- `filter_existing_keys`, as the list of what is added to the set. -/
def filterExistingKeys (keys : List String) : List String :=
  (keyChunks keys).foldl (filterChunk lower t) []

/-! ## What is found -/

/-- The key under which `get_state` finds a record: the key itself, or the first key that agrees up
to case. -/
def spelling (key : String) : Option String := (t.lookup key).map Prod.fst

/-- The keys that `filter_existing_keys` searches up to case, chunk by chunk. -/
def searchedKeys : List (List String) → List String → List String
  | [], _ => []
  | chunk :: chunks, found =>
    missingIn lower (found ++ (rowsIn t chunk).map Prod.fst) chunk ++
      searchedKeys chunks (filterChunk lower t found chunk)

/-- The searches up to case reach the right spellings: each listed key has its spelling among the
keys that are asked for or reached by a search, and no search reaches another spelling. -/
structure SearchesAgree (keys asked searched : List String) : Prop where
  reached : ∀ k ∈ keys, ∀ x, spelling t k = some x →
    x ∈ asked ∨ ∃ m ∈ searched, SqlText.lower x = lower m
  others : ∀ m ∈ searched, ∀ x ∈ t.keys, SqlText.lower x = lower m →
    ∃ k ∈ keys, spelling t k = some x

variable {lower limit t} {keys asked searched : List String}

lemma mem_of_lookup {k x : String} {row : StateRow} (h : t.lookup k = some (x, row)) :
    t.get? x = some row := by
  unfold lookup at h
  cases hget : t.get? k with
  | some row' =>
    rw [hget] at h
    obtain ⟨rfl, rfl⟩ := Prod.mk.inj (Option.some.inj h)
    exact hget
  | none =>
    rw [hget] at h
    exact PyDict.mem_entries_iff.mp (List.mem_of_find?_eq_some h)

lemma spelling_of_contains {k : String} (h : k ∈ t.keys) : spelling t k = some k := by
  obtain ⟨row, hrow⟩ := Option.isSome_iff_exists.mp (PyDict.mem_keys_iff.mp h)
  rw [spelling, lookup, hrow]
  rfl

lemma mem_keys_of_spelling {k x : String} (h : spelling t k = some x) : x ∈ t.keys := by
  obtain ⟨⟨x', row⟩, hlookup, rfl⟩ := Option.map_eq_some_iff.mp h
  rw [PyDict.mem_keys_iff, mem_of_lookup hlookup]
  rfl

/-- The searches agree exactly if what is asked for or reached by a search, and stored, is what the
lookups of the single keys find. -/
lemma searchesAgree_iff (hasked : asked ⊆ keys) :
    SearchesAgree lower t keys asked searched ↔ ∀ x,
      (x ∈ t.keys ∧ (x ∈ asked ∨ ∃ m ∈ searched, SqlText.lower x = lower m) ↔
        ∃ k ∈ keys, spelling t k = some x) := by
  constructor
  · rintro ⟨hreached, hothers⟩ x
    constructor
    · rintro ⟨hx, hasks | ⟨m, hm, hlower⟩⟩
      · exact ⟨x, hasked hasks, spelling_of_contains hx⟩
      · exact hothers m hm x hx hlower
    · rintro ⟨k, hk, hspelling⟩
      exact ⟨mem_keys_of_spelling hspelling, hreached k hk x hspelling⟩
  · intro h
    refine ⟨fun k hk x hspelling => ((h x).mpr ⟨k, hk, hspelling⟩).2, fun m hm x hx hlower => ?_⟩
    exact (h x).mp ⟨hx, Or.inr ⟨m, hm, hlower⟩⟩

lemma mem_map_rowsIn {chunk : List String} {x : String} :
    x ∈ (rowsIn t chunk).map Prod.fst ↔ x ∈ t.keys ∧ x ∈ chunk := by
  unfold rowsIn PyDict.keys
  rw [List.mem_map, List.mem_map]
  constructor
  · rintro ⟨e, he, rfl⟩
    obtain ⟨hmem, hin⟩ := List.mem_filter.mp he
    exact ⟨⟨e, hmem, rfl⟩, of_decide_eq_true hin⟩
  · rintro ⟨⟨e, hmem, rfl⟩, hin⟩
    exact ⟨e, List.mem_filter.mpr ⟨hmem, decide_eq_true hin⟩, rfl⟩

lemma mem_map_rowsUpToCase {searched : List String} {x : String} :
    x ∈ (rowsUpToCase t (searched.map lower)).map Prod.fst ↔
      x ∈ t.keys ∧ ∃ m ∈ searched, SqlText.lower x = lower m := by
  unfold rowsUpToCase PyDict.keys
  rw [List.mem_map, List.mem_map]
  constructor
  · rintro ⟨e, he, rfl⟩
    obtain ⟨hmem, hin⟩ := List.mem_filter.mp he
    obtain ⟨m, hm, heq⟩ := List.mem_map.mp (of_decide_eq_true hin)
    exact ⟨⟨e, hmem, rfl⟩, m, hm, heq.symm⟩
  · rintro ⟨⟨e, hmem, rfl⟩, m, hm, heq⟩
    refine ⟨e, List.mem_filter.mpr ⟨hmem, decide_eq_true ?_⟩, rfl⟩
    exact List.mem_map.mpr ⟨m, hm, heq.symm⟩

/-! ## `get_states` -/

/-- A dictionary built from rows of the table has these rows. -/
lemma get?_ofRows {rows : List (String × StateRow)} (h : ∀ e ∈ rows, t.get? e.1 = some e.2)
    {k : String} {row : StateRow} :
    (PyDict.ofEntries rows).get? k = some row ↔ t.get? k = some row ∧ k ∈ rows.map Prod.fst := by
  have hloop : ∀ (rows : List (String × StateRow)) (acc : StateTable),
      (∀ e ∈ rows, t.get? e.1 = some e.2) → (∀ k row, acc.get? k = some row → t.get? k = some row) →
        ∀ k row, (rows.foldl (fun d e => d.set e.1 e.2) acc).get? k = some row ↔
          t.get? k = some row ∧ (k ∈ rows.map Prod.fst ∨ acc.get? k = some row) := by
    intro rows
    induction rows with
    | nil =>
      intro acc _ hacc k row
      simp only [List.foldl_nil, List.map_nil, List.not_mem_nil, false_or]
      exact ⟨fun hk => ⟨hacc k row hk, hk⟩, fun hk => hk.2⟩
    | cons e rows ih =>
      intro acc hrows hacc k row
      have he := hrows e List.mem_cons_self
      have hset : ∀ k row, (acc.set e.1 e.2).get? k = some row → t.get? k = some row := by
        intro k row hk
        rw [PyDict.get?_set] at hk
        split_ifs at hk with heq
        · rw [← heq, he]
          exact hk
        · exact hacc k row hk
      rw [List.foldl_cons, ih _ (fun e' he' => hrows e' (List.mem_cons_of_mem e he')) hset,
        PyDict.get?_set, List.map_cons, List.mem_cons]
      constructor
      · rintro ⟨hk, hmem | hacc'⟩
        · exact ⟨hk, Or.inl (Or.inr hmem)⟩
        · split_ifs at hacc' with heq
          · exact ⟨hk, Or.inl (Or.inl heq.symm)⟩
          · exact ⟨hk, Or.inr hacc'⟩
      · rintro ⟨hk, (rfl | hmem) | hacc'⟩
        · refine ⟨hk, Or.inr ?_⟩
          rw [if_pos rfl, ← he, hk]
        · exact ⟨hk, Or.inl hmem⟩
        · refine ⟨hk, Or.inr ?_⟩
          split_ifs with heq
          · rw [← he, heq, hk]
          · exact hacc'
  have hspec := hloop rows ∅ h (fun k row hk => by cases hk) k row
  rw [PyDict.get?_empty] at hspec
  simpa [PyDict.ofEntries] using hspec

/-- The records of `get_states` are the stored ones whose keys are listed or reached by a search. -/
lemma get?_statesOf {x : String} {row : StateRow} :
    (statesOf lower t keys).get? x = some row ↔ t.get? x = some row ∧ (x ∈ t.keys ∧
      (x ∈ keys ∨ ∃ m ∈ missingStates lower t keys, SqlText.lower x = lower m)) := by
  have hrows : ∀ e ∈ rowsIn t keys ++ rowsUpToCase t ((missingStates lower t keys).map lower),
      t.get? e.1 = some e.2 := by
    intro e he
    refine PyDict.mem_entries_iff.mp ?_
    rcases List.mem_append.mp he with he | he
    · exact (List.mem_filter.mp he).1
    · exact (List.mem_filter.mp he).1
  rw [statesOf, get?_ofRows hrows, List.map_append, List.mem_append, mem_map_rowsIn,
    mem_map_rowsUpToCase, ← and_or_left]

/-- The records of `get_states` are those of the lookups of the single keys. -/
def StatesAgree (lower : String → String) (limit : ℕ) (t : StateTable) (keys : List String) : Prop :=
  ∃ d, getStates lower limit t keys = .ok d ∧
    ∀ e, e ∈ d.entries ↔ ∃ k ∈ keys, t.lookup k = some e

/-- A record is found by its single lookups exactly if its spelling is. -/
lemma exists_lookup_iff {x : String} {row : StateRow} :
    (∃ k ∈ keys, t.lookup k = some (x, row)) ↔
      t.get? x = some row ∧ ∃ k ∈ keys, spelling t k = some x := by
  constructor
  · rintro ⟨k, hk, hlookup⟩
    exact ⟨mem_of_lookup hlookup, k, hk, by rw [spelling, hlookup]; rfl⟩
  · rintro ⟨hrow, k, hk, hspelling⟩
    obtain ⟨⟨x', row'⟩, hlookup, rfl⟩ := Option.map_eq_some_iff.mp hspelling
    obtain rfl := Option.some.inj ((mem_of_lookup hlookup).symm.trans hrow)
    exact ⟨k, hk, hlookup⟩

lemma statesAgree_iff :
    StatesAgree lower limit t keys ↔
      keys.length ≤ limit ∧ SearchesAgree lower t keys keys (missingStates lower t keys) := by
  have hsubset : keys ⊆ keys := fun _ h => h
  rw [searchesAgree_iff hsubset]
  unfold StatesAgree getStates
  by_cases hnil : keys = []
  · subst hnil
    rw [if_pos rfl]
    refine iff_of_true ⟨∅, rfl, fun e => ?_⟩ ⟨Nat.zero_le _, fun x => ?_⟩
    · exact iff_of_false List.not_mem_nil fun ⟨k, hk, _⟩ => List.not_mem_nil hk
    · refine iff_of_false ?_ fun ⟨k, hk, _⟩ => List.not_mem_nil hk
      rintro ⟨-, hx | ⟨m, hm, -⟩⟩
      · exact List.not_mem_nil hx
      · exact List.not_mem_nil hm
  rw [if_neg hnil]
  by_cases hlimit : limit < keys.length
  · rw [if_pos hlimit]
    refine iff_of_false ?_ fun h => absurd h.1 (by omega)
    rintro ⟨d, hd, -⟩
    cases hd
  rw [if_neg hlimit]
  have hfound : ∀ x row, (x, row) ∈ (statesOf lower t keys).entries ↔
        t.get? x = some row ∧ (x ∈ t.keys ∧
          (x ∈ keys ∨ ∃ m ∈ missingStates lower t keys, SqlText.lower x = lower m)) :=
    fun x row => PyDict.mem_entries_iff.trans get?_statesOf
  constructor
  · rintro ⟨d, hd, hentries⟩
    obtain rfl := Except.ok.inj hd
    refine ⟨by omega, fun x => ?_⟩
    constructor
    · rintro ⟨hx, hreach⟩
      obtain ⟨row, hrow⟩ := Option.isSome_iff_exists.mp (PyDict.mem_keys_iff.mp hx)
      exact (exists_lookup_iff.mp ((hentries (x, row)).mp
        ((hfound x row).mpr ⟨hrow, hx, hreach⟩))).2
    · rintro ⟨k, hk, hspelling⟩
      have hx := mem_keys_of_spelling hspelling
      obtain ⟨row, hrow⟩ := Option.isSome_iff_exists.mp (PyDict.mem_keys_iff.mp hx)
      exact ((hfound x row).mp ((hentries (x, row)).mpr
        (exists_lookup_iff.mpr ⟨hrow, k, hk, hspelling⟩))).2
  · rintro ⟨-, hagree⟩
    refine ⟨_, rfl, fun e => ?_⟩
    rw [hfound, hagree, exists_lookup_iff]

/-! ## `filter_existing_keys` -/

/-- The keys of `filter_existing_keys` are the spellings of the listed ones. -/
def FilterAgrees (lower : String → String) (t : StateTable) (keys : List String) : Prop :=
  ∀ x, x ∈ filterExistingKeys lower t keys ↔ ∃ k ∈ keys, spelling t k = some x

lemma mem_foldl_filterChunk (chunks : List (List String)) (found : List String) (x : String) :
    x ∈ chunks.foldl (filterChunk lower t) found ↔ x ∈ found ∨ x ∈ t.keys ∧
      (x ∈ chunks.flatten ∨ ∃ m ∈ searchedKeys lower t chunks found,
        SqlText.lower x = lower m) := by
  induction chunks generalizing found with
  | nil =>
    simp only [List.foldl_nil, List.flatten_nil, searchedKeys, List.not_mem_nil, false_and,
      exists_false, or_false, and_false]
  | cons chunk chunks ih =>
    have hchunk : x ∈ filterChunk lower t found chunk ↔ x ∈ found ∨ x ∈ t.keys ∧ (x ∈ chunk ∨
        ∃ m ∈ missingIn lower (found ++ (rowsIn t chunk).map Prod.fst) chunk,
          SqlText.lower x = lower m) := by
      unfold filterChunk
      dsimp only
      rw [List.mem_append, List.mem_append, mem_map_rowsIn, mem_map_rowsUpToCase, or_assoc,
        ← and_or_left]
    rw [List.foldl_cons, ih, hchunk, List.flatten_cons, List.mem_append, or_assoc, ← and_or_left,
      searchedKeys]
    constructor
    · rintro (hfound | ⟨hx, (hin | ⟨m, hm, hlower⟩) | hin | ⟨m, hm, hlower⟩⟩)
      · exact Or.inl hfound
      · exact Or.inr ⟨hx, Or.inl (Or.inl hin)⟩
      · exact Or.inr ⟨hx, Or.inr ⟨m, List.mem_append_left _ hm, hlower⟩⟩
      · exact Or.inr ⟨hx, Or.inl (Or.inr hin)⟩
      · exact Or.inr ⟨hx, Or.inr ⟨m, List.mem_append_right _ hm, hlower⟩⟩
    · rintro (hfound | ⟨hx, (hin | hin) | ⟨m, hm, hlower⟩⟩)
      · exact Or.inl hfound
      · exact Or.inr ⟨hx, Or.inl (Or.inl hin)⟩
      · exact Or.inr ⟨hx, Or.inr (Or.inl hin)⟩
      · rcases List.mem_append.mp hm with hm | hm
        · exact Or.inr ⟨hx, Or.inl (Or.inr ⟨m, hm, hlower⟩)⟩
        · exact Or.inr ⟨hx, Or.inr (Or.inr ⟨m, hm, hlower⟩)⟩

lemma mem_flatten_keyChunks {k : String} : k ∈ (keyChunks keys).flatten ↔ k ∈ keys ∧ k ≠ "" := by
  have hclean : k ∈ keys.filter (fun k => decide (k ≠ "")) ↔ k ∈ keys ∧ k ≠ "" := by
    rw [List.mem_filter, decide_eq_true_eq]
  unfold keyChunks
  dsimp only
  rw [← hclean]
  generalize keys.filter (fun k => decide (k ≠ "")) = clean
  rw [List.mem_flatten]
  constructor
  · rintro ⟨chunk, hchunk, hk⟩
    obtain ⟨i, -, rfl⟩ := List.mem_map.mp hchunk
    exact List.mem_of_mem_drop (List.mem_of_mem_take hk)
  · intro hk
    obtain ⟨j, hj, rfl⟩ := List.getElem_of_mem hk
    refine ⟨_, List.mem_map.mpr ⟨j / 500, List.mem_range.mpr (by omega), rfl⟩, ?_⟩
    refine List.mem_of_getElem? (i := j % 500) ?_
    rw [List.getElem?_take, if_pos (Nat.mod_lt _ (by omega)), List.getElem?_drop,
      Nat.div_add_mod, List.getElem?_eq_getElem hj]

lemma filterAgrees_iff :
    FilterAgrees lower t keys ↔ SearchesAgree lower t keys (keyChunks keys).flatten
      (searchedKeys lower t (keyChunks keys) []) := by
  rw [searchesAgree_iff fun k hk => (mem_flatten_keyChunks.mp hk).1]
  unfold FilterAgrees filterExistingKeys
  simp only [mem_foldl_filterChunk, List.not_mem_nil, false_or]

/-! ## Deletion -/

/-- After the deletion of a key its lookup finds nothing exactly if no other key agrees with it up to
case. -/
lemma lookup_erase_eq_none_iff {k : String} :
    StateTable.lookup (t.erase k) k = none ↔
      ∀ x ∈ t.keys, x ≠ k → SqlText.lower x ≠ SqlText.lower k := by
  unfold lookup
  rw [PyDict.get?_erase_self]
  dsimp only
  rw [List.find?_eq_none]
  constructor
  · intro hnone x hx hne
    obtain ⟨row, hrow⟩ := Option.isSome_iff_exists.mp (PyDict.mem_keys_iff.mp hx)
    have hmem : (x, row) ∈ (t.erase k).entries := by
      rw [PyDict.mem_entries_iff, PyDict.get?_erase_of_ne t (Ne.symm hne), hrow]
    exact of_decide_eq_false (Bool.not_eq_true _ ▸ hnone (x, row) hmem)
  · intro hother e he hsame
    have hget : (t.erase k).get? e.1 = some e.2 := PyDict.mem_entries_iff.mp he
    have hne : e.1 ≠ k := by
      intro heq
      rw [heq, PyDict.get?_erase_self] at hget
      cases hget
    rw [PyDict.get?_erase_of_ne t (Ne.symm hne)] at hget
    exact hother e.1 (PyDict.mem_keys_of_get? hget) hne (of_decide_eq_true hsame)

/-- A key is deleted from the table where the deletion reports it. -/
lemma stateVariables_of_deleted {rt : Runtime} {db db' : Db} {key : String} {now : ℚ}
    {entryHash : String} (h : db.deleteSync rt key now = (db', .ok (some entryHash))) :
    db'.stateVariables = db.stateVariables.erase key := by
  rw [← Db.stateVariables_deleteSync rt db key now, h]

/-- **Lookups of several keys and of one.**  The two lookups of several keys agree with the lookups of
the single keys exactly if their searches up to case reach the right spellings, and `get_states` only
within the limit of the database; and a deleted key is gone exactly if no other one agrees with it up
to case. -/
theorem lookups_agree_iff (lower : String → String) (limit : ℕ) (rt : Runtime) (db : Db)
    (keys : List String) :
    (StatesAgree lower limit db.stateVariables keys ↔ keys.length ≤ limit ∧
      SearchesAgree lower db.stateVariables keys keys
        (missingStates lower db.stateVariables keys)) ∧
    (FilterAgrees lower db.stateVariables keys ↔
      SearchesAgree lower db.stateVariables keys (keyChunks keys).flatten
        (searchedKeys lower db.stateVariables (keyChunks keys) [])) ∧
    ∀ key now db' entryHash, db.deleteSync rt key now = (db', .ok (some entryHash)) →
      (db'.stateVariables.lookup key = none ↔
        ∀ x ∈ db.stateVariables.keys, x ≠ key → SqlText.lower x ≠ SqlText.lower key) := by
  refine ⟨statesAgree_iff, filterAgrees_iff, fun key now db' entryHash h => ?_⟩
  rw [stateVariables_of_deleted h, lookup_erase_eq_none_iff]

/-! ## Two spellings of one key -/

def sampleRow : StateRow := ⟨"1", 1, .finite 0, none, none⟩

/-- A store with two spellings of one key. -/
def spelledTwice : Db :=
  { Db.empty with stateVariables := (PyDict.ofEntries [("Port", sampleRow), ("port", sampleRow)]) }

/-- Both records are returned for a third spelling, and the other spelling of a deleted key is found
in its place. -/
theorem lookups_differ :
    ¬StatesAgree SqlText.lower 999 spelledTwice.stateVariables ["PORT"] ∧
      ∃ db' entryHash, spelledTwice.deleteSync .sample "port" 0 = (db', .ok (some entryHash)) ∧
        db'.stateVariables.lookup "port" ≠ none := by
  constructor
  · rintro ⟨d, hd, hentries⟩
    have hboth : (getStates SqlText.lower 999 spelledTwice.stateVariables ["PORT"]).toOption.map
        (fun d => d.entries) = some [("Port", sampleRow), ("port", sampleRow)] := by decide
    rw [hd] at hboth
    have hentry : ("port", sampleRow) ∈ d.entries := by
      have heq : d.entries = [("Port", sampleRow), ("port", sampleRow)] := Option.some.inj hboth
      rw [heq]
      exact List.mem_cons_of_mem _ List.mem_cons_self
    obtain ⟨k, hk, hlookup⟩ := (hentries _).mp hentry
    rw [List.mem_singleton.mp hk] at hlookup
    exact absurd hlookup (by decide)
  · have hdeleted : (spelledTwice.deleteSync .sample "port" 0).2.toOption.join.isSome = true := by
      decide
    have hfound : (spelledTwice.deleteSync .sample "port" 0).1.stateVariables.lookup "port" =
        some ("Port", sampleRow) := by decide
    generalize spelledTwice.deleteSync .sample "port" 0 = run at hdeleted hfound
    obtain ⟨db', result⟩ := run
    match result with
    | .ok (some entryHash) => exact ⟨db', entryHash, rfl, by rw [hfound]; nofun⟩
    | .ok none => cases hdeleted
    | .error err => cases hdeleted

/-- A key that is deleted from a store without another spelling is gone. -/
theorem deleted_port_gone :
    ∃ db', (Db.deleteSync .sample { Db.empty with
        stateVariables := PyDict.ofEntries [("port", sampleRow)] } "port" 0).1 = db' ∧
      db'.stateVariables.lookup "port" = none := by
  have hdeleted : (Db.deleteSync .sample { Db.empty with
      stateVariables := PyDict.ofEntries [("port", sampleRow)] } "port" 0).2.toOption.join.isSome =
        true := by decide
  have hgone := (lookups_agree_iff SqlText.lower 999 .sample { Db.empty with
    stateVariables := PyDict.ofEntries [("port", sampleRow)] } []).2.2 "port" 0
  generalize Db.deleteSync .sample { Db.empty with
    stateVariables := PyDict.ofEntries [("port", sampleRow)] } "port" 0 = run at hdeleted hgone
  obtain ⟨db', result⟩ := run
  match result with
  | .ok (some entryHash) =>
    refine ⟨db', rfl, (hgone db' entryHash rfl).mpr fun x hx hne => ?_⟩
    exact absurd (List.mem_singleton.mp hx) hne
  | .ok none => cases hdeleted
  | .error err => cases hdeleted

end StateTable

end AtlasMemory
