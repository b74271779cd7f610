import AtlasMemory.Cognitive.AcceptedWrites
import AtlasMemory.Cognitive.ConfidenceProtection
import AtlasMemory.Foundations.JsonRoundTrip
import AtlasMemory.L1Working.BufferIsolation

/-!
# The revision counter of a record

A write that changes the value of a record, as `str` tells the two values apart, gives the record
the counter of the version that it sees plus one.  Every other write replaces the metadata of the
record, with the counter in them, by its own.  `revisionCount_eq_valueChanges` says for which runs of
writes to a key the counter is the number of changes.
-/

namespace AtlasMemory

open Json

/-! ## Counters -/

/-- `metadata.get("revision_count", 0)`, if it is a number. -/
def counterOf : Option Json → Option NumberLit
  | none => some (.ofInt 0)
  | some (.number lit) => some lit
  | some _ => none

def StateRow.counter (row : StateRow) : Option NumberLit :=
  match row.metadata.bind fun text => Json.loads (PyText.ofString text) with
  | some (.obj members) => counterOf (PyDict.find "revision_count" members)
  | _ => counterOf none

/-- The counter of a key; without a record it is 0. -/
def StateTable.counter (t : StateTable) (key : String) : Option NumberLit :=
  match t.get? key with
  | some row => row.counter
  | none => counterOf none

lemma getD_of_counterOf {o : Option Json} {lit : NumberLit} (h : counterOf o = some lit) :
    o.getD (.number (.ofInt 0)) = .number lit := by
  cases o with
  | none => rw [← Option.some.inj h, Option.getD_none]
  | some v =>
      cases v with
      | number lit' => rw [← Option.some.inj h, Option.getD_some]
      | _ => cases h

lemma counterOf_map_canonical (o : Option Json) : counterOf (o.map canonical) = counterOf o := by
  cases o with
  | none => rfl
  | some v => cases v <;> rfl

lemma find_canonicalMembers (name : String) (ms : List (String × Json)) :
    PyDict.find name (canonicalMembers ms) = (PyDict.find name ms).map canonical := by
  induction ms with
  | nil => rfl
  | cons m ms ih =>
      rw [canonicalMembers, PyDict.find, PyDict.find, ih]
      split_ifs
      · rfl
      · rfl

/-- **The stored counter** is that of the metadata that were written. -/
lemma counter_of_written {row : StateRow} {metadata : PyDict String Json}
    (h : row.metadata = some (Json.obj metadata.entries).dumps) :
    row.counter = counterOf (metadata.get? "revision_count") := by
  have hnodup : ((canonicalMembers metadata.entries).map Prod.fst).Nodup := by
    rw [canonicalMembers_eq_map, List.map_map]
    exact metadata.nodupKeys
  unfold StateRow.counter
  rw [h, Option.bind_some, loads_dumps_canonical]
  show counterOf (PyDict.find _ (dictOf (canonicalMembers metadata.entries))) = _
  rw [dictOf_of_nodup hnodup, find_canonicalMembers, counterOf_map_canonical]
  rfl

/-! ## Runs of writes -/

namespace WritePath

variable {ρ : Type} (env : WriteEnv ρ)

def afterWrites (s : Stores ρ) (ws : List (WriteRequest ρ × WriteTimes)) : Stores ρ :=
  ws.foldl (fun s w => (write env s w.1 w.2).1) s

/-- The stored value of the key has changed from one table to the other. -/
def valueChanged (key : String) (before after : StateTable) : Bool :=
  match before.get? key, after.get? key with
  | some row, some row' => decide (row.value ≠ row'.value)
  | _, _ => false

/-- How often the stored value of the key changes in the course of the writes. -/
def valueChanges (key : String) : Stores ρ → List (WriteRequest ρ × WriteTimes) → ℕ
  | _, [] => 0
  | s, w :: ws =>
    let s' := (write env s w.1 w.2).1
    (if valueChanged key s.kv.db.stateVariables s'.kv.db.stateVariables then 1 else 0) +
      valueChanges key s' ws

/-- The records of the key: the row as it is read, and what the buffer has. -/
def heldRecords (s : Stores ρ) (key : String) : List MemoryItem :=
  ((s.kv.db.stateVariables.get? key).map fun row => row.toMemoryItem env.rt key).toList ++
    (s.hot.buffer.filter fun e => decide (e.key = key)).map HotBufferEntry.toMemoryItem

/-- The value that is stored changes with this write. -/
def changes (s : Stores ρ) (input : NormalizedInput) : Bool :=
  match s.kv.db.stateVariables.get? input.key with
  | some row => decide (row.value ≠ input.value.dumps)
  | none => false

/-- A write that the counter keeps step with. -/
structure Counted (s : Stores ρ) (req : WriteRequest ρ) (input : NormalizedInput) : Prop where
  /-- `str` tells the value from that of the record just when the stored value changes. -/
  told : ∀ m ∈ heldRecords env s input.key,
    decide (env.rt.pyStr m.value ≠ env.rt.pyStr input.value) = changes s input
  /-- The counter of the row survives the reading. -/
  legible : ∀ row ∈ s.kv.db.stateVariables.get? input.key,
    counterOf ((row.toMemoryItem env.rt input.key).metadata.get? "revision_count") = row.counter
  /-- A write that changes the value is no replay of a passage. -/
  compared : changes s input = true → ¬TakenForReplay env s req input
  /-- A write that does not change the value brings the counter that is stored. -/
  carried : changes s input = false →
    counterOf (input.metadata.get? "revision_count") = s.kv.db.stateVariables.counter input.key
  /-- The first write of a key does not name as superseded a record under another case of it. -/
  unnamed : s.kv.db.stateVariables.get? input.key = none →
    ∀ v ∈ (input.metadata.get? "supersedes").filter env.rt.truthy, env.rt.pyStr v = input.key →
      s.kv.db.stateVariables.lookup input.key = none

/-- The write is one of the key, goes through, and is counted. -/
def CountedWrite (key : String) (s : Stores ρ) (req : WriteRequest ρ) (times : WriteTimes) : Prop :=
  ∃ input resp, normalizeWriteInput env req = .ok input ∧ input.key = key ∧
    (write env s req times).2 = .ok resp ∧ resp.persisted = true ∧ Counted env s req input

def CountedRun (key : String) : Stores ρ → List (WriteRequest ρ × WriteTimes) → Prop
  | _, [] => True
  | s, w :: ws => CountedWrite env key s w.1 w.2 ∧ CountedRun key (write env s w.1 w.2).1 ws

def goThrough : Stores ρ → List (WriteRequest ρ × WriteTimes) → Bool
  | _, [] => true
  | s, w :: ws =>
    match (write env s w.1 w.2).2 with
    | .ok resp => resp.persisted && goThrough (write env s w.1 w.2).1 ws
    | .error _ => false

/-- Neither the store nor the buffer has the key. -/
def Unwritten (s : Stores ρ) (key : String) : Prop :=
  s.kv.db.stateVariables.get? key = none ∧ ∀ e ∈ s.hot.buffer, e.key ≠ key

/-- The key has been written, and its counter is `n` in the row and in the buffer; or it has not,
and `n` is 0. -/
def CountsTo (s : Stores ρ) (key : String) (n : ℕ) : Prop :=
  s.kv.db.stateVariables.counter key = some (.ofInt n) ∧
    ∀ e ∈ s.hot.buffer, e.key = key →
      (s.kv.db.stateVariables.get? key).isSome = true ∧
        counterOf (e.metadata.get? "revision_count") = some (.ofInt n)

variable {env} {s : Stores ρ} {req : WriteRequest ρ} {times : WriteTimes}
  {input : NormalizedInput} {a : Accepted}

/-! ### The record that a write sees -/

/-- A record under `key` among the items comes from the row, from the buffer, or, for a key without
a row, from the row that the metadata name under another case. -/
def Sourced (env : WriteEnv ρ) (s : Stores ρ) (metadata : PyDict String Json) (key : String)
    (m : MemoryItem) : Prop :=
  m ∈ heldRecords env s key ∨
    s.kv.db.stateVariables.get? key = none ∧ s.kv.db.stateVariables.lookup key ≠ none ∧
      ∃ v ∈ (metadata.get? "supersedes").filter env.rt.truthy, env.rt.pyStr v = key

lemma mem_heldRecords_row {key : String} {row : StateRow}
    (h : s.kv.db.stateVariables.get? key = some row) :
    row.toMemoryItem env.rt key ∈ heldRecords env s key := by
  unfold heldRecords
  rw [h]
  exact List.mem_append_left _ (List.mem_singleton.mpr rfl)

lemma mem_heldRecords_entry {e : HotBufferEntry} (h : e ∈ s.hot.buffer) :
    e.toMemoryItem ∈ heldRecords env s e.key :=
  List.mem_append_right _ (List.mem_map.mpr
    ⟨e, List.mem_filter.mpr ⟨h, decide_eq_true rfl⟩, rfl⟩)

def AllSourced (env : WriteEnv ρ) (s : Stores ρ) (metadata : PyDict String Json)
    (items : PyDict String MemoryItem) : Prop :=
  ∀ k m, items.get? k = some m → Sourced env s metadata k m

section Sources

variable {metadata : PyDict String Json} {items : PyDict String MemoryItem}

lemma allSourced_set {k : String} {m : MemoryItem} (h : AllSourced env s metadata items)
    (hm : Sourced env s metadata k m) : AllSourced env s metadata (items.set k m) := by
  intro k' m' hm'
  rw [PyDict.get?_set] at hm'
  split_ifs at hm' with heq
  · rw [← heq, ← Option.some.inj hm']
    exact hm
  · exact h k' m' hm'

lemma allSourced_addRows (cap : Option ℕ) (keys : List String)
    (h : AllSourced env s metadata items) :
    AllSourced env s metadata (addRows env s.kv.db.stateVariables cap keys items) := by
  unfold addRows
  induction keys generalizing items with
  | nil => exact h
  | cons k ks ih =>
      rw [List.foldl_cons]
      apply ih
      cases hrow : s.kv.db.stateVariables.get? k with
      | none => exact h
      | some row =>
          dsimp only
          split_ifs
          · exact h
          · exact allSourced_set h (Or.inl (mem_heldRecords_row hrow))

lemma allSourced_addNamed (h : AllSourced env s metadata items) :
    AllSourced env s metadata (addNamed env s.kv.db.stateVariables metadata items) := by
  unfold addNamed
  split
  · rename_i v hv
    dsimp only
    split_ifs
    · exact h
    · split
      · rename_i stored row hlookup
        apply allSourced_set h
        cases hrow : s.kv.db.stateVariables.get? (env.rt.pyStr v) with
        | none => exact Or.inr ⟨hrow, by simp [hlookup], v, hv, rfl⟩
        | some row' =>
            have hself : s.kv.db.stateVariables.lookup (env.rt.pyStr v) =
                some (env.rt.pyStr v, row') := by
              unfold StateTable.lookup
              rw [hrow]
            obtain ⟨rfl, rfl⟩ := Prod.mk.inj (Option.some.inj (hlookup.symm.trans hself))
            exact Or.inl (mem_heldRecords_row hrow)
      · exact h
  · exact h

lemma allSourced_mixIn {es : List HotBufferEntry} (hes : ∀ e ∈ es, e ∈ s.hot.buffer)
    (h : AllSourced env s metadata items) : AllSourced env s metadata (es.foldl mixIn items) := by
  induction es generalizing items with
  | nil => exact h
  | cons e es ih =>
      rw [List.foldl_cons]
      apply ih fun e' he' => hes e' (List.mem_cons_of_mem _ he')
      have hentry : AllSourced env s metadata (items.set e.key e.toMemoryItem) :=
        allSourced_set h (Or.inl (mem_heldRecords_entry (hes e List.mem_cons_self)))
      unfold mixIn
      split_ifs
      · exact h
      · split
        · split_ifs
          · exact h
          · exact hentry
        · exact hentry

/-- Every record that the arbitration sees has its source. -/
lemma allSourced_existingItems {key : String} {value : Json} {session : Option String} {now : ℚ} :
    AllSourced env s metadata (existingItems env s key value metadata session now) := by
  have hempty : AllSourced env s metadata ∅ := by
    intro k m hm
    rw [PyDict.get?_empty] at hm
    cases hm
  unfold existingItems getArbitrationCandidates
  apply allSourced_mixIn
  · intro e he
    exact (List.mem_filter.mp (HotBuffer.mem_of_mem_dedupLast he)).1
  apply allSourced_addNamed
  extract_lets exact root inNamespace withNamespace
  have hnamespace : AllSourced env s metadata withNamespace :=
    allSourced_addRows none inNamespace (allSourced_addRows none [key] hempty)
  split_ifs
  · exact allSourced_addRows _ _ hnamespace
  · exact hnamespace

end Sources

/-! ### The counter that a write leaves -/

lemma counter_of_revise {key : String} {value : Json} {confidence : ℚ}
    {metadata : PyDict String Json} {reason : String} {items : PyDict String MemoryItem}
    {r : ArbitrationResult} {now : ℚ}
    (h : (revise env s key value confidence metadata reason items r now).2 = some a) :
    a.metadata.get? "revision_count" =
      match valueRevised env items key value with
      | none => metadata.get? "revision_count"
      | some prior =>
        (env.toInt ((prior.metadata.get? "revision_count").getD (.number (.ofInt 0)))).map
          fun n => .number (.ofInt (n + 1)) := by
  have hrevised : ∀ (k : String) (purged : Bool),
      (revisionMetadata k purged metadata).get? "revision_count" =
        metadata.get? "revision_count" := by
    intro k purged
    unfold revisionMetadata
    dsimp only
    split_ifs
    · rw [PyDict.get?_set_of_ne _ _ (by decide), PyDict.get?_set_of_ne _ _ (by decide)]
    · rw [PyDict.get?_set_of_ne _ _ (by decide), PyDict.get?_set_of_ne _ _ (by decide),
        PyDict.get?_set_of_ne _ _ (by decide)]
  have htracked : ∀ {prior : MemoryItem} {d d' : PyDict String Json},
      trackedMetadata env prior d = some d' → d'.get? "revision_count" =
        (env.toInt ((prior.metadata.get? "revision_count").getD (.number (.ofInt 0)))).map
          fun n => .number (.ofInt (n + 1)) := by
    intro prior d d' hd
    obtain ⟨n, hn, rfl⟩ := Option.map_eq_some_iff.mp hd
    rw [hn, PyDict.get?_set_self, Option.map_some]
  unfold revise at h
  dsimp only at h
  cases hprior : valueRevised env items key value with
  | none =>
      rw [hprior] at h
      rw [← Option.some.inj h]
      split_ifs
      · exact hrevised _ _
      · rfl
  | some prior =>
      rw [hprior] at h
      dsimp only at h
      split at h
      · cases h
      · rename_i d' hd'
        rw [← Option.some.inj h]
        exact htracked hd'

/-- What a write that goes through leaves in the row of its key and in the buffer. -/
lemma left_of_persist {before : Stores ρ} {record : Option ρ} {resp : WriteResponse}
    (h : (persist env before s a record times).2 = .ok resp) :
    (∃ row, (persist env before s a record times).1.kv.db.stateVariables.get? a.key = some row ∧
      row.value = a.value.dumps ∧ row.metadata = some (Json.obj a.metadata.entries).dumps) ∧
    ∃ sourceType, (persist env before s a record times).1.hot =
      s.hot.update env.rt a.key a.value a.confidence a.metadata sourceType times.buffered := by
  constructor
  · rw [kv_persist, persistCalls_of_ok h]
    show ∃ row, (((s.kv.call env.rt (.savepoint sagaTx)).call env.rt
      (.setSync (persistArgs a) times.persisted)).call env.rt
        (.releaseSavepoint sagaTx)).db.stateVariables.get? a.key = some row ∧ _
    rw [db_releaseSavepoint]
    exact ⟨_, (get?_call_setSync env.rt _ (persistArgs a) times.persisted a.key).trans (if_pos rfl),
      rfl, rfl⟩
  · have hfinish : ∀ s' : Stores ρ, s'.hot = s.hot → (finish env before s' a times).2 = .ok resp →
        ∃ sourceType, (finish env before s' a times).1.hot =
          s.hot.update env.rt a.key a.value a.confidence a.metadata sourceType times.buffered := by
      intro s' hhot hs'
      rw [← hhot]
      unfold finish at hs' ⊢
      split at hs'
      · rename_i sourceType _
        dsimp only at hs' ⊢
        split at hs'
        · cases hs'
        · exact ⟨sourceType, rfl⟩
      · cases hs'
    unfold persist at h ⊢
    cases record with
    | none => exact hfinish _ rfl h
    | some r =>
        dsimp only at h ⊢
        split at h
        · cases h
        · exact hfinish _ rfl h

/-! ### One write -/

section Step

variable {n : ℕ}

lemma counter_of_get? {key : String} {row : StateRow}
    (h : s.kv.db.stateVariables.get? key = some row) :
    s.kv.db.stateVariables.counter key = row.counter := by
  unfold StateTable.counter
  rw [h]

/-- The row of the write tells whether the stored value changes. -/
lemma valueChanged_eq_changes {after : StateTable} {row : StateRow}
    (hrow : after.get? input.key = some row) (hvalue : row.value = input.value.dumps) :
    valueChanged input.key s.kv.db.stateVariables after = changes s input := by
  unfold valueChanged changes
  rw [hrow]
  cases s.kv.db.stateVariables.get? input.key with
  | none => rfl
  | some old =>
      dsimp only
      rw [hvalue]

/-- The records of the key count to what the key counts to. -/
lemma counterOf_heldRecord (hcount : CountsTo s input.key n) (hcounted : Counted env s req input)
    {m : MemoryItem} (hm : m ∈ heldRecords env s input.key) :
    counterOf (m.metadata.get? "revision_count") = some (.ofInt n) := by
  rcases List.mem_append.mp hm with hm | hm
  · rw [Option.mem_toList] at hm
    obtain ⟨row, hrow, rfl⟩ := Option.map_eq_some_iff.mp hm
    rw [hcounted.legible row hrow, ← counter_of_get? hrow]
    exact hcount.1
  · obtain ⟨e, he, rfl⟩ := List.mem_map.mp hm
    obtain ⟨hbuffer, hkey⟩ := List.mem_filter.mp he
    exact (hcount.2 e hbuffer (of_decide_eq_true hkey)).2

/-- The record that the revision tracking compares the write with, if there is a comparison that
tells them apart. -/
lemma valueRevised_of_counted (hcounted : Counted env s req input) {metadata : PyDict String Json}
    (hsupersedes : metadata.get? "supersedes" = input.metadata.get? "supersedes")
    {session : Option String} {now : ℚ} :
    (changes s input = true ∧ ∃ m ∈ heldRecords env s input.key, valueRevised env
      (existingItems env s input.key input.value metadata session now) input.key input.value =
        some m) ∨
    (changes s input = false ∧ valueRevised env
      (existingItems env s input.key input.value metadata session now) input.key input.value =
        none) := by
  have hsourced := @allSourced_existingItems _ env s metadata input.key input.value session now
    input.key
  have hfirst := fun row hrow => @firstKey_existingItems _ env s input.key row hrow input.value
    metadata session now
  generalize existingItems env s input.key input.value metadata session now = items
    at hsourced hfirst ⊢
  have hheld : ∀ m, items.get? input.key = some m → m ∈ heldRecords env s input.key := by
    intro m hm
    rcases hsourced m hm with hmem | ⟨hrow, hlookup, v, hv, hkey⟩
    · exact hmem
    · rw [hsupersedes] at hv
      exact absurd (hcounted.unnamed hrow v hv hkey) hlookup
  unfold valueRevised
  cases hchanges : changes s input with
  | true =>
      refine Or.inl ⟨rfl, ?_⟩
      obtain ⟨row, hrow⟩ : ∃ row, s.kv.db.stateVariables.get? input.key = some row := by
        unfold changes at hchanges
        split at hchanges
        · exact ⟨_, by assumption⟩
        · cases hchanges
      obtain ⟨m, hm⟩ := Option.isSome_iff_exists.mp
        (PyDict.mem_keys_iff.mp (List.mem_of_mem_head? (hfirst row hrow)))
      have hmem := hheld m hm
      have htold := hcounted.told m hmem
      rw [hchanges] at htold
      exact ⟨m, hmem, by rw [hm]; exact Option.filter_eq_some_iff.mpr ⟨rfl, htold⟩⟩
  | false =>
      refine Or.inr ⟨rfl, ?_⟩
      cases hm : items.get? input.key with
      | none => rfl
      | some m =>
          have htold := hcounted.told m (hheld m hm)
          rw [hchanges] at htold
          rw [Option.filter_some, htold]
          rfl

/-- The counter of the metadata that an arbitrated write persists. -/
lemma counter_of_reaches (hint : ∀ n : ℕ, env.toInt (.number (.ofInt n)) = some (n : ℤ))
    (hcount : CountsTo s input.key n) (hcounted : Counted env s req input)
    (hinput : normalizeWriteInput env req = .ok input) (hreaches : Reaches env s req times a) :
    a.key = input.key ∧ a.value = input.value ∧
      counterOf (a.metadata.get? "revision_count") =
        some (.ofInt ((n + if changes s input then 1 else 0 : ℕ) : ℤ)) := by
  obtain ⟨input', r, hinput', -, -, -, -, hrevised⟩ := hreaches
  obtain rfl : input' = input := Except.ok.inj (hinput'.symm.trans hinput)
  obtain ⟨hkey, hvalue, -⟩ := accepted_of_revise hrevised
  refine ⟨hkey, hvalue, ?_⟩
  have hnames : ∀ name ∈ ["supersedes", "revision_count"],
      (incomingOf env req input').metadata.get? name = input'.metadata.get? name := by
    intro name hname
    simp only [List.mem_cons, List.not_mem_nil, or_false] at hname
    rcases hname with rfl | rfl <;> exact get?_incomingOf (by decide)
  rw [counter_of_revise hrevised]
  have hcompared := @valueRevised_of_counted _ env s req input' hcounted
    (incomingOf env req input').metadata (hnames _ (by decide)) req.sessionId times.scanned
  rcases hcompared with ⟨hchanges, m, hm, hprior⟩ | ⟨hchanges, hprior⟩
  · have hcounter := getD_of_counterOf (counterOf_heldRecord hcount hcounted hm)
    rw [show (incomingOf env req input').key = input'.key from rfl,
      show (incomingOf env req input').val = input'.value from rfl, hprior]
    dsimp only
    rw [hcounter, hint n, hchanges]
    rfl
  · rw [show (incomingOf env req input').key = input'.key from rfl,
      show (incomingOf env req input').val = input'.value from rfl, hprior]
    dsimp only
    rw [get?_warnedMetadata (by decide), hnames _ (by decide), hcounted.carried hchanges, hcount.1,
      hchanges]
    rfl

/-- **Write rule.**  A counted write takes the counter along. -/
lemma countsTo_write (hint : ∀ n : ℕ, env.toInt (.number (.ofInt n)) = some (n : ℤ)) {key : String}
    (hcount : CountsTo s key n) (hwrite : CountedWrite env key s req times) :
    CountsTo (write env s req times).1 key (n + if valueChanged key s.kv.db.stateVariables
      (write env s req times).1.kv.db.stateVariables then 1 else 0) := by
  obtain ⟨input, resp, hinput, rfl, hok, hpersisted, hcounted⟩ := hwrite
  by_cases hgate : StoppedByGate env input
  · obtain ⟨resp', hstopped, -, hnot, -⟩ := @write_of_stopped _ env s req times input hinput hgate
    rw [hstopped] at hok
    rw [← Except.ok.inj hok, hnot] at hpersisted
    cases hpersisted
  by_cases hreplay : TakenForReplay env s req input
  · have hchanges : changes s input = false :=
      Bool.eq_false_iff.mpr fun h => hcounted.compared h hreplay
    rw [write_of_replay hinput hgate hreplay]
    have hrow := (get?_call_setSync env.rt s.kv (touchedArgs input) times.persisted input.key).trans
      (if_pos rfl)
    have hcounter : counterOf ((assertedMetadata input.metadata).get? "revision_count") =
        some (.ofInt n) := by
      have hasserted : (assertedMetadata input.metadata).get? "revision_count" =
          input.metadata.get? "revision_count" := by
        unfold assertedMetadata
        split_ifs
        · rfl
        · exact PyDict.get?_set_of_ne _ _ (by decide)
      rw [hasserted, hcounted.carried hchanges]
      exact hcount.1
    have hunchanged := (@valueChanged_eq_changes _ s input _ _ hrow rfl).trans hchanges
    dsimp only
    rw [hunchanged]
    refine ⟨?_, fun e he hkey => ⟨by rw [hrow]; rfl, (hcount.2 e he hkey).2⟩⟩
    rw [StateTable.counter, hrow]
    exact (counter_of_written rfl).trans hcounter
  have hplain : ∀ input', normalizeWriteInput env req = .ok input' →
      ¬TakenForReplay env s req input' := by
    intro input' hinput'
    rw [Except.ok.inj (hinput'.symm.trans hinput)]
    exact hreplay
  obtain ⟨input', -, -, hreports⟩ := reports_of_write hok
  have hending := @ending_of_write _ env s req times hplain
  generalize write env s req times = out at hok hreports hending ⊢
  cases hending with
  | turnedAway resp' _ _ hrejected =>
      obtain rfl := Except.ok.inj hok
      rcases hreports with ⟨-, hnot, -⟩ | ⟨hstatus, -⟩
      · rw [hnot] at hpersisted
        cases hpersisted
      · rw [hrejected] at hstatus
        exact absurd hstatus (by decide)
  | raised after err => cases hok
  | persisted a _ hreaches =>
      obtain ⟨hkey, hvalue, hcounter⟩ := counter_of_reaches hint hcount hcounted hinput hreaches
      obtain ⟨⟨row, hrow, hrowValue, hmetadata⟩, sourceType, hhot⟩ := left_of_persist hok
      rw [hkey] at hrow
      rw [hvalue] at hrowValue
      rw [valueChanged_eq_changes hrow hrowValue]
      refine ⟨?_, fun e he hentry => ⟨by rw [hrow]; rfl, ?_⟩⟩
      · rw [counter_of_get? hrow, counter_of_written hmetadata]
        exact hcounter
      · rw [hhot] at he
        rcases HotBuffer.mem_of_mem_push he with he | rfl
        · have hne := of_decide_eq_true (List.mem_filter.mp he).2
          rw [hkey] at hne
          exact absurd hentry hne
        · exact hcounter

end Step

/-! ### Runs -/

section Run

variable {key : String} {xs ys : List (WriteRequest ρ × WriteTimes)}

lemma afterWrites_cons (w : WriteRequest ρ × WriteTimes) :
    afterWrites env s (w :: xs) = afterWrites env (write env s w.1 w.2).1 xs := rfl

/-- **Run rule.** -/
lemma countsTo_run (hint : ∀ n : ℕ, env.toInt (.number (.ofInt n)) = some (n : ℤ)) {n : ℕ}
    (hcount : CountsTo s key n) (hrun : CountedRun env key s xs) :
    CountsTo (afterWrites env s xs) key (n + valueChanges env key s xs) := by
  induction xs generalizing s n with
  | nil => exact hcount
  | cons w ws ih =>
      have hstep := ih (countsTo_write hint hcount hrun.1) hrun.2
      rw [afterWrites_cons, valueChanges, ← Nat.add_assoc]
      exact hstep

lemma countedRun_left (h : CountedRun env key s (xs ++ ys)) : CountedRun env key s xs := by
  induction xs generalizing s with
  | nil => trivial
  | cons w ws ih => exact ⟨h.1, ih h.2⟩

lemma valueChanges_append : valueChanges env key s (xs ++ ys) =
    valueChanges env key s xs + valueChanges env key (afterWrites env s xs) ys := by
  induction xs generalizing s with
  | nil => rw [List.nil_append, valueChanges, Nat.zero_add]; rfl
  | cons w ws ih =>
      rw [List.cons_append, valueChanges, valueChanges, ih, afterWrites_cons]
      omega

lemma countsTo_of_unwritten (h : Unwritten s key) : CountsTo s key 0 := by
  refine ⟨?_, fun e he hkey => absurd hkey (h.2 e he)⟩
  unfold StateTable.counter
  rw [h.1]
  rfl

/-- **The revision counter** in the course of a counted run, from the first write of the key on: it
is the number of times that the stored value has changed, and it never decreases. -/
theorem revisionCount_eq_valueChanges
    (hint : ∀ n : ℕ, env.toInt (.number (.ofInt n)) = some (n : ℤ)) (hfresh : Unwritten s key)
    (hrun : CountedRun env key s (xs ++ ys)) :
    (afterWrites env s xs).kv.db.stateVariables.counter key =
        some (.ofInt (valueChanges env key s xs)) ∧
      (afterWrites env s (xs ++ ys)).kv.db.stateVariables.counter key =
        some (.ofInt (valueChanges env key s (xs ++ ys))) ∧
      valueChanges env key s xs ≤ valueChanges env key s (xs ++ ys) := by
  have hzero := countsTo_of_unwritten hfresh
  have hleft := (countsTo_run hint hzero (countedRun_left hrun)).1
  have hboth := (countsTo_run hint hzero hrun).1
  rw [Nat.zero_add] at hleft hboth
  refine ⟨hleft, hboth, ?_⟩
  rw [valueChanges_append]
  omega

end Run

/-! ### A run that is counted, and one that is not -/

instance : Decidable (Counted env s req input) :=
  decidable_of_iff
    ((∀ m ∈ heldRecords env s input.key,
        decide (env.rt.pyStr m.value ≠ env.rt.pyStr input.value) = changes s input) ∧
      (∀ row ∈ s.kv.db.stateVariables.get? input.key,
        counterOf ((row.toMemoryItem env.rt input.key).metadata.get? "revision_count") =
          row.counter) ∧
      (changes s input = true → ¬TakenForReplay env s req input) ∧
      (changes s input = false → counterOf (input.metadata.get? "revision_count") =
        s.kv.db.stateVariables.counter input.key) ∧
      (s.kv.db.stateVariables.get? input.key = none →
        ∀ v ∈ (input.metadata.get? "supersedes").filter env.rt.truthy,
          env.rt.pyStr v = input.key → s.kv.db.stateVariables.lookup input.key = none))
    ⟨fun ⟨h₁, h₂, h₃, h₄, h₅⟩ => ⟨h₁, h₂, h₃, h₄, h₅⟩,
      fun h => ⟨h.told, h.legible, h.compared, h.carried, h.unnamed⟩⟩

instance {key : String} : Decidable (CountedWrite env key s req times) :=
  match hinput : normalizeWriteInput env req, hok : (write env s req times).2 with
  | .ok input, .ok resp =>
    decidable_of_iff (input.key = key ∧ resp.persisted = true ∧ Counted env s req input)
      ⟨fun ⟨hkey, hpersisted, h⟩ => ⟨input, resp, hinput, hkey, hok, hpersisted, h⟩,
        fun ⟨_, _, hinput', hkey, hok', hpersisted, h⟩ => by
          obtain rfl := Except.ok.inj (hinput.symm.trans hinput')
          obtain rfl := Except.ok.inj (hok.symm.trans hok')
          exact ⟨hkey, hpersisted, h⟩⟩
  | .error _, _ => .isFalse fun ⟨_, _, hinput', _⟩ => nomatch hinput.symm.trans hinput'
  | .ok _, .error _ => .isFalse fun ⟨_, _, _, _, hok', _⟩ => nomatch hok.symm.trans hok'

def valueWrite (value : String) : WriteRequest Unit where
  key := .str "user:b"
  value := .str value

/-- A value, another one, and the other one again. -/
def repeatedWrites : List (WriteRequest Unit × WriteTimes) :=
  [(valueWrite "x", timesAt 1), (valueWrite "y", timesAt 2), (valueWrite "y", timesAt 3)]

/-- The sample conversion takes the decimal digits of a number for what they say. -/
lemma toInt_sample (n : ℕ) : sampleWriteEnv.toInt (.number (.ofInt n)) = some (n : ℤ) := by
  have hfold : ∀ ds : List ℕ, (∀ d ∈ ds, d < 10) →
      (ds.reverse.map fun d => Char.ofNat (48 + d)).foldl
        (fun (acc : ℤ) c => 10 * acc + (c.toNat - 48)) 0 = ((Nat.ofDigits 10 ds : ℕ) : ℤ) := by
    intro ds hds
    induction ds with
    | nil => rfl
    | cons d ds ih =>
        have hd := hds d List.mem_cons_self
        have hchar : (Char.ofNat (48 + d)).toNat = 48 + d := by
          interval_cases d <;> rfl
        rw [List.reverse_cons, List.map_append, List.foldl_append,
          ih fun d' hd' => hds d' (List.mem_cons_of_mem _ hd'), List.map_singleton,
          List.foldl_cons, List.foldl_nil, hchar, Nat.ofDigits_cons]
        push_cast
        ring
  have hdigits : ∀ c ∈ NumberLit.decimal n, isDigit c = true := fun c hc =>
    NumberLit.isDigit_of_mem_decimal hc
  have htext : (NumberLit.ofInt n).text.toList = NumberLit.decimal n := by
    show (String.ofList (if (n : ℤ) < 0 then _ else NumberLit.decimal (n : ℤ).natAbs)).toList = _
    rw [String.toList_ofList, if_neg (by omega), Int.natAbs_natCast]
  show some (((NumberLit.ofInt n).text.toList.takeWhile isDigit).foldl
    (fun (acc : ℤ) c => 10 * acc + (c.toNat - 48)) 0) = _
  rw [htext, List.takeWhile_eq_self_iff.mpr hdigits, NumberLit.decimal]
  split_ifs with hzero
  · rw [hzero]
    rfl
  · rw [hfold _ fun d hd => Nat.digits_lt_base (by omega) hd, Nat.ofDigits_digits]

/-- The first two writes are counted. -/
theorem counter_after_change :
    (afterWrites sampleWriteEnv emptyStores (repeatedWrites.take 2)).kv.db.stateVariables.counter
      "user:b" = some (.ofInt 1) := by
  have hrun : CountedRun sampleWriteEnv "user:b" emptyStores
      (repeatedWrites.take 1 ++ [(valueWrite "y", timesAt 2)]) :=
    ⟨by decide +kernel, by decide +kernel, trivial⟩
  have hchanges : valueChanges sampleWriteEnv "user:b" emptyStores
      (repeatedWrites.take 1 ++ [(valueWrite "y", timesAt 2)]) = 1 := by decide +kernel
  have hcounter := (revisionCount_eq_valueChanges toInt_sample ⟨rfl, by nofun⟩ hrun).2.1
  rw [hchanges] at hcounter
  exact hcounter

/-- The third write takes the counter away: all three go through, the value changes once, and the
counter falls from 1 to 0. -/
theorem counter_lost :
    goThrough sampleWriteEnv emptyStores repeatedWrites = true ∧
    valueChanges sampleWriteEnv "user:b" emptyStores repeatedWrites = 1 ∧
    (afterWrites sampleWriteEnv emptyStores
      (repeatedWrites.take 2)).kv.db.stateVariables.counter "user:b" = some (.ofInt 1) ∧
    (afterWrites sampleWriteEnv emptyStores repeatedWrites).kv.db.stateVariables.counter "user:b" =
      some (.ofInt 0) := by
  refine ⟨?_, ?_, ?_, ?_⟩
  · decide +kernel
  · decide +kernel
  · decide +kernel
  · decide +kernel

end WritePath

end AtlasMemory
