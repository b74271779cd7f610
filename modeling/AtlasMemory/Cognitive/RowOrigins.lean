import AtlasMemory.Cognitive.ConcurrentWrites

/-!
# Where the rows of a write come from

Every row that is in the store after a write was there before it, or one of the calls of the write
put it there.  Such a call writes the record of the write itself, or it rewrites a record that was
there: the one that the write supersedes is marked, noted for the points that it left, or put back.
-/

namespace AtlasMemory

/-- The row that `set_sync` writes. -/
def SetArgs.row (rt : Runtime) (a : SetArgs) (now : ℚ) : StateRow where
  value := a.value.dumps
  confidence := PyFloat.clampUnit a.confidence
  timestamp := .finite now
  metadata := some (Json.obj (a.storedMetadata rt now).entries).dumps
  valueHash := some (rt.hexdigest a.value.dumps)

namespace VerifiedKVStore

variable {rt : Runtime} {kv : VerifiedKVStore}

/-- A row is one of the old rows, or the row of one of the calls. -/
def RowFrom (rt : Runtime) (old : StateTable) (calls : List KvCall) (key : String)
    (row : StateRow) : Prop :=
  old.get? key = some row ∨
    ∃ a now, KvCall.setSync a now ∈ calls ∧ a.key = key ∧ row = a.row rt now

lemma RowFrom.mono {old : StateTable} {calls calls' : List KvCall} {key : String} {row : StateRow}
    (hsub : ∀ c ∈ calls, c ∈ calls') (h : RowFrom rt old calls key row) :
    RowFrom rt old calls' key row := by
  obtain h | ⟨a, now, hmem, h⟩ := h
  · exact Or.inl h
  · exact Or.inr ⟨a, now, hsub _ hmem, h⟩

lemma RowFrom.trans {old mid : StateTable} {calls calls' : List KvCall} {key : String}
    {row : StateRow} (hmid : ∀ row, mid.get? key = some row → RowFrom rt old calls key row)
    (h : RowFrom rt mid calls' key row) : RowFrom rt old (calls ++ calls') key row := by
  obtain h | ⟨a, now, hmem, h⟩ := h
  · exact (hmid row h).mono fun c hc => List.mem_append_left _ hc
  · exact Or.inr ⟨a, now, List.mem_append_right _ hmem, h⟩

lemma rowFrom_setSync (a : SetArgs) (now : ℚ) {key : String} {row : StateRow}
    (h : (kv.call rt (.setSync a now)).db.stateVariables.get? key = some row) :
    RowFrom rt kv.db.stateVariables [.setSync a now] key row := by
  rw [db_call (fun _ => by simp)] at h
  have hrow := @WritePath.get?_setSync rt kv.db a now key
  have h' : (kv.db.setSync rt a now).1.stateVariables.get? key = some row := h
  rw [hrow] at h'
  by_cases hkey : a.key = key
  · rw [if_pos hkey] at h'
    exact Or.inr ⟨a, now, List.mem_singleton.mpr rfl, hkey, (Option.some.inj h').symm⟩
  · rw [if_neg hkey] at h'
    exact Or.inl h'

lemma rowFrom_setCalls (es : List (SetArgs × ℚ)) {key : String} {row : StateRow}
    (h : (kv.run rt (WritePath.setCalls es)).db.stateVariables.get? key = some row) :
    RowFrom rt kv.db.stateVariables (WritePath.setCalls es) key row := by
  induction es generalizing kv with
  | nil => exact Or.inl h
  | cons e es ih =>
    exact RowFrom.trans (fun _ hrow => rowFrom_setSync e.1 e.2 hrow) (ih h)

lemma rowFrom_savepoint_setSync (a : SetArgs) (now : ℚ) {key : String} {row : StateRow}
    (h : ((kv.call rt (.savepoint WritePath.sagaTx)).call rt
      (.setSync a now)).db.stateVariables.get? key = some row) :
    RowFrom rt kv.db.stateVariables [.setSync a now] key row := by
  have hrow := rowFrom_setSync a now h
  rwa [db_call (fun _ => by simp)] at hrow

/-- **Every row after the calls of a write** was there before, or one of the calls wrote it. -/
theorem rowFrom_of_shape {key key' : String} {row : StateRow} {o : Option (SetArgs × ℚ)}
    {calls : List KvCall} (hshape : WritePath.WriteShape key' o calls)
    (h : (kv.run rt calls).db.stateVariables.get? key = some row) :
    RowFrom rt kv.db.stateVariables calls key row := by
  cases hshape with
  | stopped before => exact rowFrom_setCalls before h
  | replay a now _ => exact rowFrom_setSync a now h
  | left before a now _ =>
      rw [WritePath.run_append] at h
      have hrow := RowFrom.trans (fun _ hrow => rowFrom_setCalls before hrow)
        (rowFrom_savepoint_setSync a now h)
      refine hrow.mono fun c hc => ?_
      simp only [List.mem_append, List.mem_cons, List.not_mem_nil, or_false] at hc ⊢
      tauto
  | kept before a now _ =>
      rw [WritePath.run_append, run_cons, run_cons, run_cons] at h
      have hdb : ∀ kv' : VerifiedKVStore,
          ((kv'.call rt (.releaseSavepoint WritePath.sagaTx)).run rt []).db = kv'.db :=
        fun kv' => @db_call rt kv' (.releaseSavepoint WritePath.sagaTx) (fun _ => by simp)
      rw [hdb] at h
      have hrow := RowFrom.trans (fun _ hrow => rowFrom_setCalls before hrow)
        (rowFrom_savepoint_setSync a now h)
      refine hrow.mono fun c hc => ?_
      simp only [List.mem_append, List.mem_cons, List.not_mem_nil, or_false] at hc ⊢
      tauto
  | undone before a now after _ =>
      rw [WritePath.run_append] at h
      set kv₁ := kv.run rt (WritePath.setCalls before) with hkv₁
      have hopened : ((kv₁.call rt (.savepoint WritePath.sagaTx)).call rt
          (.setSync a now)).tables.saved = (WritePath.sagaTx, kv₁.db) :: kv₁.tables.saved :=
        @WritePath.saved_savepoint rt kv₁
      have hrow := rowFrom_setCalls after h
      rw [WritePath.db_rollback hopened] at hrow
      have hall := RowFrom.trans (fun _ hrow => rowFrom_setCalls before hrow) hrow
      refine hall.mono fun c hc => ?_
      simp only [List.mem_append, List.mem_cons] at hc ⊢
      tauto

end VerifiedKVStore

namespace WritePath

variable {ρ : Type} {env : WriteEnv ρ} {s : Stores ρ} {req : WriteRequest ρ} {times : WriteTimes}

/-- Every row after a write was there before, or one of the calls of the write wrote it. -/
theorem rowFrom_write {key : String} {row : StateRow}
    (h : (write env s req times).1.kv.db.stateVariables.get? key = some row) :
    VerifiedKVStore.RowFrom env.rt s.kv.db.stateVariables (writeCalls env s req times) key row := by
  rw [kv_write] at h
  cases hinput : normalizeWriteInput env req with
  | error err =>
    have hnone : writeCalls env s req times = [] := by
      unfold writeCalls
      rw [hinput]
    rw [hnone] at h ⊢
    exact Or.inl h
  | ok input =>
    obtain ⟨o, hshape⟩ := @writeShape_writeCalls _ env s times req input hinput
    exact VerifiedKVStore.rowFrom_of_shape hshape h

/-! ## What the calls write -/

/-- The items that a write adds to its metadata. -/
def stampedNames : List String :=
  ["speech_act", "source_type", "confidence", "session_id", "conflict_warning", "conflict_details",
    "is_belief_revision", "superseded_key", "vector_tombstone_pending", "prior_value",
    "revision_count"]

/-- The record of the write itself: its key and value, and its metadata but for the items that the
write adds. -/
def OwnRecord (input : NormalizedInput) (a : SetArgs) : Prop :=
  a.key = input.key ∧ a.value = input.value ∧ ∃ metadata, a.metadata = some metadata ∧
    ∀ name ∉ stampedNames, metadata.get? name = input.metadata.get? name

/-- The records that the arbitration of a write sees. -/
def seenItems (env : WriteEnv ρ) (s : Stores ρ) (req : WriteRequest ρ) (input : NormalizedInput)
    (times : WriteTimes) : PyDict String MemoryItem :=
  existingItems env s input.key input.value (incomingOf env req input).metadata req.sessionId
    times.scanned

/-- A rewrite of a record by a write under `key`, which sees `items`: the record is marked as
superseded or put back, or a row of the store is noted for the points that it left. -/
inductive RewritesRecord (env : WriteEnv ρ) (s : Stores ρ) (items : PyDict String MemoryItem)
    (key : String) : SetArgs → Prop
  | marked {oldKey : String} {old : MemoryItem} (now : ℚ) (h : items.get? oldKey = some old) :
    RewritesRecord env s items key (supersedeArgs env oldKey key old now)
  | noted {oldKey stored : String} {row : StateRow} (now : ℚ)
    (h : (s.kv.run env.rt (markCalls env items oldKey key now)).db.stateVariables.lookup oldKey =
      some (stored, row)) :
    RewritesRecord env s items key (tombstoneArgs oldKey (row.toMemoryItem env.rt stored))
  | restored {oldKey : String} {old : MemoryItem} (reason : String)
    (h : items.get? oldKey = some old) :
    RewritesRecord env s items key (restoreArgs oldKey old reason)

lemma rewrites_of_mem_revisionCalls {items : PyDict String MemoryItem} {key : String} {now t : ℚ}
    {old : Option String} {a : SetArgs}
    (h : KvCall.setSync a t ∈ revisionCalls env s items key now old) :
    RewritesRecord env s items key a := by
  cases old with
  | none => exact absurd h List.not_mem_nil
  | some oldKey =>
    have hmarks (hmem : KvCall.setSync a t ∈ markCalls env items oldKey key now) :
        RewritesRecord env s items key a := by
      unfold markCalls at hmem
      split at hmem
      · next hold =>
        obtain ⟨rfl, rfl⟩ := KvCall.setSync.inj (List.mem_singleton.mp hmem)
        exact .marked _ hold
      · exact absurd hmem List.not_mem_nil
    unfold revisionCalls at h
    dsimp only at h
    split_ifs at h
    · exact hmarks h
    · obtain h | h := List.mem_append.mp h
      · exact hmarks h
      · unfold tombstoneCalls at h
        split at h
        · next hrow =>
          obtain ⟨rfl, rfl⟩ := KvCall.setSync.inj (List.mem_singleton.mp h)
          exact .noted _ hrow
        · exact absurd h List.not_mem_nil

lemma rewrites_of_mem_restoreCalls {items : PyDict String MemoryItem} {key : String}
    {backup : Option (String × MemoryItem)}
    (hbackup : ∀ k m, backup = some (k, m) → items.get? k = some m) {p : String → Bool}
    {reason : String} {now t : ℚ} {a : SetArgs}
    (h : KvCall.setSync a t ∈ restoreCalls backup p reason now) :
    RewritesRecord env s items key a := by
  unfold restoreCalls at h
  split at h
  · split_ifs at h
    · obtain ⟨rfl, rfl⟩ := KvCall.setSync.inj (List.mem_singleton.mp h)
      exact .restored reason (hbackup _ _ rfl)
    · exact absurd h List.not_mem_nil
  · exact absurd h List.not_mem_nil

lemma rewrites_of_mem_finishCalls {a : Accepted} {key : String} {s' : Stores ρ} {t : ℚ}
    {b : SetArgs} (h : KvCall.setSync b t ∈ finishCalls env s' a times)
    (hbackup : ∀ k m, a.backupOldItem = some (k, m) → a.items.get? k = some m) :
    RewritesRecord env s a.items key b := by
  unfold finishCalls at h
  split at h
  · split at h
    · obtain h | h := List.mem_cons.mp h
      · cases h
      · exact rewrites_of_mem_restoreCalls hbackup h
    · exact absurd (List.mem_singleton.mp h) (by simp)
  · exact absurd h List.not_mem_nil

lemma backupOldItem_get? (a : Accepted) (k : String) (m : MemoryItem)
    (h : a.backupOldItem = some (k, m)) : a.items.get? k = some m := by
  unfold Accepted.backupOldItem at h
  obtain ⟨k', -, hk⟩ := Option.bind_eq_some_iff.mp h
  obtain ⟨m', hm, heq⟩ := Option.map_eq_some_iff.mp hk
  obtain ⟨rfl, rfl⟩ := Prod.mk.inj heq
  exact hm

lemma rewrites_of_mem_endingCalls {a : Accepted} {record : Option ρ} {key : String}
    {s' : Stores ρ} {t : ℚ} {b : SetArgs}
    (h : KvCall.setSync b t ∈ endingCalls env s' a record times) :
    RewritesRecord env s a.items key b := by
  unfold endingCalls at h
  split at h
  · exact rewrites_of_mem_finishCalls h (backupOldItem_get? a)
  · split at h
    · obtain h | h := List.mem_cons.mp h
      · cases h
      · exact rewrites_of_mem_restoreCalls (backupOldItem_get? a) h
    · exact rewrites_of_mem_finishCalls h (backupOldItem_get? a)

lemma items_of_revise {key : String} {value : Json} {confidence : ℚ}
    {metadata : PyDict String Json} {reason : String} {items : PyDict String MemoryItem}
    {r : ArbitrationResult} {now : ℚ} {a : Accepted}
    (h : (revise env s key value confidence metadata reason items r now).2 = some a) :
    a.items = items := by
  unfold revise at h
  dsimp only at h
  split at h
  · rw [← Option.some.inj h]
  · split at h
    · exact absurd h (by simp)
    · rw [← Option.some.inj h]

/-- **What a write writes**: its own record, or a rewrite of a record that is there. -/
theorem ownRecord_or_rewrites {a : SetArgs} {t : ℚ}
    (h : KvCall.setSync a t ∈ writeCalls env s req times) :
    ∃ input, normalizeWriteInput env req = .ok input ∧
      (OwnRecord input a ∨ RewritesRecord env s (seenItems env s req input times) input.key a) := by
  unfold writeCalls at h
  split at h
  · exact absurd h List.not_mem_nil
  · next input hinput =>
    refine ⟨input, hinput, ?_⟩
    split_ifs at h with hgate hreplay
    · exact absurd h List.not_mem_nil
    · obtain ⟨rfl, rfl⟩ := KvCall.setSync.inj (List.mem_singleton.mp h)
      refine Or.inl ⟨rfl, rfl, _, rfl, fun name hname => ?_⟩
      have hact : "speech_act" ≠ name := by
        rintro rfl
        exact hname (by decide)
      unfold assertedMetadata
      split_ifs
      · rfl
      · exact PyDict.get?_set_of_ne _ _ hact
    · unfold arbitratedCalls at h
      dsimp only at h
      split at h
      · exact absurd h List.not_mem_nil
      · next r hr =>
        split_ifs at h
        · exact absurd h List.not_mem_nil
        · obtain h | h := List.mem_append.mp h
          · exact Or.inr (rewrites_of_mem_revisionCalls h)
          · split at h
            · exact absurd h List.not_mem_nil
            · next b hb =>
              have hitems : b.items = seenItems env s req input times := items_of_revise hb
              unfold persistCalls at h
              obtain h | h := List.mem_cons.mp h
              · cases h
              · obtain h | h := List.mem_cons.mp h
                · obtain ⟨rfl, rfl⟩ := KvCall.setSync.inj h
                  obtain ⟨hkey, hvalue, hmetadata⟩ := accepted_of_revise hb
                  refine Or.inl ⟨hkey, hvalue, _, rfl, fun name hname => ?_⟩
                  simp only [stampedNames, List.mem_cons, List.not_mem_nil, or_false,
                    not_or] at hname
                  rw [hmetadata name (by simp [hname]), get?_warnedMetadata (by simp [hname]),
                    get?_incomingOf (by simp [hname])]
                · rw [← hitems]
                  exact Or.inr (rewrites_of_mem_endingCalls h)

end WritePath

end AtlasMemory
