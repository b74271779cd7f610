import AtlasMemory.Cognitive.WriteCalls

/-!
# What a response says about the record

A response that reports a persisted write comes with the record of its key, which has the value and
the clamped confidence of the write.  A response that reports nothing persisted is a rejection, and
leaves the stores as they were.
-/

namespace AtlasMemory

namespace WritePath

variable {ρ : Type} {env : WriteEnv ρ} {s : Stores ρ} {req : WriteRequest ρ} {times : WriteTimes}

lemma confidence_of_revise {key : String} {value : Json} {confidence : ℚ}
    {metadata : PyDict String Json} {reason : String} {items : PyDict String MemoryItem}
    {r : ArbitrationResult} {now : ℚ} {a : Accepted}
    (h : (revise env s key value confidence metadata reason items r now).2 = some a) :
    a.confidence = confidence := by
  unfold revise at h
  dsimp only at h
  split at h
  · rw [← Option.some.inj h]
  · split at h
    · cases h
    · rw [← Option.some.inj h]

/-- The tables after the release of a savepoint are those before it. -/
lemma db_releaseSavepoint (rt : Runtime) (kv : VerifiedKVStore) :
    (kv.call rt (.releaseSavepoint sagaTx)).db = kv.db :=
  @VerifiedKVStore.db_call rt kv (.releaseSavepoint sagaTx) (fun _ => by simp)

lemma get?_call_setSync (rt : Runtime) (kv : VerifiedKVStore) (b : SetArgs) (now : ℚ)
    (key : String) :
    (kv.call rt (.setSync b now)).db.stateVariables.get? key =
      if b.key = key then some ⟨b.value.dumps, PyFloat.clampUnit b.confidence, .finite now,
        some (Json.obj (b.storedMetadata rt now).entries).dumps, some (rt.hexdigest b.value.dumps)⟩
      else kv.db.stateVariables.get? key := by
  rw [VerifiedKVStore.db_call (fun _ => by simp)]
  exact get?_setSync kv.db b now key

/-- The record has this value and this confidence. -/
def HasRecord (t : StateTable) (key : String) (value : Json) (confidence : ℚ) : Prop :=
  ∃ row, t.get? key = some row ∧ row.value = value.dumps ∧ row.confidence = confidence

lemma response_of_persist {before : Stores ρ} {a : Accepted} {record : Option ρ}
    {resp : WriteResponse} (h : (persist env before s a record times).2 = .ok resp) :
    resp.status = "ok" ∧ resp.persisted = true ∧ resp.key = a.key := by
  have hfinish : ∀ s' : Stores ρ, (finish env before s' a times).2 = .ok resp →
      resp.status = "ok" ∧ resp.persisted = true ∧ resp.key = a.key := by
    intro s' hs'
    unfold finish at hs'
    split at hs'
    · dsimp only at hs'
      split at hs'
      · cases hs'
      · rw [← Except.ok.inj hs']
        exact ⟨rfl, rfl, rfl⟩
    · cases hs'
  unfold persist at h
  cases record with
  | none => exact hfinish _ h
  | some r =>
      dsimp only at h
      split at h
      · cases h
      · exact hfinish _ h

lemma hasRecord_of_persist {before : Stores ρ} {a : Accepted} {record : Option ρ}
    {resp : WriteResponse} (h : (persist env before s a record times).2 = .ok resp) :
    HasRecord (persist env before s a record times).1.kv.db.stateVariables
      a.key a.value (PyFloat.clampUnit (some (.finite a.confidence))) := by
  rw [kv_persist, persistCalls_of_ok h]
  show HasRecord (((s.kv.call env.rt (.savepoint sagaTx)).call env.rt
    (.setSync (persistArgs a) times.persisted)).call env.rt
      (.releaseSavepoint sagaTx)).db.stateVariables _ _ _
  rw [db_releaseSavepoint]
  exact ⟨_, (get?_call_setSync env.rt _ (persistArgs a) times.persisted a.key).trans (if_pos rfl),
    rfl, rfl⟩

/-- What a response says of a write to a key, from the stores before it to those after it. -/
def Reports (key : String) (value : Json) (confidence : ℚ) (before after : Stores ρ)
    (resp : WriteResponse) : Prop :=
  resp.key = key ∧
    ((resp.status = "rejected" ∧ resp.persisted = false ∧ after = before) ∨
      (resp.status = "ok" ∧ resp.persisted = true ∧
        HasRecord after.kv.db.stateVariables key value confidence))

lemma reports_of_writeArbitrated {key : String} {value : Json} {metadata : PyDict String Json}
    {confidence : ℚ} {resp : WriteResponse}
    (h : (writeArbitrated env s req key value metadata confidence times).2 = .ok resp) :
    Reports key value (PyFloat.clampUnit (some (.finite confidence))) s
      (writeArbitrated env s req key value metadata confidence times).1 resp := by
  unfold writeArbitrated at h ⊢
  dsimp only at h ⊢
  split at h
  · cases h
  · rename_i r hr
    by_cases hrejects : rejects r = true
    · rw [if_pos hrejects] at h ⊢
      rw [← Except.ok.inj h]
      exact ⟨rfl, Or.inl ⟨rfl, rfl, rfl⟩⟩
    · rw [if_neg hrejects] at h ⊢
      split at h
      · cases h
      · rename_i revised a hrevise
        have haccepted := congrArg Prod.snd hrevise
        obtain ⟨hkey, hvalue, -⟩ := accepted_of_revise haccepted
        have hconfidence := confidence_of_revise haccepted
        have hrecord := hasRecord_of_persist h
        obtain ⟨hstatus, hpersisted, hrespkey⟩ := response_of_persist h
        rw [hkey, hvalue, hconfidence] at hrecord
        exact ⟨hrespkey.trans hkey, Or.inr ⟨hstatus, hpersisted, hrecord⟩⟩

/-- A response is a rejection that changes nothing, or comes with the record of the write. -/
theorem reports_of_write {resp : WriteResponse} (h : (write env s req times).2 = .ok resp) :
    ∃ input, normalizeWriteInput env req = .ok input ∧
      Reports input.key input.value (PyFloat.clampUnit (some input.confidence)) s
        (write env s req times).1 resp := by
  cases hinput : normalizeWriteInput env req with
  | error err =>
      rw [write_of_error hinput] at h
      cases h
  | ok input =>
      refine ⟨input, rfl, ?_⟩
      by_cases hgate : StoppedByGate env input
      · obtain ⟨resp', hwrite, hstatus, hpersisted, hkey⟩ :=
          @write_of_stopped _ env s req times input hinput hgate
        rw [hwrite] at h ⊢
        rw [← Except.ok.inj h]
        exact ⟨hkey, Or.inl ⟨hstatus, hpersisted, rfl⟩⟩
      by_cases hreplay : TakenForReplay env s req input
      · rw [write_of_replay hinput hgate hreplay] at h ⊢
        rw [← Except.ok.inj h]
        refine ⟨rfl, Or.inr ⟨rfl, rfl, ?_⟩⟩
        have hrow := get?_call_setSync env.rt s.kv (touchedArgs input) times.persisted input.key
        refine ⟨_, hrow.trans (if_pos rfl), rfl, ?_⟩
        exact PyFloat.clampUnit_finite_of_mem (PyFloat.clampUnit_nonneg _)
          (PyFloat.clampUnit_le_one _)
      · rw [write_eq_arbitrated hinput hgate hreplay] at h ⊢
        have hreports := reports_of_writeArbitrated h
        have hclamp : PyFloat.clampUnit (some (.finite (incomingOf env req input).confidence)) =
            PyFloat.clampUnit (some input.confidence) :=
          PyFloat.clampUnit_finite_of_mem (PyFloat.clampUnit_nonneg _)
            (PyFloat.clampUnit_le_one _)
        rw [hclamp] at hreports
        exact hreports

end WritePath

end AtlasMemory
