import AtlasMemory.Cognitive.WriteCalls
import AtlasMemory.Foundations.Interleavings
import AtlasMemory.L2Semantic.LogGrowth

/-!
# Concurrent writes

Two writes to different keys run in separate threads over one store.  Each call of the store holds
the lock of the store, so that a run is an interleaving of the calls of the two writes.  Both use one
name for their savepoints on one connection, and a rollback or a release acts on the innermost of
them, of whichever write it is: a write that fails may take the record of the other one with it.
`isolated` says when it does not.
-/

namespace AtlasMemory

namespace WritePath

open Interleaving

variable {rt : Runtime}

/-! ## The calls of one write -/

/-- Calls of `set_sync`. -/
def setCalls (es : List (SetArgs × ℚ)) : List KvCall := es.map fun e => .setSync e.1 e.2

/-- The calls that a write to the key makes in its store, with what it has written if it answers that
it has persisted: it rewrites the record that it supersedes, and stops, or goes on with its savepoint
and its record; then it stops with the savepoint open, releases it, or rolls it back and puts the
superseded record back. -/
inductive WriteShape (key : String) : Option (SetArgs × ℚ) → List KvCall → Prop
  | stopped (before) : WriteShape key none (setCalls before)
  | replay (a now) (h : a.key = key) : WriteShape key (some (a, now)) [.setSync a now]
  | left (before a now) (h : a.key = key) :
    WriteShape key none (setCalls before ++ [.savepoint sagaTx, .setSync a now])
  | kept (before a now) (h : a.key = key) : WriteShape key (some (a, now))
    (setCalls before ++ [.savepoint sagaTx, .setSync a now, .releaseSavepoint sagaTx])
  | undone (before a now after) (h : a.key = key) : WriteShape key none
    (setCalls before ++ .savepoint sagaTx :: .setSync a now :: .rollbackSavepoint sagaTx ::
      setCalls after)

/-! ## The calls of a write have the shape -/

section Shape

variable {ρ : Type} {env : WriteEnv ρ} {s : Stores ρ} {times : WriteTimes} {req : WriteRequest ρ}

lemma setCalls_append (es es' : List (SetArgs × ℚ)) :
    setCalls (es ++ es') = setCalls es ++ setCalls es' :=
  List.map_append

lemma exists_setCalls_markCalls (items : PyDict String MemoryItem) (oldKey key : String) (now : ℚ) :
    ∃ es, markCalls env items oldKey key now = setCalls es := by
  unfold markCalls
  split
  · exact ⟨[(_, _)], rfl⟩
  · exact ⟨[], rfl⟩

lemma exists_setCalls_tombstoneCalls (kv : VerifiedKVStore) (oldKey : String) (now : ℚ) :
    ∃ es, tombstoneCalls env kv oldKey now = setCalls es := by
  unfold tombstoneCalls
  split
  · exact ⟨[(_, _)], rfl⟩
  · exact ⟨[], rfl⟩

lemma exists_setCalls_revisionCalls (items : PyDict String MemoryItem) (key : String) (now : ℚ)
    (old : Option String) : ∃ es, revisionCalls env s items key now old = setCalls es := by
  cases old with
  | none => exact ⟨[], rfl⟩
  | some oldKey =>
      obtain ⟨marks, hmarks⟩ := @exists_setCalls_markCalls _ env items oldKey key now
      obtain ⟨notes, hnotes⟩ := @exists_setCalls_tombstoneCalls _ env
        (s.kv.run env.rt (markCalls env items oldKey key now)) oldKey now
      unfold revisionCalls
      dsimp only
      split
      · exact ⟨marks, hmarks⟩
      · exact ⟨marks ++ notes, by rw [setCalls_append, ← hmarks, ← hnotes]⟩

lemma exists_setCalls_restoreCalls (backup : Option (String × MemoryItem)) (p : String → Bool)
    (reason : String) (now : ℚ) : ∃ es, restoreCalls backup p reason now = setCalls es := by
  unfold restoreCalls
  split
  · split_ifs
    · exact ⟨[(_, _)], rfl⟩
    · exact ⟨[], rfl⟩
  · exact ⟨[], rfl⟩

/-- The calls after the persisted write: none, a release, or a rollback and rewrites. -/
lemma endingCalls_cases (a : Accepted) (record : Option ρ) :
    endingCalls env s a record times = [] ∨
      endingCalls env s a record times = [.releaseSavepoint sagaTx] ∨
        ∃ es, endingCalls env s a record times = .rollbackSavepoint sagaTx :: setCalls es := by
  have hfinish : finishCalls env s a times = [] ∨
      finishCalls env s a times = [.releaseSavepoint sagaTx] ∨
        ∃ es, finishCalls env s a times = .rollbackSavepoint sagaTx :: setCalls es := by
    unfold finishCalls
    split
    · split
      · obtain ⟨es, hes⟩ := exists_setCalls_restoreCalls a.backupOldItem
          (fun k => decide (k ≠ a.key)) "rollback_restore" times.restored
        exact Or.inr (Or.inr ⟨es, by rw [hes]⟩)
      · exact Or.inr (Or.inl rfl)
    · exact Or.inl rfl
  unfold endingCalls
  split
  · exact hfinish
  · split
    · obtain ⟨es, hes⟩ := exists_setCalls_restoreCalls a.backupOldItem
        (fun _ => s.kv.hasSavepoint sagaTx) "rollback_vector_failure" times.restored
      exact Or.inr (Or.inr ⟨es, by rw [hes]⟩)
    · exact hfinish

/-- **The calls of a write have the shape.** -/
theorem writeShape_writeCalls {input : NormalizedInput}
    (hinput : normalizeWriteInput env req = .ok input) :
    ∃ o, WriteShape input.key o (writeCalls env s req times) := by
  have hnone : WriteShape input.key none [] := .stopped []
  unfold writeCalls
  rw [hinput]
  dsimp only
  by_cases hgate : StoppedByGate env input
  · rw [if_pos hgate]
    exact ⟨none, hnone⟩
  rw [if_neg hgate]
  by_cases hreplay : TakenForReplay env s req input
  · rw [if_pos hreplay]
    exact ⟨_, .replay (touchedArgs input) times.persisted rfl⟩
  rw [if_neg hreplay]
  unfold arbitratedCalls
  dsimp only
  split
  · exact ⟨none, hnone⟩
  · rename_i r _
    split_ifs with hrejects
    · exact ⟨none, hnone⟩
    · obtain ⟨es, hes⟩ := @exists_setCalls_revisionCalls _ env s (existingItems env s
        (incomingOf env req input).key (incomingOf env req input).val
        (incomingOf env req input).metadata req.sessionId times.scanned)
        (incomingOf env req input).key times.revised (revisedKey env (incomingOf env req input) r)
      rw [hes]
      split
      · rw [List.append_nil]
        exact ⟨none, .stopped es⟩
      · rename_i a ha
        have hkey : (persistArgs a).key = input.key := (accepted_of_revise ha).1
        unfold persistCalls
        rcases @endingCalls_cases ρ env _ times a req.vectorRecord with h | h | ⟨after, h⟩
        · rw [h]
          exact ⟨none, .left es _ _ hkey⟩
        · rw [h]
          exact ⟨_, .kept es _ _ hkey⟩
        · rw [h]
          exact ⟨none, .undone es _ _ after hkey⟩

end Shape

/-! ## What is to be kept -/

/-- The row of the ledger that a call of `set_sync` appends. -/
structure EntryOf (rt : Runtime) (a : SetArgs) (now : ℚ) (r : AuditRow) : Prop where
  key : r.key = a.key
  timestamp : r.timestamp = .finite now
  valueHash : r.valueHash = rt.hexdigest a.value.dumps
  newValue : r.newValue = some a.value.dumps
  reason : r.reason = some a.reason

/-- The value of the call is under its key, and its entry is in the ledger. -/
structure Holds (rt : Runtime) (a : SetArgs) (now : ℚ) (db : Db) : Prop where
  row : ∃ row, db.stateVariables.get? a.key = some row ∧ row.value = a.value.dumps
  entry : ∃ r ∈ db.auditLog.rows, EntryOf rt a now r

/-- The tables are numbered, and hold what the call has written. -/
structure Kept (rt : Runtime) (a : SetArgs) (now : ℚ) (db : Db) : Prop where
  numbered : Numbered db.auditLog
  holds : Holds rt a now db

/-- A call that does not roll back, and writes no other value under the key. -/
def Harmless (a : SetArgs) : KvCall → Prop
  | .setSync b _ => b.key = a.key → b.value.dumps = a.value.dumps
  | .savepoint _ | .releaseSavepoint _ => True
  | _ => False

/-- The tables after a call of `set_sync`, of which only the table of the records is known to differ. -/
lemma setSync_eq (db : Db) (b : SetArgs) (t : ℚ) : ∃ written : Db,
    written.auditLog = db.auditLog ∧ db.setSync rt b t = written.append rt (b.entry rt t) :=
  ⟨{ db with
      stateVariables := db.stateVariables.setState b.key b.value.dumps
        (PyFloat.clampUnit b.confidence) t (Json.obj (b.storedMetadata rt t).entries).dumps
        (rt.hexdigest b.value.dumps) }, rfl, rfl⟩

lemma kept_setSync_self {db : Db} (h : Numbered db.auditLog) (a : SetArgs) (now : ℚ) :
    Kept rt a now (db.setSync rt a now).1 where
  numbered := by
    obtain ⟨written, hlog, hset⟩ := @setSync_eq rt db a now
    rw [hset]
    exact (numbered_append written (hlog ▸ h) _).2
  holds := by
    refine ⟨⟨_, (get?_setSync db a now a.key).trans (if_pos rfl), rfl⟩, ?_⟩
    obtain ⟨written, hlog, hset⟩ := @setSync_eq rt db a now
    rw [hset]
    unfold Db.append
    rcases @append_cases rt written.auditLog (hlog ▸ h) (a.entry rt now) with
      ⟨hnone, -⟩ | ⟨stored, log', hstored, hok, hrows⟩
    · cases hnone
    · rw [hok]
      refine ⟨appendedRow rt written.auditLog (a.entry rt now) stored, ?_, rfl, ?_, rfl, rfl, rfl⟩
      · show _ ∈ log'.rows
        rw [hrows]
        exact List.mem_append_right _ (List.mem_singleton.mpr rfl)
      · exact (Option.some.inj hstored).symm

lemma kept_setSync_other {db : Db} {a : SetArgs} {now : ℚ} (h : Kept rt a now db) {b : SetArgs}
    {t : ℚ} (hb : b.key = a.key → b.value.dumps = a.value.dumps) :
    Kept rt a now (db.setSync rt b t).1 := by
  obtain ⟨written, hlog, hset⟩ := @setSync_eq rt db b t
  obtain ⟨hext, hnumbered⟩ := @numbered_append rt written (hlog ▸ h.numbered) (b.entry rt t)
  refine ⟨by rw [hset]; exact hnumbered, ?_, ?_⟩
  · obtain ⟨row, hrow, hvalue⟩ := h.holds.row
    rw [get?_setSync]
    split_ifs with hkey
    · exact ⟨_, rfl, hb hkey⟩
    · exact ⟨row, hrow, hvalue⟩
  · obtain ⟨r, hr, hentry⟩ := h.holds.entry
    obtain ⟨tail, -, hrows⟩ := hext
    rw [hset]
    refine ⟨r, ?_, hentry⟩
    rw [hrows, hlog]
    exact List.mem_append_left tail hr

lemma kept_run {kv : VerifiedKVStore} {a : SetArgs} {now : ℚ} (h : Kept rt a now kv.db)
    {calls : List KvCall} (hcalls : ∀ c ∈ calls, Harmless a c) :
    Kept rt a now (kv.run rt calls).db := by
  induction calls generalizing kv with
  | nil => exact h
  | cons c cs ih =>
      rw [VerifiedKVStore.run_cons]
      refine ih ?_ fun c' hc' => hcalls c' (List.mem_cons_of_mem _ hc')
      have hc := hcalls c List.mem_cons_self
      cases c with
      | setSync b t =>
          rw [VerifiedKVStore.db_call (by nofun)]
          exact kept_setSync_other h hc
      | savepoint name =>
          rw [VerifiedKVStore.db_call (by nofun)]
          exact h
      | releaseSavepoint name =>
          rw [VerifiedKVStore.db_call (by nofun)]
          exact h
      | _ => exact absurd hc (by nofun)

/-! ## Schedules -/

variable {t : Thread} {sched : List (Thread × KvCall)} {a : SetArgs} {now : ℚ} {key : String}

/-- While the other write may still roll back, the write of the thread neither writes its record nor
releases a savepoint. -/
def Undisturbed (t : Thread) (sched : List (Thread × KvCall)) (a : SetArgs) (now : ℚ) : Prop :=
  ∀ pre mid post, sched = pre ++ (t.other, .savepoint sagaTx) :: mid ++
    (t.other, .rollbackSavepoint sagaTx) :: post →
      (t, .setSync a now) ∉ mid ∧ (t, .releaseSavepoint sagaTx) ∉ mid

/-- After the record of the thread is written, the other write, in its rewrites of a superseded key,
puts no other value under the key. -/
def NotRewritten (t : Thread) (sched : List (Thread × KvCall)) (a : SetArgs) (now : ℚ)
    (otherKey : String) : Prop :=
  ∀ pre post, sched = pre ++ (t, .setSync a now) :: post → ∀ b time,
    (t.other, .setSync b time) ∈ post → b.key ≠ otherKey → b.key = a.key →
      b.value.dumps = a.value.dumps

/-- A write that is through before the other one opens its savepoint is undisturbed. -/
lemma undisturbed_of_append {xs ys : List (Thread × KvCall)} (h : sched = xs ++ ys)
    (hbefore : (t.other, .savepoint sagaTx) ∉ xs)
    (hafter : (t, .setSync a now) ∉ ys ∧ (t, .releaseSavepoint sagaTx) ∉ ys) :
    Undisturbed t sched a now := by
  intro pre mid post hsched
  have hmid : mid ⊆ ys := by
    rw [h, List.append_assoc] at hsched
    rcases List.append_eq_append_iff.mp hsched with ⟨as, -, hys⟩ | ⟨cs, hxs, hys⟩
    · rw [hys]
      intro c hc
      simp [hc]
    · cases cs with
      | nil =>
          rw [← List.nil_append ys, ← hys]
          intro c hc
          simp [hc]
      | cons c cs =>
          refine absurd ?_ hbefore
          rw [hxs, (List.cons.inj hys).1]
          exact List.mem_append_right _ List.mem_cons_self
  exact ⟨fun hc => hafter.1 (hmid hc), fun hc => hafter.2 (hmid hc)⟩

lemma call_of_shape {o : Option (SetArgs × ℚ)} {calls : List KvCall} (h : WriteShape key o calls)
    {c : KvCall} (hc : c ∈ calls) : (∃ b time, c = .setSync b time) ∨ c = .savepoint sagaTx ∨
      c = .releaseSavepoint sagaTx ∨ c = .rollbackSavepoint sagaTx := by
  have hset : ∀ {es : List (SetArgs × ℚ)}, c ∈ setCalls es → ∃ b time, c = .setSync b time := by
    intro es hmem
    obtain ⟨e, -, rfl⟩ := List.mem_map.mp hmem
    exact ⟨e.1, e.2, rfl⟩
  cases h with
  | stopped before => exact Or.inl (hset hc)
  | replay a now _ => exact Or.inl ⟨a, now, List.mem_singleton.mp hc⟩
  | left before a now _ =>
      rcases List.mem_append.mp hc with hc | hc
      · exact Or.inl (hset hc)
      · simp only [List.mem_cons, List.not_mem_nil, or_false] at hc
        rcases hc with rfl | rfl
        · exact Or.inr (Or.inl rfl)
        · exact Or.inl ⟨_, _, rfl⟩
  | kept before a now _ =>
      rcases List.mem_append.mp hc with hc | hc
      · exact Or.inl (hset hc)
      · simp only [List.mem_cons, List.not_mem_nil, or_false] at hc
        rcases hc with rfl | rfl | rfl
        · exact Or.inr (Or.inl rfl)
        · exact Or.inl ⟨_, _, rfl⟩
        · exact Or.inr (Or.inr (Or.inl rfl))
  | undone before a now after _ =>
      rcases List.mem_append.mp hc with hc | hc
      · exact Or.inl (hset hc)
      · simp only [List.mem_cons] at hc
        rcases hc with rfl | rfl | rfl | hc
        · exact Or.inr (Or.inl rfl)
        · exact Or.inl ⟨_, _, rfl⟩
        · exact Or.inr (Or.inr (Or.inr rfl))
        · exact Or.inl (hset hc)

/-- What a write that answers that it has persisted does after writing its record: it releases its
savepoint, or nothing. -/
lemma exists_split_of_persisted {calls : List KvCall} (h : WriteShape key (some (a, now)) calls) :
    a.key = key ∧ ∃ p q, calls = p ++ .setSync a now :: q ∧
      ∀ c ∈ q, c = .releaseSavepoint sagaTx := by
  cases h with
  | replay _ _ hkey => exact ⟨hkey, [], [], rfl, fun _ hc => absurd hc List.not_mem_nil⟩
  | kept before _ _ hkey =>
      exact ⟨hkey, setCalls before ++ [.savepoint sagaTx], [.releaseSavepoint sagaTx], by simp,
        fun c hc => List.mem_singleton.mp hc⟩

/-- A rollback is the one after the savepoint. -/
lemma exists_split_of_rollback {o : Option (SetArgs × ℚ)} {calls : List KvCall}
    (h : WriteShape key o calls) (hroll : .rollbackSavepoint sagaTx ∈ calls) :
    ∃ before b time after, calls = setCalls before ++ .savepoint sagaTx :: [.setSync b time] ++
      .rollbackSavepoint sagaTx :: setCalls after := by
  have hset : ∀ {es : List (SetArgs × ℚ)}, KvCall.rollbackSavepoint sagaTx ∉ setCalls es := by
    intro es hmem
    obtain ⟨e, -, he⟩ := List.mem_map.mp hmem
    cases he
  cases h with
  | stopped before => exact absurd hroll hset
  | replay a now _ => cases List.mem_singleton.mp hroll
  | left before a now _ =>
      rcases List.mem_append.mp hroll with hroll | hroll
      · exact absurd hroll hset
      · simp at hroll
  | kept before a now _ =>
      rcases List.mem_append.mp hroll with hroll | hroll
      · exact absurd hroll hset
      · simp at hroll
  | undone before a now after _ => exact ⟨before, a, now, after, by simp⟩

/-! ## Isolation -/

section Isolation

variable {otherKey : String} {o : Option (SetArgs × ℚ)}

/-- A step of the thread after its record is written is a release. -/
lemma harmless_own {post : List (Thread × KvCall)}
    (h : ∀ c ∈ project t post, c = .releaseSavepoint sagaTx) {c : KvCall} (hc : (t, c) ∈ post) :
    Harmless a c := by
  rw [h c (mem_project.mpr hc)]
  trivial

/-- A step of the other write, other than its rollback, is harmless after the record is written. -/
lemma harmless_other {pre post : List (Thread × KvCall)}
    (hother : WriteShape otherKey o (project t.other sched)) (hne : a.key ≠ otherKey)
    (hkept : NotRewritten t sched a now otherKey)
    (hsched : sched = pre ++ (t, .setSync a now) :: post) {c : KvCall} (hc : (t.other, c) ∈ post)
    (hroll : c ≠ .rollbackSavepoint sagaTx) : Harmless a c := by
  have hmem : c ∈ project t.other sched := by
    rw [hsched]
    exact mem_project.mpr (List.mem_append_right _ (List.mem_cons_of_mem _ hc))
  rcases call_of_shape hother hmem with ⟨b, time, rfl⟩ | rfl | rfl | rfl
  · intro hkey
    exact hkept pre post hsched b time hc (fun hb => hne (hkey ▸ hb)) hkey
  · trivial
  · trivial
  · exact absurd rfl hroll

lemma rollback_notMem_setCalls {name : String} (es : List (SetArgs × ℚ)) :
    KvCall.rollbackSavepoint name ∉ setCalls es := by
  intro hmem
  obtain ⟨e, -, he⟩ := List.mem_map.mp hmem
  cases he

/-- What is kept outlasts a savepoint of the other write that is rolled back after rewrites only. -/
lemma kept_of_rolledBack {kv : VerifiedKVStore} (h : Kept rt a now kv.db)
    {mid : List (Thread × KvCall)} (hmid : ∀ c ∈ mid.map Prod.snd, ∃ b time, c = .setSync b time) :
    Kept rt a now (((kv.call rt (.savepoint sagaTx)).run rt (mid.map Prod.snd)).call rt
      (.rollbackSavepoint sagaTx)).db := by
  have hsaved : ((kv.call rt (.savepoint sagaTx)).run rt (mid.map Prod.snd)).tables.saved =
      (sagaTx, kv.db) :: kv.tables.saved :=
    (saved_run_setSync hmid).trans (saved_savepoint kv)
  rw [db_rollback hsaved]
  exact h

/-- **Isolation of concurrent writes.**  In every interleaving, from every state of the store, what a
write that answers that it has persisted has written is there once both writes are through, if it is
undisturbed. -/
theorem isolated {before : List KvCall} (hwrite : WriteShape key (some (a, now)) (project t sched))
    (hother : WriteShape otherKey o (project t.other sched)) (hne : key ≠ otherKey)
    (hundisturbed : Undisturbed t sched a now) (hkept : NotRewritten t sched a now otherKey) :
    Holds rt a now ((VerifiedKVStore.init.run rt before).run rt (sched.map Prod.snd)).db := by
  obtain ⟨rfl, p, q, hcalls, hq⟩ := exists_split_of_persisted hwrite
  obtain ⟨pre, post, hsched, -, hpost⟩ := exists_split hcalls
  have hown : ∀ c, (t, c) ∈ post → Harmless a c := fun c hc => harmless_own (hpost ▸ hq) hc
  have hothers : ∀ c, (t.other, c) ∈ post → c ≠ .rollbackSavepoint sagaTx → Harmless a c :=
    fun c hc => harmless_other hother hne hkept hsched hc
  have hharmless : ∀ part : List (Thread × KvCall), part ⊆ post →
      (t.other, .rollbackSavepoint sagaTx) ∉ part → ∀ c ∈ part.map Prod.snd, Harmless a c := by
    intro part hpart hroll c hc
    obtain ⟨⟨u, c⟩, hmem, rfl⟩ := List.mem_map.mp hc
    rcases Thread.eq_or_eq_other t u with rfl | rfl
    · exact hown c (hpart hmem)
    · exact hothers c (hpart hmem) fun hc => hroll (hc ▸ hmem)
  rw [hsched, List.map_append, List.map_cons]
  generalize hkv : (VerifiedKVStore.init.run rt before).run rt (pre.map Prod.snd) = kv
  have hset : Kept rt a now (kv.call rt (.setSync a now)).db := by
    rw [VerifiedKVStore.db_call (by nofun)]
    refine kept_setSync_self ?_ a now
    rw [← hkv]
    exact (growthOk_run (growthOk_run growthOk_init before) (pre.map Prod.snd)).numbered.1
  rw [run_append, hkv, VerifiedKVStore.run_cons]
  by_cases hroll : (t.other, .rollbackSavepoint sagaTx) ∈ post
  · obtain ⟨es, b, time, after, hrolled⟩ := exists_split_of_rollback hother (mem_project.mpr (by
      rw [hsched]
      exact List.mem_append_right _ (List.mem_cons_of_mem _ hroll)))
    obtain ⟨P, M, Q, hsplit, hP, hM, hQ⟩ := exists_split_split hrolled
    have hundone := hundisturbed P M Q hsplit
    have hrollQ : (t.other, .rollbackSavepoint sagaTx) ∉ Q := fun h =>
      rollback_notMem_setCalls after (hQ ▸ mem_project.mpr h)
    rw [hsched] at hsplit
    rcases split_cases (by simp) hsplit with ⟨mid, hmid, rfl⟩ | ⟨mid, -, hrest⟩
    · rcases split_cases (by simp) hmid.symm with ⟨mid', hP', rfl⟩ | ⟨mid', -, hM'⟩
      · -- the savepoint comes after the record, so that the snapshot has it
        have hrollmid : (t.other, .rollbackSavepoint sagaTx) ∉ mid' := by
          intro h
          refine rollback_notMem_setCalls es (?_ : KvCall.rollbackSavepoint sagaTx ∈ _)
          rw [← hP, mem_project, hP']
          exact List.mem_append_right _ (List.mem_cons_of_mem _ h)
        have hwrites : ∀ c ∈ M.map Prod.snd, ∃ b time, c = .setSync b time := by
          intro c hc
          obtain ⟨⟨u, c⟩, hmem, rfl⟩ := List.mem_map.mp hc
          rcases Thread.eq_or_eq_other t u with rfl | rfl
          · have hrelease : c = .releaseSavepoint sagaTx :=
              hq c (hpost ▸ mem_project.mpr (by simp [hmem]))
            exact absurd (hrelease ▸ hmem) hundone.2
          · have hc : c ∈ project t.other M := mem_project.mpr hmem
            rw [hM] at hc
            exact ⟨b, time, List.mem_singleton.mp hc⟩
        have hbefore := kept_run hset (hharmless mid' (fun c hc => by simp [hc]) hrollmid)
        have hrolled := kept_of_rolledBack hbefore hwrites
        have hafter := kept_run hrolled (hharmless Q (fun c hc => by simp [hc]) hrollQ)
        simpa [run_append, VerifiedKVStore.run_cons] using hafter.holds
      · refine absurd ?_ hundone.1
        rw [hM']
        exact List.mem_append_right _ List.mem_cons_self
    · refine absurd ?_ hrollQ
      rw [hrest]
      exact List.mem_append_right _ (List.mem_cons_of_mem _ hroll)
  · exact (kept_run hset (hharmless post (List.Subset.refl post) hroll)).holds

end Isolation

/-! ## A record that is lost -/

/-- What the first write persists, and a write next to it. -/
def keptArgs : SetArgs := { key := "user:a", value := .str "x" }

/-- A schedule in which the second write fails and rolls back, after the first is through. -/
def sequentialSchedule : List (Thread × KvCall) :=
  [(.first, .savepoint sagaTx), (.first, .setSync keptArgs 1), (.first, .releaseSavepoint sagaTx),
    (.second, .savepoint sagaTx), (.second, .setSync { keptArgs with key := "user:b" } 1),
    (.second, .rollbackSavepoint sagaTx)]

theorem isolated_sequentialSchedule :
    Holds Runtime.sample keptArgs 1 ((VerifiedKVStore.init.run Runtime.sample []).run Runtime.sample
      (sequentialSchedule.map Prod.snd)).db := by
  refine @isolated _ .first sequentialSchedule keptArgs 1 "user:a" "user:b" none []
    (.kept [] keptArgs 1 rfl) (.undone [] { keptArgs with key := "user:b" } 1 [] rfl) (by decide) ?_ ?_
  · have hsplit : sequentialSchedule = sequentialSchedule.take 3 ++ sequentialSchedule.drop 3 := rfl
    refine undisturbed_of_append hsplit ?_ ?_
    · simp [sequentialSchedule, Thread.other]
    · simp [sequentialSchedule]
  · intro pre post hsched b time hmem hne
    have hsecond : (Thread.second, KvCall.setSync b time) ∈ sequentialSchedule := by
      rw [hsched]
      exact List.mem_append_right _ (List.mem_cons_of_mem _ hmem)
    simp only [sequentialSchedule, List.mem_cons, Prod.mk.injEq, reduceCtorEq, false_and, true_and,
      KvCall.setSync.injEq, List.not_mem_nil, or_false, false_or] at hsecond
    exact absurd (congrArg SetArgs.key hsecond.1) hne

def keptWrite : WriteRequest Unit where
  key := .str "user:a"
  value := .str "x"

/-- The calls of the second write, with those of the first one after its savepoint. -/
def crossingSchedule : List (Thread × KvCall) :=
  let kept := writeCalls faultyWriteEnv emptyStores keptWrite (timesAt 1)
  let failing := writeCalls faultyWriteEnv emptyStores failingWrite (timesAt 1)
  steps .second (failing.take 1) ++ steps .first kept ++ steps .second (failing.drop 1)

/-- A record is lost: the first write answers that it has persisted, the second one raises, and once
both are through there is nothing under the key of the first one. -/
theorem isolation_lost : ∃ sched,
    project .first sched = writeCalls faultyWriteEnv emptyStores keptWrite (timesAt 1) ∧
    project .second sched = writeCalls faultyWriteEnv emptyStores failingWrite (timesAt 1) ∧
    (∃ resp, (write faultyWriteEnv emptyStores keptWrite (timesAt 1)).2 = .ok resp ∧
      resp.persisted = true) ∧
    (emptyStores.kv.run Runtime.sample (sched.map Prod.snd)).db.stateVariables.contains "user:a" =
      false := by
  have hwrite : (write faultyWriteEnv emptyStores keptWrite (timesAt 1)).2.toOption.any
      (fun resp => resp.persisted) = true := by decide
  refine ⟨crossingSchedule, ?_, ?_, ?_, by decide⟩
  · unfold crossingSchedule
    dsimp only
    rw [project_append, project_append, project_steps_self, project_steps_of_ne (by decide),
      project_steps_of_ne (by decide), List.nil_append, List.append_nil]
  · unfold crossingSchedule
    dsimp only
    rw [project_append, project_append, project_steps_self, project_steps_self,
      project_steps_of_ne (by decide), List.append_nil, List.take_append_drop]
  · cases hresp : (write faultyWriteEnv emptyStores keptWrite (timesAt 1)).2 with
    | error err =>
      rw [hresp] at hwrite
      cases hwrite
    | ok resp =>
      rw [hresp] at hwrite
      exact ⟨resp, rfl, hwrite⟩

end WritePath

end AtlasMemory
