import AtlasMemory.Cognitive.ConcurrentWrites
import AtlasMemory.Cognitive.WriteAtomicity

/-!
# The savepoint of a write

A write from its savepoint on, over a store whose calls may raise.  The handlers of the vector and
of the graph roll the savepoint back and a write that goes through releases it, but neither handler
covers the persisted write or the update of the buffer: an exception of these leaves the savepoint
open.  `balanced_iff` says when a write closes what it opens.

The connection is in autocommit mode, so that an exception inside `with conn:` closes no savepoint.
-/

namespace AtlasMemory

namespace WritePath

variable {ρ : Type} (env : WriteEnv ρ)

/-! ## A store that raises -/

/-- The statement of `rollback_savepoint` that raises. -/
inductive RollbackFault
  | rollbackTo
  | release

/-- What the store raises from the savepoint on.  A call of `set_sync` that raises leaves some of
what it has done in the tables. -/
structure KvFaults where
  savepoint : Bool := false
  setSync : SetArgs → Option (PyError × (Db → Db)) := fun _ => none
  rollback : Option RollbackFault := none
  release : Bool := false

/-- `set_sync`, and what it raises. -/
def setSyncUnder (faults : KvFaults) (kv : VerifiedKVStore) (args : SetArgs) (now : ℚ) :
    VerifiedKVStore × Option PyError :=
  match faults.setSync args with
  | some (err, left) => ({ kv with tables := kv.tables.modify left }, some err)
  | none =>
    (kv.call env.rt (.setSync args now),
      match (kv.db.setSync env.rt args now).2 with
      | .error err => some err
      | .ok _ => none)

/-- The block around `savepoint`, and `kv_savepoint_active` after it. -/
def openSavepoint (faults : KvFaults) (kv : VerifiedKVStore) : VerifiedKVStore × Bool :=
  if faults.savepoint then (kv, false) else (kv.call env.rt (.savepoint sagaTx), true)

/-- The block around `rollback_savepoint`, and `kv_savepoint_active` after it. -/
def rollbackSaved (faults : KvFaults) (kv : VerifiedKVStore) : VerifiedKVStore × Bool :=
  match faults.rollback with
  | none => (kv.call env.rt (.rollbackSavepoint sagaTx), !kv.hasSavepoint sagaTx)
  | some .rollbackTo => (kv, true)
  | some .release =>
    match kv.tables.rollbackTo (SqlText.lower sagaTx) with
    | some tables => ({ kv with tables := tables }, true)
    | none => (kv, true)

/-- The store after the rollback; without a savepoint the record of the key is put back, or deleted
when there was none. -/
def undoRecord (faults : KvFaults) (active : Bool) (kv : VerifiedKVStore) (a : Accepted)
    (reason : String) (now : ℚ) : VerifiedKVStore × Bool :=
  if active then rollbackSaved env faults kv
  else
    match a.items.get? a.key with
    | some m => ((setSyncUnder env faults kv (restoreArgs a.key m reason) now).1, false)
    | none => (kv.call env.rt (.deleteSync a.key now), false)

/-- `compensateVector`, over this store. -/
def compensateVectorUnder (faults : KvFaults) (active : Bool) (before s : Stores ρ) (a : Accepted)
    (now : ℚ) : Stores ρ :=
  let (kv, active) := undoRecord env faults active s.kv a "rollback_vector_failure" now
  { compensateVector env before s a now with
    kv := match a.backupOldItem with
      | some (k, m) =>
        if active then kv
        else (setSyncUnder env faults kv (restoreArgs k m "rollback_vector_failure") now).1
      | none => kv }

/-- `compensateGraph`, over this store. -/
def compensateGraphUnder (faults : KvFaults) (active : Bool) (before s : Stores ρ) (a : Accepted)
    (tracked : List Edge) (now : ℚ) : Stores ρ :=
  let (kv, _) := undoRecord env faults active s.kv a "rollback_graph_failure" now
  { compensateGraph env before s a tracked now with
    kv := match a.backupOldItem with
      | some (k, m) =>
        if k ≠ a.key then
          (setSyncUnder env faults kv (restoreArgs k m "rollback_restore") now).1
        else kv
      | none => kv }

/-- The block around `release_savepoint`. -/
def releaseSaved (faults : KvFaults) (active : Bool) (kv : VerifiedKVStore) : VerifiedKVStore :=
  if active && !faults.release then kv.call env.rt (.releaseSavepoint sagaTx) else kv

/-- `finish`, over this store. -/
def finishUnder (faults : KvFaults) (active : Bool) (before s : Stores ρ) (a : Accepted)
    (times : WriteTimes) : Stores ρ × Except PyError WriteResponse :=
  match (a.metadata.get? "source_type").getD (.str "user_explicit") with
  | .str sourceType =>
    let hot :=
      s.hot.update env.rt a.key a.value a.confidence a.metadata sourceType times.buffered
    let (graph, tracked, inserted) :=
      autoInsertGraphEdges env s.graph a.key a.value a.metadata a.confidence
    let linked := { s with hot := hot, graph := graph }
    match inserted with
    | .error err =>
      (compensateGraphUnder env faults active before linked a tracked times.restored, .error err)
    | .ok n =>
      ({ linked with kv := releaseSaved env faults active linked.kv }, .ok (okResponse a n))
  | _ => (s, .error ⟨.valueError, "1 validation error for HotBufferEntry"⟩)

/-- `persist`, over this store. -/
def persistUnder (faults : KvFaults) (before s : Stores ρ) (a : Accepted) (record : Option ρ)
    (times : WriteTimes) : Stores ρ × Except PyError WriteResponse :=
  let (kv, active) := openSavepoint env faults s.kv
  match setSyncUnder env faults kv (persistArgs a) times.persisted with
  | (kv, some err) => ({ s with kv := kv }, .error err)
  | (kv, none) =>
    let saved := { s with kv := kv }
    match record with
    | none => finishUnder env faults active before saved a times
    | some r =>
      let point := vectorPoint env a r
      match env.vectorFault point with
      | some err =>
        (compensateVectorUnder env faults active before saved a times.restored, .error err)
      | none =>
        let points := VectorStore.insert saved.vectors point.upsertKey point.text point.record
        finishUnder env faults active before { saved with vectors := points } a times

/-- What the stages before the savepoint pass on, if the write gets there. -/
def accepted? (s : Stores ρ) (req : WriteRequest ρ) (times : WriteTimes) : Option Accepted :=
  match normalizeWriteInput env req with
  | .error _ => none
  | .ok input =>
    if StoppedByGate env input ∨ TakenForReplay env s req input then none
    else
      match env.arbiter.arbitrate env.rt env.lex (incomingOf env req input)
          (arbitrated env s req input times) with
      | .error _ => none
      | .ok r =>
        if rejects r then none
        else
          (revisedBy env s req (incomingOf env req input) (existingItems env s input.key input.value
            (incomingOf env req input).metadata req.sessionId times.scanned) r times).2

/-- `write`, over a store that raises from the savepoint on. -/
def writeUnder (faults : KvFaults) (s : Stores ρ) (req : WriteRequest ρ) (times : WriteTimes) :
    Stores ρ × Except PyError WriteResponse :=
  match accepted? env s req times with
  | none => write env s req times
  | some a =>
    persistUnder env faults s (revisedStores env s a times.revised) a req.vectorRecord times

variable {env} {faults : KvFaults} {s : Stores ρ} {req : WriteRequest ρ} {times : WriteTimes}
  {a : Accepted}

lemma accepted?_eq_some : accepted? env s req times = some a ↔ Reaches env s req times a := by
  constructor
  · intro h
    unfold accepted? at h
    split at h
    · cases h
    · rename_i input hinput
      split_ifs at h with hstop
      obtain ⟨hgate, hreplay⟩ := not_or.mp hstop
      split at h
      · cases h
      · rename_i r hr
        split_ifs at h with hrejects
        exact ⟨input, r, hinput, hgate, hreplay, hr, Bool.eq_false_iff.mpr hrejects, h⟩
  · rintro ⟨input, r, hinput, hgate, hreplay, hr, hrejects, ha⟩
    unfold accepted?
    rw [hinput]
    dsimp only
    rw [if_neg (not_or.mpr ⟨hgate, hreplay⟩), hr]
    dsimp only
    rw [if_neg (by rw [hrejects]; decide)]
    exact ha

lemma setSyncUnder_of_ok {kv : VerifiedKVStore} {args : SetArgs} {now : ℚ} {hash : String}
    (hfault : faults.setSync args = none) (hset : (kv.db.setSync env.rt args now).2 = .ok hash) :
    setSyncUnder env faults kv args now = (kv.call env.rt (.setSync args now), none) := by
  unfold setSyncUnder
  rw [hfault, hset]

/-! ### Without faults -/

lemma fst_setSyncUnder_none (kv : VerifiedKVStore) (args : SetArgs) (now : ℚ) :
    (setSyncUnder env {} kv args now).1 = kv.call env.rt (.setSync args now) := rfl

lemma undoRecord_none (kv : VerifiedKVStore) (reason : String) (now : ℚ) :
    undoRecord env {} true kv a reason now =
      (kv.call env.rt (.rollbackSavepoint sagaTx), !kv.hasSavepoint sagaTx) := rfl

lemma compensateVectorUnder_none (before : Stores ρ) (now : ℚ) :
    compensateVectorUnder env {} true before s a now = compensateVector env before s a now := by
  unfold compensateVectorUnder compensateVector
  rw [undoRecord_none]
  cases a.backupOldItem with
  | none => rfl
  | some e =>
      dsimp only
      cases s.kv.hasSavepoint sagaTx with
      | false => rfl
      | true => rfl

lemma compensateGraphUnder_none (before : Stores ρ) (tracked : List Edge) (now : ℚ) :
    compensateGraphUnder env {} true before s a tracked now =
      compensateGraph env before s a tracked now := by
  unfold compensateGraphUnder compensateGraph
  rw [undoRecord_none]
  cases a.backupOldItem with
  | none => dsimp only
  | some e =>
      dsimp only
      rw [fst_setSyncUnder_none]

lemma finishUnder_none (before : Stores ρ) :
    finishUnder env {} true before s a times = finish env before s a times := by
  unfold finishUnder finish
  cases (a.metadata.get? "source_type").getD (.str "user_explicit") with
  | str sourceType =>
      dsimp only
      cases (autoInsertGraphEdges env s.graph a.key a.value a.metadata a.confidence).2.2 with
      | error err => rw [compensateGraphUnder_none]
      | ok n => rfl
  | _ => rfl

/-- Without faults the write is the one of the model. -/
theorem writeUnder_none (hset : ∀ a, Reaches env s req times a → ∃ hash,
    ((revisedStores env s a times.revised).kv.db.setSync env.rt (persistArgs a)
      times.persisted).2 = .ok hash) :
    writeUnder env {} s req times = write env s req times := by
  unfold writeUnder
  cases hreach : accepted? env s req times with
  | none => rfl
  | some a =>
      have ha : Reaches env s req times a := accepted?_eq_some.mp hreach
      obtain ⟨hash, hhash⟩ := hset a ha
      have hreturns : setSyncUnder env {} ((revisedStores env s a times.revised).kv.call env.rt
          (.savepoint sagaTx)) (persistArgs a) times.persisted =
            (savedKv env (revisedStores env s a times.revised).kv a times, none) :=
        setSyncUnder_of_ok rfl hhash
      have hopen : openSavepoint env {} (revisedStores env s a times.revised).kv =
          ((revisedStores env s a times.revised).kv.call env.rt (.savepoint sagaTx), true) := rfl
      rw [write_of_reaches ha]
      dsimp only
      unfold persistUnder persist
      rw [hopen]
      dsimp only
      rw [hreturns]
      dsimp only
      cases req.vectorRecord with
      | none => exact finishUnder_none s
      | some record =>
          dsimp only
          cases env.vectorFault (vectorPoint env a record) with
          | none => exact finishUnder_none s
          | some err =>
              dsimp only
              rw [compensateVectorUnder_none]
              rfl

/-! ## The open savepoints

Below, `rest` is what was open before the write, and its own savepoint is on top of that while it is
active. -/

/-- What is open when the savepoint of the write is active, or is not. -/
def openedOn (active : Bool) (db : Db) (rest : List (String × Db)) : List (String × Db) :=
  if active then (sagaTx, db) :: rest else rest

section Depth

variable {kv : VerifiedKVStore} {active : Bool} {db : Db} {rest : List (String × Db)}

lemma saved_setSyncUnder (args : SetArgs) (now : ℚ) :
    (setSyncUnder env faults kv args now).1.tables.saved = kv.tables.saved := by
  unfold setSyncUnder
  cases faults.setSync args <;> rfl

lemma saved_openSavepoint : (openSavepoint env faults kv).1.tables.saved =
    openedOn (openSavepoint env faults kv).2 kv.db kv.tables.saved := by
  unfold openSavepoint openedOn
  by_cases hfault : faults.savepoint = true
  · rw [if_pos hfault]
    rfl
  · rw [if_neg hfault]
    exact @saved_savepoint env.rt kv

lemma saved_rollbackSaved (h : kv.tables.saved = (sagaTx, db) :: rest) :
    (rollbackSaved env faults kv).1.tables.saved = openedOn (!faults.rollback.isNone) db rest := by
  have hback : kv.tables.rollbackTo (SqlText.lower sagaTx) = some ⟨db, (sagaTx, db) :: rest⟩ := by
    rw [lower_sagaTx]
    simp [SavepointStack.rollbackTo, SavepointStack.innermost, h]
  have hrelease : SavepointStack.release (ν := String) ⟨db, (sagaTx, db) :: rest⟩
      (SqlText.lower sagaTx) = some ⟨db, rest⟩ := by
    rw [lower_sagaTx]
    simp [SavepointStack.release, SavepointStack.innermost]
  unfold rollbackSaved openedOn
  cases faults.rollback with
  | none =>
      show (kv.rollbackSavepoint sagaTx).tables.saved = rest
      unfold VerifiedKVStore.rollbackSavepoint
      rw [hback, Option.bind_some, hrelease]
      dsimp only
      split
      · rfl
      · rfl
  | some fault =>
      cases fault with
      | rollbackTo => exact h
      | release =>
          dsimp only
          rw [hback]
          rfl

/-- **A compensation** closes the savepoint, unless the rollback raises. -/
lemma saved_undoRecord (h : kv.tables.saved = openedOn active db rest) (reason : String)
    (now : ℚ) :
    (undoRecord env faults active kv a reason now).1.tables.saved =
      openedOn (active && !faults.rollback.isNone) db rest := by
  unfold undoRecord
  cases active with
  | true => exact saved_rollbackSaved h
  | false =>
      rw [if_neg (by decide)]
      split
      · exact (saved_setSyncUnder _ now).trans h
      · exact h

lemma saved_compensateVectorUnder {before : Stores ρ}
    (h : s.kv.tables.saved = openedOn active db rest) (now : ℚ) :
    (compensateVectorUnder env faults active before s a now).kv.tables.saved =
      openedOn (active && !faults.rollback.isNone) db rest := by
  have hundo := @saved_undoRecord _ env faults a s.kv active db rest h "rollback_vector_failure" now
  unfold compensateVectorUnder
  dsimp only
  split
  · split_ifs
    · exact hundo
    · exact (saved_setSyncUnder _ now).trans hundo
  · exact hundo

lemma saved_compensateGraphUnder {before : Stores ρ} {tracked : List Edge}
    (h : s.kv.tables.saved = openedOn active db rest) (now : ℚ) :
    (compensateGraphUnder env faults active before s a tracked now).kv.tables.saved =
      openedOn (active && !faults.rollback.isNone) db rest := by
  have hundo := @saved_undoRecord _ env faults a s.kv active db rest h "rollback_graph_failure" now
  unfold compensateGraphUnder
  dsimp only
  split
  · split_ifs
    · exact (saved_setSyncUnder _ now).trans hundo
    · exact hundo
  · exact hundo

lemma saved_releaseSaved (h : kv.tables.saved = openedOn active db rest) :
    (releaseSaved env faults active kv).tables.saved =
      openedOn (active && faults.release) db rest := by
  unfold releaseSaved
  cases active with
  | false => exact h
  | true =>
      cases faults.release with
      | true => exact h
      | false =>
          have hrelease : kv.tables.release (SqlText.lower sagaTx) = some ⟨kv.db, rest⟩ := by
            rw [lower_sagaTx]
            simp [SavepointStack.release, SavepointStack.innermost, openedOn, h,
              VerifiedKVStore.db]
          show (kv.releaseSavepoint sagaTx).tables.saved = rest
          unfold VerifiedKVStore.releaseSavepoint
          rw [hrelease]

end Depth

/-! ## When the write closes what it opens -/

/-- From the buffer on the savepoint is closed: the buffer takes the entry, and the rollback after a
relation that raises, or the release, returns. -/
def closesAfterVector (env : WriteEnv ρ) (faults : KvFaults) (s : Stores ρ) (a : Accepted) : Bool :=
  match (a.metadata.get? "source_type").getD (.str "user_explicit") with
  | .str _ =>
    match (inserted env s a).2.2 with
    | .error _ => faults.rollback.isNone
    | .ok _ => !faults.release
  | _ => false

/-- `set_sync` of the record returns. -/
def recordReturns (env : WriteEnv ρ) (faults : KvFaults) (s : Stores ρ) (a : Accepted)
    (times : WriteTimes) : Bool :=
  (faults.setSync (persistArgs a)).isNone &&
    match ((revisedStores env s a times.revised).kv.db.setSync env.rt (persistArgs a)
        times.persisted).2 with
    | .error _ => false
    | .ok _ => true

/-- A savepoint that is set is closed: the record is written, and the rollback after a vector that
raises returns. -/
def closesSavepoint (env : WriteEnv ρ) (faults : KvFaults) (s : Stores ρ) (req : WriteRequest ρ)
    (a : Accepted) (times : WriteTimes) : Bool :=
  recordReturns env faults s a times &&
    match req.vectorRecord.bind fun record => env.vectorFault (vectorPoint env a record) with
    | some _ => faults.rollback.isNone
    | none => closesAfterVector env faults s a

section Balance

variable {active : Bool} {db : Db} {rest : List (String × Db)}

lemma saved_finishUnder {before opened : Stores ρ}
    (h : opened.kv.tables.saved = openedOn active db rest)
    (hgraph : opened.graph = s.graph.addAll a.confidence (wiredEdges env a)) :
    (finishUnder env faults active before opened a times).1.kv.tables.saved =
      openedOn (active && !closesAfterVector env faults s a) db rest := by
  unfold finishUnder closesAfterVector inserted
  rw [hgraph]
  cases (a.metadata.get? "source_type").getD (.str "user_explicit") with
  | str sourceType =>
      dsimp only
      cases (autoInsertGraphEdges env (s.graph.addAll a.confidence (wiredEdges env a)) a.key a.value
          a.metadata a.confidence).2.2 with
      | error err =>
          exact @saved_compensateGraphUnder _ env faults { opened with hot := _, graph := _ } a
            active db rest before (autoInsertGraphEdges env (s.graph.addAll a.confidence
              (wiredEdges env a)) a.key a.value a.metadata a.confidence).2.1 h times.restored
      | ok n =>
          dsimp only
          rw [Bool.not_not]
          exact saved_releaseSaved h
  | _ =>
      show opened.kv.tables.saved = _
      rw [Bool.not_false, Bool.and_true]
      exact h

/-- **From the savepoint on**, what is open at the end. -/
lemma saved_persistUnder :
    (persistUnder env faults s (revisedStores env s a times.revised) a req.vectorRecord
      times).1.kv.tables.saved =
        openedOn (!faults.savepoint && !closesSavepoint env faults s req a times)
          (revisedStores env s a times.revised).kv.db
          (revisedStores env s a times.revised).kv.tables.saved := by
  generalize hstores : revisedStores env s a times.revised = opened
  have hgraph : opened.graph = s.graph.addAll a.confidence (wiredEdges env a) := by
    rw [← hstores]
    rfl
  have hopen := @saved_openSavepoint _ env faults opened.kv
  have hactive : (openSavepoint env faults opened.kv).2 = !faults.savepoint := by
    unfold openSavepoint
    cases faults.savepoint <;> rfl
  have hdb : (openSavepoint env faults opened.kv).1.db = opened.kv.db := by
    unfold openSavepoint
    cases faults.savepoint <;> rfl
  rw [hactive] at hopen
  have hset := (@saved_setSyncUnder _ env faults (openSavepoint env faults opened.kv).1
    (persistArgs a) times.persisted).trans hopen
  have hreturns : (setSyncUnder env faults (openSavepoint env faults opened.kv).1 (persistArgs a)
      times.persisted).2.isNone = recordReturns env faults s a times := by
    unfold setSyncUnder recordReturns
    rw [hdb, hstores]
    cases faults.setSync (persistArgs a) with
    | some fault => rfl
    | none =>
        dsimp only
        cases (opened.kv.db.setSync env.rt (persistArgs a) times.persisted).2 <;> rfl
  unfold persistUnder closesSavepoint
  dsimp only
  rw [hactive, ← hreturns]
  generalize setSyncUnder env faults (openSavepoint env faults opened.kv).1 (persistArgs a)
    times.persisted = result at hset
  obtain ⟨kv, fault⟩ := result
  cases fault with
  | some err =>
      show kv.tables.saved = openedOn (!faults.savepoint && true) _ _
      rw [Bool.and_true]
      exact hset
  | none =>
      rw [Option.isNone_none, Bool.true_and]
      cases req.vectorRecord with
      | none => exact saved_finishUnder hset hgraph
      | some record =>
          dsimp only [Option.bind_some]
          cases env.vectorFault (vectorPoint env a record) with
          | some err => exact saved_compensateVectorUnder hset times.restored
          | none => exact saved_finishUnder hset hgraph

lemma saved_run_setCalls (kv : VerifiedKVStore) (es : List (SetArgs × ℚ)) :
    (kv.run env.rt (setCalls es)).tables.saved = kv.tables.saved := by
  refine saved_run_setSync fun c hc => ?_
  obtain ⟨e, -, rfl⟩ := List.mem_map.mp hc
  exact ⟨e.1, e.2, rfl⟩

lemma saved_revisedStores (now : ℚ) :
    (revisedStores env s a now).kv.tables.saved = s.kv.tables.saved := by
  obtain ⟨es, hes⟩ := @exists_setCalls_revisionCalls _ env s a.items a.key now a.oldKey
  show (s.kv.run env.rt (revisionCalls env s a.items a.key now a.oldKey)).tables.saved = _
  rw [hes]
  exact saved_run_setCalls s.kv es

/-- A write that does not get to its savepoint leaves the savepoints alone. -/
lemma saved_write_of_not_reaches (h : accepted? env s req times = none) :
    (write env s req times).1.kv.tables.saved = s.kv.tables.saved := by
  have hcalls : ∃ es, writeCalls env s req times = setCalls es := by
    unfold accepted? at h
    unfold writeCalls
    cases hinput : normalizeWriteInput env req with
    | error err => exact ⟨[], rfl⟩
    | ok input =>
        rw [hinput] at h
        dsimp only at h ⊢
        split_ifs with hgate hreplay
        · exact ⟨[], rfl⟩
        · exact ⟨[(_, _)], rfl⟩
        · rw [if_neg (not_or.mpr ⟨hgate, hreplay⟩)] at h
          unfold arbitrated at h
          unfold arbitratedCalls
          dsimp only
          have hkey : (incomingOf env req input).key = input.key := rfl
          have hval : (incomingOf env req input).val = input.value := rfl
          rw [hkey, hval]
          cases harb : env.arbiter.arbitrate env.rt env.lex (incomingOf env req input)
              (arbiterItems (existingItems env s input.key input.value
                (incomingOf env req input).metadata req.sessionId times.scanned)) with
          | error err => exact ⟨[], rfl⟩
          | ok r =>
              rw [harb] at h
              dsimp only at h ⊢
              split_ifs with hrejects
              · exact ⟨[], rfl⟩
              · rw [if_neg hrejects] at h
                rw [h, List.append_nil]
                exact exists_setCalls_revisionCalls _ _ _ _
  obtain ⟨es, hes⟩ := hcalls
  rw [kv_write, hes]
  exact saved_run_setCalls s.kv es

/-- **A write leaves as many savepoints open as it found**, just when the savepoint that it sets, if
it gets there and sets one, is closed. -/
theorem balanced_iff :
    (writeUnder env faults s req times).1.kv.tables.saved.length = s.kv.tables.saved.length ↔
      ∀ a, Reaches env s req times a → faults.savepoint = false →
        closesSavepoint env faults s req a times = true := by
  unfold writeUnder
  cases hreach : accepted? env s req times with
  | none =>
      dsimp only
      rw [saved_write_of_not_reaches hreach]
      refine ⟨fun _ a ha => ?_, fun _ => rfl⟩
      rw [accepted?_eq_some.mpr ha] at hreach
      cases hreach
  | some a =>
      dsimp only
      rw [saved_persistUnder, saved_revisedStores]
      have hlength : ∀ closed : Bool, (openedOn (!faults.savepoint && !closed)
          (revisedStores env s a times.revised).kv.db s.kv.tables.saved).length =
            s.kv.tables.saved.length ↔ (faults.savepoint = false → closed = true) := by
        intro closed
        unfold openedOn
        cases faults.savepoint <;> cases closed <;> simp
      refine (hlength _).trans ⟨fun h a' ha' => ?_, fun h => h a (accepted?_eq_some.mp hreach)⟩
      obtain rfl : a' = a := Option.some.inj ((accepted?_eq_some.mpr ha').symm.trans hreach)
      exact h

end Balance

/-- A write whose source type is no text, over stores in which nothing raises. -/
def mistypedWrite : WriteRequest Unit where
  key := .str "user:b"
  value := .str "y"
  metadata := some (PyDict.ofEntries [("source_type", .number (.ofInt 5))])

/-- The entry of the buffer cannot be built, and the savepoint stays open. -/
theorem savepoint_left : (writeUnder sampleWriteEnv {} emptyStores mistypedWrite
    (timesAt 1)).1.kv.tables.saved.length ≠ emptyStores.kv.tables.saved.length := by
  decide

end WritePath

end AtlasMemory
