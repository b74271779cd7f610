import AtlasMemory.Cognitive.ConcurrentWrites
import AtlasMemory.L3Procedural.SleepCycle
import AtlasMemory.Server.MemoryController
import AtlasMemory.Sync.Bridge

/-!
# Which operations remove a protected record

The operations of the daemon that reach a deletion of a record: the delete request, the application
of a remote delta, over the store alone or through the write path, and the sleep cycle.  The
request and the salience collection ask the delete guard.  The deletions of a remote delta and the
prune loop of the auditor do not, so that a protected record is removed by a peer, or forgotten.

The condition of the main result names these two branches: a delta may not delete a protected
record that is there and that the potential gate does not keep, and no protected record of the
auditor's snapshot may be due for pruning.
-/

namespace AtlasMemory

variable {ρ : Type}

/-! ## A remote delta through the write path -/

namespace StateSyncBridge

/-- The write of a mutation that is no deletion. -/
def writeRequest (rt : Runtime) (sourceNode : String) (vectorRecord : Mutation → Option ρ)
    (m : Mutation) : WriteRequest ρ where
  key := .str m.appliedKey
  value := m.decodedValue
  confidence := m.incomingConfidence
  metadata := some (replicaMetadata rt sourceNode m.appliedKey (rt.pyStr m.decodedValue)
    (m.incomingPrecision rt))
  sourceType := some "peer_replication"
  reason := "sync_from_" ++ sourceNode
  vectorRecord := vectorRecord m

/-- One round of the mutation loop over the stores of a write path; an exception of the write
leaves the loop. -/
def applyMutationThrough (env : WriteEnv ρ) (vectorRecord : Mutation → Option ρ)
    (sourceNode : String) (s : Stores ρ) (m : Mutation) (times : WriteTimes) :
    Stores ρ × Except PyError Unit :=
  if m.appliedKey = "" then (s, .ok ())
  else if gateRejects env.rt (s.kv.db.stateVariables.getState env.rt m.appliedKey) m then
    (s, .ok ())
  else if m.isDeleted then
    ({ s with
        kv := s.kv.call env.rt (.deleteSync m.appliedKey times.persisted)
        vectors := VectorStore.deleteAll s.vectors ["kv:" ++ m.appliedKey, m.appliedKey] }, .ok ())
  else
    let written := WritePath.write env s (writeRequest env.rt sourceNode vectorRecord m) times
    (written.1, written.2.map fun _ => ())

/-- The mutation loop over the stores of a write path. -/
def applyMutationsThrough (env : WriteEnv ρ) (vectorRecord : Mutation → Option ρ)
    (sourceNode : String) (s : Stores ρ) :
    List Mutation → (ℕ → WriteTimes) → Stores ρ × Except PyError Unit
  | [], _ => (s, .ok ())
  | m :: ms, times =>
    match applyMutationThrough env vectorRecord sourceNode s m (times 0) with
    | (s, .error err) => (s, .error err)
    | (s, .ok ()) =>
      applyMutationsThrough env vectorRecord sourceNode s ms fun i => times (i + 1)

end StateSyncBridge

/-! ## The daemon -/

/-- The daemon: its stores, and the bridge's name and clock. -/
structure Daemon (ρ : Type) where
  stores : Stores ρ
  nodeId : String
  clock : CompactVectorClock

/-- How a daemon is set up. -/
structure DaemonConfig (ρ : Type) where
  env : WriteEnv ρ
  engine : SalienceDecayEngine
  vectorBackend : VectorBackend (List (VectorPoint ρ))
  /-- The bridge has a write path. -/
  bridgeWritePath : Bool
  /-- The record that a remote value is indexed with. -/
  vectorRecord : Mutation → Option ρ

/-- An operation of the daemon that may delete. -/
inductive DaemonOp
  /-- The delete request. -/
  | delete (key : String) (now : ℚ)
  /-- The application of a remote delta. -/
  | applyDelta (delta : Delta) (times : ℕ → WriteTimes)
  /-- A sleep cycle. -/
  | sleepCycle (args : SleepCycleArgs)

namespace Daemon

variable (cfg : DaemonConfig ρ)

def bridge (d : Daemon ρ) : StateSyncBridge := ⟨d.stores.kv, d.nodeId, d.clock⟩

def applyDelta (d : Daemon ρ) (delta : Delta) (times : ℕ → WriteTimes) : Daemon ρ :=
  if cfg.bridgeWritePath then
    if d.bridge.rejectsAsStale delta then d
    else
      match StateSyncBridge.applyMutationsThrough cfg.env cfg.vectorRecord delta.sourceNode d.stores
          delta.mutations times with
      | (stores, .error _) => { d with stores }
      | (stores, .ok ()) =>
        { d with
          stores
          clock := match StateSyncBridge.peerClock delta with
            | some peer => d.clock.receive peer d.nodeId
            | none => d.clock }
  else
    let (b, _) := d.bridge.applyRemoteDelta cfg.env.rt delta fun i => (times i).persisted
    { d with stores := { d.stores with kv := b.kv }, clock := b.clock }

def step (d : Daemon ρ) : DaemonOp → Daemon ρ
  | .delete key now =>
    let (kv, vectors, _) := MemoryController.handleDelete cfg.env.rt cfg.vectorBackend
      cfg.env.rawText key now d.stores.kv d.stores.vectors
    { d with stores := { d.stores with kv, vectors } }
  | .applyDelta delta times => d.applyDelta cfg delta times
  | .sleepCycle args =>
    { d with stores := { d.stores with
        kv := runSleepCycleConsolidation cfg.env.rt cfg.engine args d.stores.kv } }

/-- The daemon after a sequence of operations. -/
def run (d : Daemon ρ) (ops : List DaemonOp) : Daemon ρ := ops.foldl (step cfg) d

end Daemon

/-! ## What keeps the protected records -/

namespace VerifiedKVStore

/-- The store has a record under the key. -/
def Has (kv : VerifiedKVStore) (key : String) : Prop :=
  kv.db.stateVariables.contains key = true

/-- From one store to the other no protected record is lost. -/
def KeepsProtected (kv kv' : VerifiedKVStore) : Prop :=
  ∀ key, DeleteGuard.Protects key → kv.Has key → kv'.Has key

variable {rt : Runtime} {kv kv' kv'' : VerifiedKVStore}

lemma KeepsProtected.refl (kv : VerifiedKVStore) : KeepsProtected kv kv := fun _ _ h => h

lemma KeepsProtected.trans (h : KeepsProtected kv kv') (h' : KeepsProtected kv' kv'') :
    KeepsProtected kv kv'' :=
  fun key hkey hhas => h' key hkey (h key hkey hhas)

lemma has_iff (kv : VerifiedKVStore) (key : String) :
    kv.Has key ↔ (kv.db.stateVariables.get? key).isSome = true := Iff.rfl

lemma has_setSync {key : String} (h : kv.Has key) (a : SetArgs) (now : ℚ) :
    (kv.call rt (.setSync a now)).Has key := by
  rw [has_iff, db_call (fun _ => by simp)]
  show (((kv.db.setSync rt a now).1).stateVariables.get? key).isSome = true
  rw [WritePath.get?_setSync]
  split_ifs
  · rfl
  · exact h

lemma has_run_setCalls {key : String} (h : kv.Has key) (es : List (SetArgs × ℚ)) :
    (kv.run rt (WritePath.setCalls es)).Has key := by
  induction es generalizing kv with
  | nil => exact h
  | cons e es ih => exact ih (has_setSync h e.1 e.2)

lemma has_deleteSync_of_ne {key key' : String} (hne : key' ≠ key) (h : kv.Has key) (now : ℚ) :
    (kv.call rt (.deleteSync key' now)).Has key := by
  rw [has_iff, db_call (fun _ => by simp)]
  show (((kv.db.deleteSync rt key' now).1).stateVariables.get? key).isSome = true
  rw [Db.stateVariables_deleteSync, PyDict.get?_erase, if_neg hne]
  exact h

/-- A deletion keeps the protected records unless its key is the one of such a record. -/
lemma keepsProtected_deleteSync {key : String} (h : DeleteGuard.Protects key → ¬kv.Has key)
    (now : ℚ) : KeepsProtected kv (kv.call rt (.deleteSync key now)) := by
  intro key' hkey' hhas
  refine has_deleteSync_of_ne ?_ hhas now
  rintro rfl
  exact h hkey' hhas

/-- The calls of a write leave every record in its place: what a rollback takes back was not there
before the savepoint of the write. -/
lemma has_run_of_shape {key key' : String} {o : Option (SetArgs × ℚ)} {calls : List KvCall}
    (h : WritePath.WriteShape key' o calls) (hhas : kv.Has key) : (kv.run rt calls).Has key := by
  have hsaved (before : List (SetArgs × ℚ)) (a : SetArgs) (now : ℚ) :
      (((kv.run rt (WritePath.setCalls before)).call rt (.savepoint WritePath.sagaTx)).call rt
        (.setSync a now)).Has key := by
    apply has_setSync
    rw [has_iff, db_call (fun _ => by simp)]
    exact has_run_setCalls hhas before
  cases h with
  | stopped before => exact has_run_setCalls hhas before
  | replay a now _ => exact has_setSync hhas a now
  | left before a now _ =>
      rw [WritePath.run_append]
      exact hsaved before a now
  | kept before a now _ =>
      rw [WritePath.run_append, run_cons, run_cons, run_cons, has_iff]
      show ((VerifiedKVStore.call rt _ _).db.stateVariables.get? key).isSome = true
      rw [db_call (fun _ => by simp)]
      exact hsaved before a now
  | undone before a now after _ =>
      rw [WritePath.run_append]
      show (VerifiedKVStore.run rt _ (WritePath.setCalls after)).Has key
      refine has_run_setCalls ?_ after
      set kv₁ := kv.run rt (WritePath.setCalls before) with hkv₁
      have hopened : ((kv₁.call rt (.savepoint WritePath.sagaTx)).call rt
          (.setSync a now)).tables.saved = (WritePath.sagaTx, kv₁.db) :: kv₁.tables.saved :=
        @WritePath.saved_savepoint rt kv₁
      rw [has_iff, WritePath.db_rollback hopened]
      exact has_run_setCalls hhas before

end VerifiedKVStore

namespace WritePath

lemma has_write (env : WriteEnv ρ) (s : Stores ρ) (req : WriteRequest ρ) (times : WriteTimes)
    {key : String} (h : s.kv.Has key) : (write env s req times).1.kv.Has key := by
  rw [kv_write]
  cases hinput : normalizeWriteInput env req with
  | error err =>
    have hnone : writeCalls env s req times = [] := by
      unfold writeCalls
      rw [hinput]
    rw [hnone]
    exact h
  | ok input =>
    obtain ⟨o, hshape⟩ := @writeShape_writeCalls _ env s times req input hinput
    exact VerifiedKVStore.has_run_of_shape hshape h

end WritePath

/-! ## The deletions of a remote delta -/

namespace StateSyncBridge

open VerifiedKVStore

/-- The mutation deletes a protected record that is there and that the potential gate does not
keep. -/
def DeletesProtected (rt : Runtime) (kv : VerifiedKVStore) (m : Mutation) : Prop :=
  m.isDeleted = true ∧ DeleteGuard.Protects m.appliedKey ∧ kv.Has m.appliedKey ∧
    gateRejects rt (kv.db.stateVariables.getState rt m.appliedKey) m = false

/-- No mutation of the loop deletes a protected record when its turn comes. -/
def Spares (rt : Runtime) (sourceNode : String) (kv : VerifiedKVStore) :
    List Mutation → (ℕ → ℚ) → Prop
  | [], _ => True
  | m :: ms, times => ¬DeletesProtected rt kv m ∧
    Spares rt sourceNode (applyMutation rt sourceNode kv m (times 0)).1 ms fun i => times (i + 1)

/-- The same for the loop over the stores of a write path, up to an exception. -/
def SparesThrough (env : WriteEnv ρ) (vectorRecord : Mutation → Option ρ) (sourceNode : String)
    (s : Stores ρ) : List Mutation → (ℕ → WriteTimes) → Prop
  | [], _ => True
  | m :: ms, times => ¬DeletesProtected env.rt s.kv m ∧
    ((applyMutationThrough env vectorRecord sourceNode s m (times 0)).2 = .ok () →
      SparesThrough env vectorRecord sourceNode
        (applyMutationThrough env vectorRecord sourceNode s m (times 0)).1 ms
        fun i => times (i + 1))

lemma keepsProtected_applyMutation {rt : Runtime} {sourceNode : String} {kv : VerifiedKVStore}
    {m : Mutation} (h : ¬DeletesProtected rt kv m) (now : ℚ) :
    KeepsProtected kv (applyMutation rt sourceNode kv m now).1 := by
  unfold applyMutation
  split_ifs with hempty hgate hdeleted
  · exact .refl kv
  · exact .refl kv
  · refine keepsProtected_deleteSync (fun hprotects hhas => h ?_) now
    exact ⟨hdeleted, hprotects, hhas, Bool.not_eq_true _ ▸ hgate⟩
  · exact fun key _ hhas => has_setSync hhas _ now

lemma keepsProtected_applyMutations {rt : Runtime} {sourceNode : String} {kv : VerifiedKVStore}
    {ms : List Mutation} {times : ℕ → ℚ} (h : Spares rt sourceNode kv ms times) :
    KeepsProtected kv (applyMutations rt sourceNode kv ms times).1 := by
  induction ms generalizing kv times with
  | nil => exact .refl kv
  | cons m ms ih =>
    rw [fst_applyMutations_cons]
    exact (keepsProtected_applyMutation h.1 (times 0)).trans (ih h.2)

lemma keepsProtected_applyMutationThrough {env : WriteEnv ρ} {vectorRecord : Mutation → Option ρ}
    {sourceNode : String} {s : Stores ρ} {m : Mutation} (h : ¬DeletesProtected env.rt s.kv m)
    (times : WriteTimes) :
    KeepsProtected s.kv (applyMutationThrough env vectorRecord sourceNode s m times).1.kv := by
  unfold applyMutationThrough
  split_ifs with hempty hgate hdeleted
  · exact .refl s.kv
  · exact .refl s.kv
  · refine keepsProtected_deleteSync (fun hprotects hhas => h ?_) times.persisted
    exact ⟨hdeleted, hprotects, hhas, Bool.not_eq_true _ ▸ hgate⟩
  · intro key _ hhas
    dsimp only
    exact WritePath.has_write env s (writeRequest env.rt sourceNode vectorRecord m) times hhas

lemma keepsProtected_applyMutationsThrough {env : WriteEnv ρ}
    {vectorRecord : Mutation → Option ρ} {sourceNode : String} {s : Stores ρ} {ms : List Mutation}
    {times : ℕ → WriteTimes} (h : SparesThrough env vectorRecord sourceNode s ms times) :
    KeepsProtected s.kv (applyMutationsThrough env vectorRecord sourceNode s ms times).1.kv := by
  induction ms generalizing s times with
  | nil => exact .refl s.kv
  | cons m ms ih =>
    have hround := @keepsProtected_applyMutationThrough _ env vectorRecord sourceNode s m h.1
      (times 0)
    rcases hstep : applyMutationThrough env vectorRecord sourceNode s m (times 0) with
      ⟨s₁, err | ⟨⟩⟩
    · simp only [hstep] at hround
      simpa only [applyMutationsThrough, hstep] using hround
    · have hrest := h.2 (by rw [hstep])
      simp only [hstep] at hround hrest
      simpa only [applyMutationsThrough, hstep] using hround.trans (ih hrest)

end StateSyncBridge

/-! ## The loops of the sleep cycle -/

open VerifiedKVStore

/-- The prune loop keeps the protected records that are not due. -/
lemma keepsProtected_pruneLoop {rt : Runtime} {engine : SalienceDecayEngine}
    {pruneNow deleteNow : String → ℚ} {kv : VerifiedKVStore} {es : List (String × StateRow)}
    (h : ∀ e ∈ es, DeleteGuard.Protects e.1 →
      MemoryAuditor.shouldPrune rt engine e (pruneNow e.1) = false) :
    KeepsProtected kv (MemoryAuditor.pruneLoop rt engine pruneNow deleteNow kv es) := by
  induction es generalizing kv with
  | nil => exact .refl kv
  | cons e es ih =>
    have hrest (kv : VerifiedKVStore) :
        KeepsProtected kv (MemoryAuditor.pruneLoop rt engine pruneNow deleteNow kv es) :=
      ih fun e' he' => h e' (List.mem_cons_of_mem _ he')
    unfold MemoryAuditor.pruneLoop
    split
    · next hdue =>
      refine (keepsProtected_deleteSync (fun hprotects _ => ?_) _).trans (hrest _)
      rw [h e List.mem_cons_self hprotects] at hdue
      exact absurd hdue Bool.false_ne_true
    · exact hrest kv

lemma not_protects_of_isGcEligible {rt : Runtime} {gcFloor : ℚ} {e : String × StateRow}
    (h : DeclarativeConsolidator.isGcEligible rt gcFloor e = true) :
    ¬DeleteGuard.Protects e.1 := by
  rintro hprotects
  obtain ⟨pre, hpre, hstarts⟩ := (DeleteGuard.protects_iff e.1).mp hprotects
  have hany : (DeclarativeConsolidator.gcProtectedPrefixes ++
      DeclarativeConsolidator.controlPrefixes).any (PyString.startsWith e.1) = true :=
    List.any_eq_true.mpr ⟨pre, List.mem_append_left _ (List.mem_append_left _ hpre), hstarts⟩
  simp [DeclarativeConsolidator.isGcEligible, hany] at h

lemma keepsProtected_salienceGc (rt : Runtime) (gcFloor : ℚ) (now : String → ℚ)
    (kv : VerifiedKVStore) (es : List (String × StateRow)) :
    KeepsProtected kv (DeclarativeConsolidator.salienceGc rt gcFloor now kv es) := by
  induction es generalizing kv with
  | nil => exact .refl kv
  | cons e es ih =>
    unfold DeclarativeConsolidator.salienceGc
    split
    · next heligible =>
      have hdelete : KeepsProtected kv (kv.call rt (.deleteSync e.1 (now e.1))) :=
        keepsProtected_deleteSync
          (fun hprotects => absurd hprotects (not_protects_of_isGcEligible heligible)) _
      split
      · exact hdelete
      · exact hdelete.trans (ih _)
    · exact ih kv

/-- No protected record of the auditor's snapshot is due for pruning. -/
def SleepCycleArgs.Spares (rt : Runtime) (engine : SalienceDecayEngine) (a : SleepCycleArgs)
    (t : StateTable) : Prop :=
  a.touchedKeys = some [] ∨ ∀ e ∈ a.analyzed t, DeleteGuard.Protects e.1 →
    MemoryAuditor.shouldPrune rt engine e (a.pruneNow e.1) = false

lemma keepsProtected_sleepCycle {rt : Runtime} {engine : SalienceDecayEngine} {a : SleepCycleArgs}
    {kv : VerifiedKVStore} (h : a.Spares rt engine kv.db.stateVariables) :
    KeepsProtected kv (runSleepCycleConsolidation rt engine a kv) := by
  unfold runSleepCycleConsolidation
  split
  · exact .refl kv
  · next htouched =>
    rcases h with h | h
    · exact absurd h htouched
    · have hprune := @keepsProtected_pruneLoop rt engine a.pruneNow a.pruneDeleteNow kv _ h
      set pruned := MemoryAuditor.pruneLoop rt engine a.pruneNow a.pruneDeleteNow kv
        (a.analyzed kv.db.stateVariables)
      have hcollect := keepsProtected_salienceGc rt defaultGcConfFloor a.gcNow pruned
        (a.collected pruned.db.stateVariables)
      intro key hprotects hhas
      exact has_run_setCalls (hcollect key hprotects (hprune key hprotects hhas)) a.writes

/-! ## Runs -/

namespace Daemon

variable (cfg : DaemonConfig ρ)

/-- The operation does not reach one of the two deletions that pass by the guard. -/
def Spares (d : Daemon ρ) : DaemonOp → Prop
  | .delete _ _ => True
  | .applyDelta delta times =>
    d.bridge.rejectsAsStale delta = true ∨
      if cfg.bridgeWritePath then
        StateSyncBridge.SparesThrough cfg.env cfg.vectorRecord delta.sourceNode d.stores
          delta.mutations times
      else StateSyncBridge.Spares cfg.env.rt delta.sourceNode d.stores.kv delta.mutations
        fun i => (times i).persisted
  | .sleepCycle args => args.Spares cfg.env.rt cfg.engine d.stores.kv.db.stateVariables

/-- Every operation of a run meets the condition in the state that it finds. -/
def AllSpare : Daemon ρ → List DaemonOp → Prop
  | _, [] => True
  | d, op :: ops => d.Spares cfg op ∧ AllSpare (d.step cfg op) ops

variable {cfg}

lemma keepsProtected_applyDelta {d : Daemon ρ} {delta : Delta} {times : ℕ → WriteTimes}
    (h : d.Spares cfg (.applyDelta delta times)) :
    KeepsProtected d.stores.kv (d.applyDelta cfg delta times).stores.kv := by
  unfold applyDelta
  by_cases hpath : cfg.bridgeWritePath = true
  · rw [if_pos hpath]
    split
    · exact .refl _
    · next hstale =>
      rcases h with h | h
      · exact absurd h hstale
      · rw [if_pos hpath] at h
        have hkeeps := StateSyncBridge.keepsProtected_applyMutationsThrough h
        split
        · next heq => simpa only [heq] using hkeeps
        · next heq => simpa only [heq] using hkeeps
  · rw [if_neg hpath]
    show KeepsProtected d.stores.kv (d.bridge.applyRemoteDelta cfg.env.rt delta _).1.kv
    unfold StateSyncBridge.applyRemoteDelta
    split
    · exact .refl _
    · next hstale =>
      rcases h with h | h
      · exact absurd h hstale
      · rw [if_neg hpath] at h
        exact StateSyncBridge.keepsProtected_applyMutations h

lemma keepsProtected_step {d : Daemon ρ} {op : DaemonOp} (h : d.Spares cfg op) :
    KeepsProtected d.stores.kv (d.step cfg op).stores.kv := by
  cases op with
  | delete key now =>
    have hcases := MemoryController.fst_handleDelete_cases cfg.env.rt cfg.vectorBackend
      cfg.env.rawText key now d.stores.kv d.stores.vectors
    show KeepsProtected d.stores.kv (MemoryController.handleDelete cfg.env.rt cfg.vectorBackend
      cfg.env.rawText key now d.stores.kv d.stores.vectors).1
    rcases hcases with hsame | ⟨hnot, hcall⟩
    · rw [hsame]
      exact .refl _
    · rw [hcall]
      exact keepsProtected_deleteSync (fun hprotects => absurd hprotects hnot) now
  | applyDelta delta times => exact keepsProtected_applyDelta h
  | sleepCycle args => exact keepsProtected_sleepCycle h

lemma keepsProtected_run {d : Daemon ρ} {ops : List DaemonOp} (h : AllSpare cfg d ops) :
    KeepsProtected d.stores.kv (d.run cfg ops).stores.kv := by
  induction ops generalizing d with
  | nil => exact .refl _
  | cons op ops ih => exact (keepsProtected_step h.1).trans (ih h.2)

lemma allSpare_append {d : Daemon ρ} {pre post : List DaemonOp} :
    AllSpare cfg d (pre ++ post) ↔ AllSpare cfg d pre ∧ AllSpare cfg (d.run cfg pre) post := by
  induction pre generalizing d with
  | nil => simp [AllSpare, run]
  | cons op pre ih =>
    rw [List.cons_append, AllSpare, AllSpare, ih, and_assoc]
    rfl

/-- In a run whose operations all spare the protected records, a protected record that is there in
one state is there in every later one. -/
theorem protected_kept (cfg : DaemonConfig ρ) (d : Daemon ρ) {pre post : List DaemonOp}
    (h : AllSpare cfg d (pre ++ post)) {key : String} (hkey : DeleteGuard.Protects key)
    (hhas : (d.run cfg pre).stores.kv.Has key) :
    (d.run cfg (pre ++ post)).stores.kv.Has key := by
  have hrun : d.run cfg (pre ++ post) = (d.run cfg pre).run cfg post := List.foldl_append
  rw [hrun]
  exact keepsProtected_run (allSpare_append.mp h).2 key hkey hhas

/-- A daemon for evaluating the model: its bridge writes to the store directly, and nothing
decays. -/
def sampleConfig : DaemonConfig Unit where
  env := sampleWriteEnv
  engine := { decay := fun _ => 1 }
  vectorBackend := ⟨fun v key => (VectorStore.deleteByUpsertKey v key, 0), fun v _ => (v, 0)⟩
  bridgeWritePath := false
  vectorRecord _ := none

def oneRecord (key : String) (confidence : ℚ) : Daemon Unit where
  stores := { emptyStores with
    kv := VerifiedKVStore.init.call .sample
      (.setSync ⟨key, .str "vim", some (.finite confidence), none, "update", none⟩ 1) }
  nodeId := "local"
  clock := ⟨∅⟩

def peerDeletion (key : String) : DaemonOp :=
  .applyDelta ⟨"peer", ∅, 1, [⟨1, key, none, some (.finite 1), none, none, some "delete", none⟩]⟩
    fun _ => timesAt 2

def nightly : DaemonOp :=
  .sleepCycle ⟨none, fun _ => 2, fun _ => 2, fun _ => 2, [], [], SqlText.lower⟩

instance (kv : VerifiedKVStore) (key : String) : Decidable (kv.Has key) :=
  inferInstanceAs (Decidable (_ = true))

theorem protected_kept_nightly :
    ((oneRecord "rule:preferred_editor" 1).run sampleConfig
      ([.delete "rule:preferred_editor" 2] ++ [nightly])).stores.kv.Has
        "rule:preferred_editor" := by
  have hspare : AllSpare sampleConfig (oneRecord "rule:preferred_editor" 1)
      ([.delete "rule:preferred_editor" 2] ++ [nightly]) :=
    ⟨trivial, Or.inr (by decide +kernel), trivial⟩
  exact protected_kept sampleConfig (oneRecord "rule:preferred_editor" 1) hspare (by decide)
    (by decide)

/-- A peer deletes a rule, and a sleep cycle forgets one. -/
theorem protected_removed :
    DeleteGuard.Protects "rule:preferred_editor" ∧
      (oneRecord "rule:preferred_editor" 1).stores.kv.Has "rule:preferred_editor" ∧
      ¬((oneRecord "rule:preferred_editor" 1).run sampleConfig
        [peerDeletion "rule:preferred_editor"]).stores.kv.Has "rule:preferred_editor" ∧
      (oneRecord "rule:preferred_editor" (1 / 5)).stores.kv.Has "rule:preferred_editor" ∧
      ¬((oneRecord "rule:preferred_editor" (1 / 5)).run sampleConfig
        [nightly]).stores.kv.Has "rule:preferred_editor" := by
  decide +kernel

end Daemon

end AtlasMemory
