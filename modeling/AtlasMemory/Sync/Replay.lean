import AtlasMemory.L2Semantic.MetadataReadback
import AtlasMemory.Sync.Bridge

/-!
# Replaying audit rows

What a receiving store becomes does not depend on most of what its rows hold.  A `Replica` keeps the
value, the confidence and the information potential of a row, and `replay` says what an audit row
does to a table of replicas: the potential gate, a deletion, or an upsert.  `view_applyMutations`
connects the two: the mutation loop of the bridge, seen through `view`, is the replay of the rows.

The one fact behind it that is not a matter of unfolding is that the precision of a replicated
value is read back from its metadata as it was written.
-/

namespace AtlasMemory

/-! ## Replicas -/

/-- What a replicated variable amounts to. -/
structure Replica where
  value : String
  confidence : ℚ
  potential : PyFloat
  deriving DecidableEq

abbrev ReplicaTable := PyDict String Replica

namespace ReplicaTable

/-- The replica that a lookup finds: the exact key, else the first that agrees up to case. -/
def lookup (t : ReplicaTable) (key : String) : Option Replica :=
  match t.get? key with
  | some replica => some replica
  | none => (t.entries.find? fun e => decide (SqlText.lower e.1 = SqlText.lower key)).map Prod.snd

/-- A confidence is rejected against a replica. -/
def outweighs (replica : Replica) (confidence : PyFloat) : Bool :=
  confidence.lt (replica.potential.subRat lambdaTolerance)

/-- The confidence with which an audit row is exported. -/
def exportedConfidence (r : AuditRow) : PyFloat := r.confidence.getD (.finite 1)

/-- The replica that an audit row becomes. -/
def replicaOf (r : AuditRow) : Replica where
  value := r.toMutation.decodedValue.dumps
  confidence := PyFloat.clampUnit (some (exportedConfidence r))
  potential := .finite (PyFloat.clampUnit (some (exportedConfidence r)))

/-- What an audit row does to a table of replicas. -/
def replay (t : ReplicaTable) (r : AuditRow) : ReplicaTable :=
  let key := r.toMutation.appliedKey
  if key = "" then t
  else if (t.lookup key).any (outweighs · (exportedConfidence r)) then t
  else if r.toMutation.isDeleted then t.erase key
  else t.set key (replicaOf r)

end ReplicaTable

variable {rt : Runtime}

/-- The information potential of a stored row. -/
def StateRow.potential (rt : Runtime) (row : StateRow) : PyFloat :=
  (row.toStateDict rt "").localLambda rt

def StateRow.replica (rt : Runtime) (row : StateRow) : Replica :=
  ⟨row.value, row.confidence, row.potential rt⟩

def StateTable.view (rt : Runtime) (t : StateTable) : ReplicaTable :=
  t.mapValues (StateRow.replica rt)

namespace ReplicaTable

/-! ## The potential of a replicated row -/

lemma lookup_view (t : StateTable) (key : String) :
    (t.view rt).lookup key = (t.lookup key).map fun e => e.2.replica rt := by
  rw [lookup, StateTable.lookup, StateTable.view, PyDict.get?_mapValues]
  cases t.get? key with
  | some row => rfl
  | none =>
      rw [PyDict.entries_mapValues]
      show ((t.entries.map _).find? _).map Prod.snd = _
      rw [List.find?_map, Option.map_map]
      rfl

lemma gateRejects_toMutation (t : StateTable) (r : AuditRow) (key : String) :
    gateRejects rt (t.getState rt key) r.toMutation =
      ((t.view rt).lookup key).any (outweighs · (exportedConfidence r)) := by
  have hlambda : r.toMutation.incomingLambda rt = exportedConfidence r := PyFloat.one_mul _
  rw [lookup_view, StateTable.getState]
  cases t.lookup key with
  | none => rfl
  | some e =>
      show (r.toMutation.incomingLambda rt).lt _ = _
      rw [hlambda]
      rfl

lemma entries_replicaMetadata (source key valText : String) (precision : PyFloat) :
    ∃ (m : String × Json) (ms : List (String × Json)),
      (replicaMetadata rt source key valText precision).entries =
        m :: ms ++ [("precision", rt.jsonFloat precision)] := by
  rcases htriple : tripleOf key valText with ⟨sub, pred, obj⟩
  refine ⟨("source_type", .str "peer_replication"), [("origin", .str ("sync_" ++ source)),
    ("subject", .str sub), ("predicate", .str pred), ("object", .str obj), ("kv_key", .str key)], ?_⟩
  rw [replicaMetadata, htriple]
  rfl

lemma potential_of_replicaMetadata {row : StateRow} {source key valText : String}
    (hrow : row.metadata = some
      (Json.obj (replicaMetadata rt source key valText (.finite 1)).entries).dumps) :
    row.potential rt = .finite row.confidence := by
  obtain ⟨m, ms, hentries⟩ := @entries_replicaMetadata rt source key valText (.finite 1)
  rw [hentries] at hrow
  have hprecision := @get?_decodedMetadata row m ms "precision" (rt.floatLit 1) (by decide)
    (by decide) (by decide) hrow
  have hmetadata : (row.toStateDict rt "").metadata.get? "precision" =
      row.decodedMetadata.get? "precision" := by
    rw [StateRow.toStateDict]
    dsimp only
    split_ifs
    · exact PyDict.get?_set_of_ne _ _ (by decide)
    · rfl
  have hone : rt.floatOfJson (.number (rt.floatLit 1)) = some (.finite 1) := rt.parseFloat_one
  rw [StateRow.potential, StateDict.localLambda, hmetadata]
  rcases hprecision with hnone | hsome
  · rw [hnone]
    exact PyFloat.one_mul _
  · rw [hsome]
    dsimp only
    rw [hone]
    exact PyFloat.one_mul _

/-! ## The mutation loop is a replay -/

/-- The row that the mutation loop writes for an audit row. -/
def replicaRow (rt : Runtime) (source : String) (r : AuditRow) (now : ℚ) : StateRow :=
  let a := r.toMutation.setArgs rt source
  ⟨a.value.dumps, PyFloat.clampUnit a.confidence, .finite now,
    some (Json.obj (a.storedMetadata rt now).entries).dumps, some (rt.hexdigest a.value.dumps)⟩

lemma replica_replicaRow (source : String) (r : AuditRow) (now : ℚ) :
    (replicaRow rt source r now).replica rt = replicaOf r := by
  have hstored : (r.toMutation.setArgs rt source).storedMetadata rt now =
      replicaMetadata rt source r.toMutation.appliedKey (rt.pyStr r.toMutation.decodedValue)
        (.finite 1) := rfl
  have hpotential : (replicaRow rt source r now).potential rt =
      .finite (replicaRow rt source r now).confidence :=
    potential_of_replicaMetadata (congrArg (fun d => some (Json.obj (PyDict.entries d)).dumps)
      hstored)
  rw [StateRow.replica, hpotential]
  rfl

/-- **One round.** -/
lemma view_applyMutation (source : String) (kv : VerifiedKVStore) (r : AuditRow) (now : ℚ) :
    (applyMutation rt source kv r.toMutation now).1.db.stateVariables.view rt =
      (kv.db.stateVariables.view rt).replay r := by
  rw [applyMutation, replay, gateRejects_toMutation]
  split_ifs
  · rfl
  · rfl
  · have hdb : (kv.call rt (.deleteSync r.toMutation.appliedKey now)).db.stateVariables =
        kv.db.stateVariables.erase r.toMutation.appliedKey := by
      rw [VerifiedKVStore.db_call (by nofun)]
      exact Db.stateVariables_deleteSync rt _ _ _
    show StateTable.view rt (kv.call rt _).db.stateVariables = _
    rw [hdb]
    exact PyDict.mapValues_erase _ _ _
  · have hdb : (kv.call rt (.setSync (r.toMutation.setArgs rt source) now)).db.stateVariables =
        kv.db.stateVariables.set r.toMutation.appliedKey (replicaRow rt source r now) := by
      rw [VerifiedKVStore.db_call (by nofun)]
      exact Db.stateVariables_setSync rt _ _ _
    show StateTable.view rt (kv.call rt _).db.stateVariables = _
    rw [hdb, ← replica_replicaRow source r now]
    exact PyDict.mapValues_set _ _ _ _

/-- **The mutation loop is the replay of the rows.** -/
theorem view_applyMutations (source : String) (kv : VerifiedKVStore) (rows : List AuditRow)
    (times : ℕ → ℚ) :
    (applyMutations rt source kv (rows.map AuditRow.toMutation) times).1.db.stateVariables.view rt =
      rows.foldl replay (kv.db.stateVariables.view rt) := by
  induction rows generalizing kv times with
  | nil => rfl
  | cons r rs ih =>
      rw [List.map_cons, fst_applyMutations_cons, ih, view_applyMutation, List.foldl_cons]

end ReplicaTable

end AtlasMemory
