import AtlasMemory.L2Semantic.BatchLookups
import AtlasMemory.Security.DeleteGuard

/-!
# The sleep cycle on the state table

What `run_sleep_cycle_consolidation` does to the records: the loop of the auditor that prunes the
records of low confidence or decayed salience, and the salience collection of the declarative
consolidator.  What follows the collection, the tombstones of discourse garbage and the cascade over
similar facts, reaches the records through `set_state` only and stands here as a list of writes.

A snapshot of the records is taken before each of the two loops.  Each key is met once in a
loop, so the readings of the clock are given by the keys.
-/

namespace AtlasMemory

/-! ## Snapshots of the records -/

namespace StateTable

/-- `get_all`: the first records in the order of their keys. -/
def getAll (t : StateTable) (limit : ℕ) : List (String × StateRow) :=
  (t.entries.insertionSort fun e e' => e.1 ≤ e'.1).take limit

lemma mem_of_mem_getAll {t : StateTable} {limit : ℕ} {e : String × StateRow}
    (h : e ∈ t.getAll limit) : e ∈ t.entries :=
  (List.perm_insertionSort _ _).mem_iff.mp (List.mem_of_mem_take h)

end StateTable

/-! ## Decay -/

/-- `SalienceDecayEngine`. -/
structure SalienceDecayEngine where
  weightImportance : ℚ := 3 / 10
  weightRecency : ℚ := 1 / 5
  pruneThreshold : ℚ := 3 / 20
  /-- `math.exp(-self.decay_lambda * dt)`. -/
  decay : ℚ → ℚ

namespace SalienceDecayEngine

/-- `e^(-lambda * max(0.0, now - t))` of a stored timestamp. -/
def recency (d : SalienceDecayEngine) (timestamp : PyFloat) (now : ℚ) : ℚ :=
  match timestamp with
  | .finite t => d.decay (max 0 (now - t))
  | .negZero => d.decay (max 0 now)
  | .posInf | .nan => d.decay 0
  | .negInf => 0

/-- `calculate_salience` of a record that no query asks for and no query has touched: the parts of
the similarity and of the frequency are zero. -/
def calculateSalience (d : SalienceDecayEngine) (importance : ℚ) (timestamp : PyFloat) (now : ℚ) :
    ℚ :=
  d.weightImportance * max 0 (min 1 importance) + d.weightRecency * d.recency timestamp now

/-- `should_prune` of a record that is no state variable. -/
def shouldPrune (d : SalienceDecayEngine) (importance : ℚ) (timestamp : PyFloat) (now : ℚ) :
    Bool :=
  if 19 / 20 ≤ importance then false
  else decide (d.calculateSalience importance timestamp now < d.pruneThreshold)

end SalienceDecayEngine

namespace MemoryAuditor

/-! ## The prune loop of the auditor -/

/-- `importance_score` of a record for the decay; `none` if the conversion or the validation of the
record raises. -/
def importanceScore (rt : Runtime) (metadata : PyDict String Json) : Option ℚ :=
  match metadata.get? "importance_score" with
  | none => some (1 / 2)
  | some v =>
    match rt.floatOfJson v with
    | some (.finite x) => if 0 ≤ x ∧ x ≤ 1 then some x else none
    | some .negZero => some 0
    | _ => none

/-- `source_str`. -/
def sourceOf (metadata : PyDict String Json) : Json :=
  (metadata.get? "source_type").getD ((metadata.get? "source").getD (.str "agent_inference"))

def isUserExplicit (metadata : PyDict String Json) : Bool :=
  match sourceOf metadata with
  | .str source => decide (source = "user_explicit")
  | _ => false

/-- `should_prune` of the loop. -/
def shouldPrune (rt : Runtime) (engine : SalienceDecayEngine) (e : String × StateRow) (now : ℚ) :
    Bool :=
  let conf := max 0 (min 1 e.2.confidence)
  let metadata := (e.2.toStateDict rt e.1).metadata
  match importanceScore rt metadata with
  | none => false
  | some importance =>
    if isUserExplicit metadata && decide (99 / 100 ≤ conf) then false
    else if conf < 3 / 10 then true
    else engine.shouldPrune importance e.2.timestamp now

def pruneLoop (rt : Runtime) (engine : SalienceDecayEngine) (pruneNow deleteNow : String → ℚ)
    (kv : VerifiedKVStore) : List (String × StateRow) → VerifiedKVStore
  | [] => kv
  | e :: es =>
    if shouldPrune rt engine e (pruneNow e.1) then
      pruneLoop rt engine pruneNow deleteNow (kv.call rt (.deleteSync e.1 (deleteNow e.1))) es
    else pruneLoop rt engine pruneNow deleteNow kv es

end MemoryAuditor

namespace DeclarativeConsolidator

/-! ## The salience collection -/

/-- `CONTROL_PREFIXES`. -/
def controlPrefixes : List String :=
  ["atlas:", "sop:", "session_", "txn:", "transaction", "intent:", "hot:", "probe:", "watermark",
    "checkpoint"]

/-- `GC_PROTECTED_PREFIXES`. -/
def gcProtectedPrefixes : List String :=
  DeleteGuard.protectedPrefixes ++ ["rule:", "preference:", "constraint:", "user:", "sop:",
    "atlas:", "hot:", "probe:", "watermark", "checkpoint"]

/-- `PROVENANCE_SOURCE_TYPES`. -/
def provenanceSourceTypes : List String :=
  ["user_explicit", "tool_output", "tool_observation", "external_doc"]

/-- `bool(meta.get(name))`. -/
def flag (rt : Runtime) (metadata : PyDict String Json) (name : String) : Bool :=
  ((metadata.get? name).map rt.truthy).getD false

/-- `_has_provenance`. -/
def hasProvenance (rt : Runtime) (metadata : PyDict String Json) : Bool :=
  if flag rt metadata "provenance" || flag rt metadata "source_episode" ||
      flag rt metadata "episode_id" then true
  else
    let source := if flag rt metadata "source_type" then metadata.get? "source_type"
      else if flag rt metadata "source" then metadata.get? "source" else none
    decide ((source.map rt.pyStr).getD "" ∈ provenanceSourceTypes)

/-- `_is_temporary`. -/
def isTemporary (rt : Runtime) (key : String) (metadata : PyDict String Json) : Bool :=
  if flag rt metadata "is_temporary" || flag rt metadata "temporary" then true
  else match metadata.get? "ttl" with
    | some .null | none => PyString.startsWith key "temp:"
    | some _ => true

/-- `is_gc_eligible`. -/
def isGcEligible (rt : Runtime) (gcFloor : ℚ) (e : String × StateRow) : Bool :=
  let metadata := (e.2.toStateDict rt e.1).metadata
  if decide (e.1 = "") || flag rt metadata "is_superseded" || flag rt metadata "superseded" then
    false
  else if (gcProtectedPrefixes ++ controlPrefixes).any (PyString.startsWith e.1) then false
  else if !isTemporary rt e.1 metadata then false
  else if hasProvenance rt metadata then false
  else decide (e.2.confidence < gcFloor)

/-- The collection over a snapshot, in the order of the keys; a deletion that raises ends it. -/
def salienceGc (rt : Runtime) (gcFloor : ℚ) (now : String → ℚ) (kv : VerifiedKVStore) :
    List (String × StateRow) → VerifiedKVStore
  | [] => kv
  | e :: es =>
    if isGcEligible rt gcFloor e then
      match (kv.db.deleteSync rt e.1 (now e.1)).2 with
      | .error _ => kv.call rt (.deleteSync e.1 (now e.1))
      | .ok _ => salienceGc rt gcFloor now (kv.call rt (.deleteSync e.1 (now e.1))) es
    else salienceGc rt gcFloor now kv es

end DeclarativeConsolidator

/-! ## The cycle -/

/-- The inputs of a cycle, and what the clock and the searches contribute. -/
structure SleepCycleArgs where
  touchedKeys : Option (List String) := none
  pruneNow : String → ℚ
  pruneDeleteNow : String → ℚ
  gcNow : String → ℚ
  /-- The siblings of the touched keys that the consolidator adds to them. -/
  siblings : List String := []
  /-- The writes of the tombstone pass, of the cascade, and of the steps after the cycle. -/
  writes : List (SetArgs × ℚ) := []
  /-- `str.lower`. -/
  lower : String → String := SqlText.lower

namespace SleepCycleArgs

def analyzed (a : SleepCycleArgs) (t : StateTable) : List (String × StateRow) :=
  match a.touchedKeys with
  | some keys => (StateTable.statesOf a.lower t keys).entries
  | none => t.getAll 1000

/-- The snapshot of the consolidator, in the order of the keys. -/
def collected (a : SleepCycleArgs) (t : StateTable) : List (String × StateRow) :=
  match a.touchedKeys with
  | some keys =>
    let states := (StateTable.statesOf a.lower t keys).entries
    let added := t.entries.filter fun e =>
      decide (e.1 ∈ a.siblings) && !states.any fun e' => decide (e'.1 = e.1)
    (states ++ added).insertionSort fun e e' => e.1 ≤ e'.1
  | none => t.getAll 5000

end SleepCycleArgs

/-- `DEFAULT_GC_CONF_FLOOR`. -/
def defaultGcConfFloor : ℚ := 1 / 5

/-- `run_sleep_cycle_consolidation`, on the records. -/
def runSleepCycleConsolidation (rt : Runtime) (engine : SalienceDecayEngine)
    (a : SleepCycleArgs) (kv : VerifiedKVStore) : VerifiedKVStore :=
  if a.touchedKeys = some [] then kv
  else
    let pruned := MemoryAuditor.pruneLoop rt engine a.pruneNow a.pruneDeleteNow kv
      (a.analyzed kv.db.stateVariables)
    let collected := DeclarativeConsolidator.salienceGc rt defaultGcConfFloor a.gcNow pruned
      (a.collected pruned.db.stateVariables)
    collected.run rt (a.writes.map fun w => .setSync w.1 w.2)

end AtlasMemory
