import AtlasMemory.Foundations.PyDict
import AtlasMemory.Foundations.SqlText
import AtlasMemory.L2Semantic.Textnorm
import AtlasMemory.Runtime

/-!
# The state table

The model of `SqliteStateRepository` and of the table part of `SleepCheckpointRepository`: the
tables `state_variables` and `sleep_consolidation_checkpoints` and the statements on them that the
store's writers and the point lookup use.  A table scan without an `ORDER BY` runs in the order in
which the rows were first inserted.  The full-text index follows the table by triggers and is read
by none of the modelled methods.
-/

namespace AtlasMemory

/-- A row of `state_variables`, under its primary key. -/
structure StateRow where
  value : String
  confidence : ℚ
  timestamp : PyFloat
  metadata : Option String
  valueHash : Option String
  deriving DecidableEq

/-- The table `state_variables`. -/
abbrev StateTable := PyDict String StateRow

/-- The dictionary that `get_state` returns, with the items that its callers here read. -/
structure StateDict where
  key : String
  confidence : ℚ
  metadata : PyDict String Json

namespace StateRow

/-- The value of the row does not have the stored hash. -/
def tampered (rt : Runtime) (row : StateRow) : Bool :=
  match row.valueHash with
  | none => false
  | some hash => decide (hash ≠ "") && decide (rt.hexdigest row.value ≠ hash)

/-- The metadata column as `row_to_state_dict` decodes it: a dictionary, or an empty one. -/
def decodedMetadata (row : StateRow) : PyDict String Json :=
  match row.metadata with
  | none => ∅
  | some text =>
    if text = "" then ∅
    else match Json.loads (Textnorm.normalizeStoredText (PyText.ofString text)) with
      | some (.obj members) => PyDict.ofEntries members
      | _ => ∅

/-- A text that is a string literal as a whole: the string, with its surrogates. -/
def loadsString (t : PyText) : Option PyText :=
  match Json.skipSpace t with
  | .scalar '"' :: cs =>
    (Json.scanString cs).bind fun r => if Json.skipSpace r.2 = [] then some r.1 else none
  | _ => none

/-- The value column as `row_to_state_dict` decodes it: the text is normalised, read as JSON where it
is JSON, and a string that comes out is normalised once more. -/
def decodedValue (row : StateRow) : Json :=
  let text := Textnorm.normalizeStoredText (PyText.ofString row.value)
  match loadsString text with
  | some s => .str (PyText.toText (Textnorm.normalizeStoredText s))
  | none => (Json.loads text).getD (.str (PyText.toText (Textnorm.normalizeStoredText text)))

/-- `row_to_state_dict`. -/
def toStateDict (rt : Runtime) (key : String) (row : StateRow) : StateDict where
  key := key
  confidence := row.confidence
  metadata :=
    if row.tampered rt then row.decodedMetadata.set "tampered" (.bool true)
    else row.decodedMetadata

end StateRow

namespace StateTable

/-- `set_state`: the upsert. -/
def setState (t : StateTable) (key valJson : String) (confidence now : ℚ)
    (metaJson valHash : String) : StateTable :=
  t.set key ⟨valJson, confidence, .finite now, some metaJson, some valHash⟩

/-- The row that `get_state` reads: the exact key, else the first row whose key agrees up to
case. -/
def lookup (t : StateTable) (key : String) : Option (String × StateRow) :=
  match t.get? key with
  | some row => some (key, row)
  | none => t.entries.find? fun e => decide (SqlText.lower e.1 = SqlText.lower key)

/-- `get_state`. -/
def getState (rt : Runtime) (t : StateTable) (key : String) : Option StateDict :=
  (t.lookup key).map fun e => e.2.toStateDict rt e.1

/-- `delete_state`: whether a row was deleted. -/
def deleteState (t : StateTable) (key : String) : StateTable × Bool :=
  (t.erase key, t.contains key)

/-- The `WHERE` clause of one round of `purge_stale_probe_keys`. -/
def probeMatches (pre key : String) : Bool :=
  if '%' ∈ pre.toList then SqlText.like pre key else decide (key = pre)

/-- One round of `purge_stale_probe_keys`. -/
def purgeOne (t : StateTable) (pre : String) : StateTable :=
  t.filter fun key _ => !probeMatches pre key

/-- The loop of `purge_stale_probe_keys`: the table and the number of deleted rows. -/
def purgeStaleProbeKeys (t : StateTable) (prefixes : List String) : StateTable × ℕ :=
  prefixes.foldl (fun acc pre =>
    (acc.1.purgeOne pre, acc.2 + (acc.1.size - (acc.1.purgeOne pre).size))) (t, 0)

/-- The two clamping updates of `heal_audit_log_chain`. -/
def clampConfidences (t : StateTable) : StateTable :=
  t.mapValues fun row => { row with confidence := max 0 (min row.confidence 1) }

/-! ## What the statements leave alone -/

@[simp] lemma get?_setState_self (t : StateTable) (key valJson : String) (confidence now : ℚ)
    (metaJson valHash : String) :
    (t.setState key valJson confidence now metaJson valHash).get? key =
      some ⟨valJson, confidence, .finite now, some metaJson, some valHash⟩ :=
  PyDict.get?_set_self t key _

lemma get?_setState_of_ne (t : StateTable) {key key' : String} (h : key ≠ key')
    (valJson : String) (confidence now : ℚ) (metaJson valHash : String) :
    (t.setState key valJson confidence now metaJson valHash).get? key' = t.get? key' :=
  PyDict.get?_set_of_ne t _ h

lemma get?_of_get?_purgeOne {t : StateTable} {pre key : String} {row : StateRow}
    (h : (t.purgeOne pre).get? key = some row) : t.get? key = some row := by
  rw [purgeOne, PyDict.get?_filter, Option.filter_eq_some_iff] at h
  exact h.1

lemma get?_of_get?_purge {t : StateTable} {prefixes : List String} {key : String}
    {row : StateRow} (h : (t.purgeStaleProbeKeys prefixes).1.get? key = some row) :
    t.get? key = some row := by
  have hloop : ∀ (ps : List String) (acc : StateTable × ℕ),
      (ps.foldl (fun acc pre =>
        (acc.1.purgeOne pre, acc.2 + (acc.1.size - (acc.1.purgeOne pre).size))) acc).1.get? key =
          some row → acc.1.get? key = some row := by
    intro ps
    induction ps with
    | nil => intro acc hacc; exact hacc
    | cons p ps ih => intro acc hacc; exact get?_of_get?_purgeOne (ih _ hacc)
  exact hloop prefixes (t, 0) h

end StateTable

/-- A row of `sleep_consolidation_checkpoints`, under its primary key. -/
structure SleepCheckpoint where
  timestamp : PyFloat
  lastProcessedStepId : ℤ
  sessionsConsolidated : ℤ
  sopsBaked : ℤ
  factsSuperseded : ℤ
  durationMs : PyFloat
  deriving DecidableEq

/-- The table `sleep_consolidation_checkpoints`. -/
abbrev CheckpointTable := PyDict String SleepCheckpoint

end AtlasMemory
