import AtlasMemory.Foundations.PartialLoops
import AtlasMemory.Sync.Attribution

/-!
# Element sets as they are received

The model of the replica of `sync/crdt.py` for payloads of any shape: a set of a delta is validated
from JSON, with every position at which the conversion of a field raises, and potentials and time
stamps are floating point values, since a payload may hold `nan`.  What `int(s)` makes of a text is
a parameter.  A counter of a received clock is an integer, as its type says, or no number, which
cannot be compared with one.
-/

namespace AtlasMemory

namespace Received

/-- What the conversions of fields take from the standard library. -/
structure Conversions where
  rt : Runtime
  /-- `int(s)` of a text; `none` when it raises. -/
  parseInt : String → Option ℤ

namespace Conversions

variable (cv : Conversions)

/-- `float(v)`. -/
def float (v : Json) : Except PyError PyFloat :=
  match v, cv.rt.floatOfJson v with
  | _, some x => .ok x
  | .str _, none => .error ⟨.valueError, "could not convert string to float"⟩
  | _, none => .error ⟨.typeError, "float() argument must be a string or a real number"⟩

/-- `int(x)` of a floating point value. -/
def truncate : PyFloat → Except PyError ℤ
  | .finite x => .ok (if 0 ≤ x then x.floor else x.ceil)
  | .negZero => .ok 0
  | .nan => .error ⟨.valueError, "cannot convert float NaN to integer"⟩
  | .posInf | .negInf => .error ⟨.valueError, "cannot convert float infinity to integer"⟩

/-- `int(v)`. -/
def int (v : Json) : Except PyError ℤ :=
  match v.int?, v with
  | some n, _ => .ok n
  | none, .bool b => .ok (if b then 1 else 0)
  | none, .str s =>
    match cv.parseInt s with
    | some n => .ok n
    | none => .error ⟨.valueError, "invalid literal for int() with base 10"⟩
  | none, .null | none, .arr _ | none, .obj _ =>
    .error ⟨.typeError, "int() argument must be a string or a real number"⟩
  | none, v => (cv.float v).bind truncate

end Conversions

/-- The metadata tuple `(lambda_potential, clock_rank, timestamp, node_id)`. -/
structure CrdtMeta where
  lambdaPotential : PyFloat
  clockRank : ℤ
  timestamp : PyFloat
  nodeId : String
  deriving DecidableEq

/-- `CompactLWWSet`. -/
structure CompactLWWSet where
  adds : PyDict String CrdtMeta
  removes : PyDict String CrdtMeta
  tombstoneTtlSeconds : Option PyFloat
  deriving DecidableEq

/-! ## Validation -/

section Validation

variable (cv : Conversions)

/-- `_normalize_crdt_meta` of a list. -/
def normalizeCrdtMeta : List Json → Except PyError CrdtMeta
  | lam :: rank :: ts :: node :: _ => do
    return ⟨← cv.float lam, ← cv.int rank, ← cv.float ts, cv.rt.formatted node⟩
  | [ts, node] => do return ⟨.finite 1, 0, ← cv.float ts, cv.rt.formatted node⟩
  | [lam, ts, node] => do return ⟨← cv.float lam, 0, ← cv.float ts, cv.rt.formatted node⟩
  | _ => .ok ⟨.finite 1, 0, .finite 0, ""⟩

/-- `v.items()`. -/
def items : Json → Except PyError (PyDict String Json)
  | .obj members => .ok (.ofEntries members)
  | _ => .error ⟨.attributeError, "object has no attribute 'items'"⟩

/-- One round of the loops of `model_validate`: values that are no list are skipped. -/
def validateMeta (parsed : PyDict String CrdtMeta) (e : String × Json) :
    Except PyError (PyDict String CrdtMeta) :=
  match e.2 with
  | .arr fields => (normalizeCrdtMeta cv fields).map (parsed.set e.1)
  | _ => .ok parsed

/-- `CompactLWWSet.model_validate`. -/
def modelValidate (data : Json) : Except PyError CompactLWWSet :=
  match data with
  | .obj _ => do
    let adds ← (← items ((data.get? "adds").getD (.obj []))).entries.foldlM (validateMeta cv) ∅
    let removes ←
      (← items ((data.get? "removes").getD (.obj []))).entries.foldlM (validateMeta cv) ∅
    let ttl ← match (data.get? "tombstone_ttl_seconds").getD .null with
      | .null => pure none
      | v => (cv.float v).map some
    return ⟨adds, removes, ttl⟩
  | _ => .ok ⟨∅, ∅, none⟩

end Validation

/-! ## Merging and collection -/

/-- `_crdt_meta_dominates` of two tuples. -/
def metaDominates (a b : CrdtMeta) : Bool :=
  if (b.lambdaPotential.add (.finite lambdaTolerance)).lt a.lambdaPotential then true
  else if a.lambdaPotential.lt (b.lambdaPotential.subRat lambdaTolerance) then false
  else if b.clockRank < a.clockRank then true
  else if a.clockRank < b.clockRank then false
  else if b.timestamp.lt a.timestamp then true
  else if a.timestamp.lt b.timestamp then false
  else decide (b.nodeId ≤ a.nodeId)

namespace CompactLWWSet

/-- One round of the two loops of `merge`. -/
def mergeMeta (acc : PyDict String CrdtMeta) (e : String × CrdtMeta) : PyDict String CrdtMeta :=
  if (acc.get? e.1).all (metaDominates e.2) then acc.set e.1 e.2 else acc

/-- `merge`. -/
def merge (s other : CompactLWWSet) : CompactLWWSet where
  adds := other.adds.entries.foldl mergeMeta s.adds
  removes := other.removes.entries.foldl mergeMeta s.removes
  tombstoneTtlSeconds := s.tombstoneTtlSeconds

/-- `gc`. -/
def gc (s : CompactLWWSet) (now : ℚ) : CompactLWWSet :=
  match s.tombstoneTtlSeconds with
  | none => s
  | some ttl =>
    let cutoff := (PyFloat.finite now).add (ttl.mul (.finite (-1)))
    let removed := (s.removes.filter fun _ m => m.timestamp.lt cutoff).keys
    { s with
      removes := s.removes.filter fun _ m => !m.timestamp.lt cutoff
      adds := s.adds.filter fun elem m => !(decide (elem ∈ removed) && m.timestamp.lt cutoff) }

end CompactLWWSet

/-! ## Applying a delta -/

/-- `SyncDelta`; a counter that is no number is `none`. -/
structure SyncDelta where
  vectorClock : PyDict String (Option ℤ)
  payload : Json

/-- `DeltaCRDT`. -/
structure DeltaCRDT where
  nodeId : String
  clock : CompactVectorClock
  state : PyDict String CompactLWWSet
  deriving DecidableEq

/-- `clock.merge`: nothing changes when a counter cannot be compared. -/
def mergeClock (clock : CompactVectorClock) (other : PyDict String (Option ℤ)) :
    Except PyError CompactVectorClock :=
  if none ∈ other.values then
    .error ⟨.typeError, "'>' not supported between instances"⟩
  else .ok (clock.merge ⟨other.filterMapValues id⟩)

namespace DeltaCRDT

/-- Merge a validated set into a known one, or adopt it. -/
def applySet (state : PyDict String CompactLWWSet) (e : String × Json)
    (incoming : CompactLWWSet) : PyDict String CompactLWWSet :=
  match state.get? e.1 with
  | some current => state.set e.1 (current.merge incoming)
  | none => state.set e.1 incoming

/-- `auto_gc`. -/
def autoGc (s : DeltaCRDT) (now : ℚ) : DeltaCRDT :=
  { s with state := s.state.mapValues fun set => set.gc now }

/-- `delta.payload.get("state", {}).items()`. -/
def stateItems (payload : Json) : Except PyError (PyDict String Json) :=
  match payload with
  | .obj _ => items ((payload.get? "state").getD (.obj []))
  | _ => .error ⟨.attributeError, "object has no attribute 'get'"⟩

variable (cv : Conversions)

/-- The loop of `apply_delta` over the sets of the payload. -/
def applySets (state : PyDict String CompactLWWSet) (sets : PyDict String Json) :
    PyDict String CompactLWWSet × Except PyError Unit :=
  PartialLoops.run (fun e : String × Json => modelValidate cv e.2) applySet state sets.entries

/-- `apply_delta`, at time `now`. -/
def applyDelta (s : DeltaCRDT) (now : ℚ) (delta : SyncDelta) :
    DeltaCRDT × Except PyError CompactVectorClock :=
  match stateItems delta.payload with
  | .error err => (s, .error err)
  | .ok sets =>
    match applySets cv s.state sets with
    | (state, .error err) => ({ s with state }, .error err)
    | (state, .ok ()) =>
      match mergeClock s.clock delta.vectorClock with
      | .error err => ({ s with state }, .error err)
      | .ok clock => ({ s with state, clock }.autoGc now, .ok clock)

end DeltaCRDT

end Received

end AtlasMemory
