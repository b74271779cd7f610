import AtlasMemory.Foundations.PyDict
import Mathlib.Data.Rat.Init
import Mathlib.Data.String.Basic
import Mathlib.Tactic.Linarith
import Mathlib.Tactic.NormNum

/-!
# Delta-state CRDT: clocks, element sets, deltas

The model of `sync/crdt.py`: `CompactVectorClock`, the metadata tuple with its dominance test,
`CompactLWWSet`, `SyncDelta` and `DeltaCRDT`.

Potentials and time stamps are exact rationals, counters are integers, node ids are strings
compared by code points.  The lock of a clock is not modelled: each method runs under it from
start to end, so a method is one step.  A Python dictionary is a `PyDict`; where the source
builds one from a *set* of keys the iteration order is unspecified, and the model picks one.
-/

namespace AtlasMemory

/-! ## Vector clocks -/

/-- `CompactVectorClock`: a counter for every node that has one. -/
@[ext]
structure CompactVectorClock where
  clocks : PyDict String ℤ
  deriving DecidableEq

namespace CompactVectorClock

/-- `self.clocks.get(node_id, 0)`. -/
def get (c : CompactVectorClock) (nodeId : String) : ℤ := c.clocks.getD nodeId 0

def single (nodeId : String) (n : ℤ) : CompactVectorClock := ⟨(∅ : PyDict String ℤ).set nodeId n⟩

/-- `increment`. -/
def increment (c : CompactVectorClock) (nodeId : String) : CompactVectorClock :=
  ⟨c.clocks.set nodeId (c.get nodeId + 1)⟩

/-- `merge`: the component-wise maximum over the keys of both clocks. -/
def merge (c other : CompactVectorClock) : CompactVectorClock :=
  ⟨PyDict.ofKeys (c.clocks.keys ++ other.clocks.keys) fun k => max (c.get k) (other.get k)⟩

/-- `receive`: `merge`, then one step of the receiving node's own counter. -/
def receive (c other : CompactVectorClock) (nodeId : String) : CompactVectorClock :=
  (c.merge other).increment nodeId

/-- The loop of `happens_before` over the keys of both clocks. -/
def happensBeforeLoop (c other : CompactVectorClock) : List String → Bool → Bool
  | [], hasStrictlyLess => hasStrictlyLess
  | k :: ks, hasStrictlyLess =>
    if other.get k < c.get k then false
    else happensBeforeLoop c other ks (hasStrictlyLess || decide (c.get k < other.get k))

/-- `happens_before`. -/
def happensBefore (c other : CompactVectorClock) : Bool :=
  happensBeforeLoop c other (c.clocks.keys ++ other.clocks.keys) false

@[simp] lemma get_single_self (nodeId : String) (n : ℤ) : (single nodeId n).get nodeId = n := by
  simp [single, get, PyDict.getD]

lemma get_single_of_ne {nodeId k : String} (n : ℤ) (h : nodeId ≠ k) :
    (single nodeId n).get k = 0 := by
  simp [single, get, PyDict.getD, PyDict.get?_set_of_ne _ _ h]

lemma get_increment (c : CompactVectorClock) (nodeId k : String) :
    (c.increment nodeId).get k = if nodeId = k then c.get k + 1 else c.get k := by
  by_cases h : nodeId = k
  · simp [increment, get, PyDict.getD, h]
  · simp [increment, get, PyDict.getD, PyDict.get?_set_of_ne _ _ h, h]

@[simp] lemma get_merge (c other : CompactVectorClock) (k : String) :
    (c.merge other).get k = max (c.get k) (other.get k) := by
  rw [merge, get, PyDict.getD, PyDict.get?_ofKeys]
  split_ifs with h
  · rfl
  · simp only [List.mem_append, not_or] at h
    simp [get, PyDict.getD, PyDict.get?_eq_none_iff.mpr h.1, PyDict.get?_eq_none_iff.mpr h.2]

lemma get_receive (c other : CompactVectorClock) (nodeId k : String) :
    (c.receive other nodeId).get k =
      if nodeId = k then max (c.get k) (other.get k) + 1 else max (c.get k) (other.get k) := by
  rw [receive, get_increment, get_merge]

lemma happensBeforeLoop_iff {c other : CompactVectorClock} {ks : List String} {b : Bool} :
    happensBeforeLoop c other ks b = true ↔
      (∀ k ∈ ks, c.get k ≤ other.get k) ∧ (b = true ∨ ∃ k ∈ ks, c.get k < other.get k) := by
  induction ks generalizing b with
  | nil => simp [happensBeforeLoop]
  | cons k ks ih =>
      rw [happensBeforeLoop, List.forall_mem_cons, List.exists_mem_cons_iff]
      split_ifs with hlt
      · refine iff_of_false (by simp) fun h => ?_
        have hle := h.1.1
        omega
      · rw [ih, Bool.or_eq_true, decide_eq_true_eq, or_assoc, and_assoc,
          and_iff_right (not_lt.mp hlt)]

lemma get_of_not_mem_keys {c : CompactVectorClock} {k : String} (h : k ∉ c.clocks.keys) :
    c.get k = 0 := by
  rw [get, PyDict.getD, PyDict.get?_eq_none_iff.mpr h]
  rfl

/-- `happens_before` compares the counters of all nodes; one that both clocks lack is zero in
both. -/
lemma happensBefore_iff {c other : CompactVectorClock} :
    c.happensBefore other = true ↔
      (∀ k, c.get k ≤ other.get k) ∧ ∃ k, c.get k < other.get k := by
  have hzero : ∀ k, k ∉ c.clocks.keys ++ other.clocks.keys → c.get k = 0 ∧ other.get k = 0 := by
    intro k hk
    rw [List.mem_append, not_or] at hk
    exact ⟨get_of_not_mem_keys hk.1, get_of_not_mem_keys hk.2⟩
  rw [happensBefore, happensBeforeLoop_iff]
  constructor
  · rintro ⟨hle, hfalse | ⟨k, -, hlt⟩⟩
    · cases hfalse
    · refine ⟨fun k => ?_, k, hlt⟩
      by_cases hk : k ∈ c.clocks.keys ++ other.clocks.keys
      · exact hle k hk
      · have hboth := hzero k hk
        omega
  · rintro ⟨hle, k, hlt⟩
    refine ⟨fun k _ => hle k, Or.inr ⟨k, ?_, hlt⟩⟩
    by_contra hk
    have hboth := hzero k hk
    omega

end CompactVectorClock

/-! ## Element metadata -/

/-- The metadata tuple `(lambda_potential, clock_rank, timestamp, node_id)`. -/
structure CrdtMeta where
  lambdaPotential : ℚ
  clockRank : ℤ
  timestamp : ℚ
  nodeId : String
  deriving DecidableEq

/-- A metadata value as it stands in a payload: a list of four or more items, one of the two
legacy shapes, a list of another length, or no list at all. -/
inductive RawMeta
  | quad (lambdaPotential : ℚ) (clockRank : ℤ) (timestamp : ℚ) (nodeId : String)
  | triple (lambdaPotential timestamp : ℚ) (nodeId : String)
  | pair (timestamp : ℚ) (nodeId : String)
  | otherLength
  | notSequence
  deriving DecidableEq

/-- `_normalize_crdt_meta`. -/
def normalizeCrdtMeta : RawMeta → CrdtMeta
  | .quad lam rank ts node => ⟨lam, rank, ts, node⟩
  | .triple lam ts node => ⟨lam, 0, ts, node⟩
  | .pair ts node => ⟨1, 0, ts, node⟩
  | .otherLength | .notSequence => ⟨1, 0, 0, ""⟩

/-- The tolerance `1e-6` of the first comparison level. -/
def lambdaTolerance : ℚ := 1 / 1000000

/-- `_crdt_meta_dominates(a, b)`: potential (with tolerance), then rank, then time stamp, then
node id, which also decides for `a` on a full tie. -/
def crdtMetaDominates (a : CrdtMeta) : Option CrdtMeta → Bool
  | none => true
  | some b =>
    if b.lambdaPotential + lambdaTolerance < a.lambdaPotential then true
    else if a.lambdaPotential < b.lambdaPotential - lambdaTolerance then false
    else if b.clockRank < a.clockRank then true
    else if a.clockRank < b.clockRank then false
    else if b.timestamp < a.timestamp then true
    else if a.timestamp < b.timestamp then false
    else decide (b.nodeId ≤ a.nodeId)

def metaDominates (a b : CrdtMeta) : Bool := crdtMetaDominates a (some b)

lemma metaDominates_connex (a b : CrdtMeta) :
    metaDominates a b = true ∨ metaDominates b a = true := by
  have htol : 0 < lambdaTolerance := by unfold lambdaTolerance; norm_num
  simp only [metaDominates, crdtMetaDominates]
  rcases lt_or_ge (b.lambdaPotential + lambdaTolerance) a.lambdaPotential with h₁ | h₁
  · exact Or.inl (by simp [h₁])
  rcases lt_or_ge (a.lambdaPotential + lambdaTolerance) b.lambdaPotential with h₂ | h₂
  · exact Or.inr (by simp [h₂])
  have h₁' : ¬ a.lambdaPotential < b.lambdaPotential - lambdaTolerance := by linarith
  have h₂' : ¬ b.lambdaPotential < a.lambdaPotential - lambdaTolerance := by linarith
  rw [if_neg (not_lt.mpr h₁), if_neg h₁', if_neg (not_lt.mpr h₂), if_neg h₂']
  rcases lt_trichotomy a.clockRank b.clockRank with hr | hr | hr
  · exact Or.inr (by simp [hr])
  · rcases lt_trichotomy a.timestamp b.timestamp with ht | ht | ht
    · exact Or.inr (by simp [hr, ht])
    · rcases le_total a.nodeId b.nodeId with hn | hn
      · exact Or.inr (by simp [hr, ht, hn])
      · exact Or.inl (by simp [hr, ht, hn])
    · exact Or.inl (by simp [hr, ht])
  · exact Or.inl (by simp [hr])

/-! ## Element sets -/

/-- `CompactLWWSet` (alias `LWWElementSet`). -/
structure CompactLWWSet where
  adds : PyDict String CrdtMeta
  removes : PyDict String CrdtMeta
  tombstoneTtlSeconds : Option ℚ
  deriving DecidableEq

/-- The two maps of an element set. -/
inductive Side
  | adds
  | removes
  deriving DecidableEq

namespace CompactLWWSet

def side (s : CompactLWWSet) : Side → PyDict String CrdtMeta
  | .adds => s.adds
  | .removes => s.removes

/-- One round of the two loops of `merge`: take the incoming tuple if the element is new or the
tuple dominates the stored one. -/
def mergeMeta (acc : PyDict String CrdtMeta) (e : String × CrdtMeta) : PyDict String CrdtMeta :=
  if !acc.contains e.1 || crdtMetaDominates e.2 (acc.get? e.1) then acc.set e.1 e.2 else acc

/-- `merge`. -/
def merge (s other : CompactLWWSet) : CompactLWWSet where
  adds := other.adds.entries.foldl mergeMeta s.adds
  removes := other.removes.entries.foldl mergeMeta s.removes
  tombstoneTtlSeconds := s.tombstoneTtlSeconds

/-- `gc` (alias `auto_gc`): drop the tombstones older than the time to live, and with each the
add tuple if it is as old; the count of dropped tombstones is returned. -/
def gc (s : CompactLWWSet) (now : ℚ) : CompactLWWSet × ℕ :=
  match s.tombstoneTtlSeconds with
  | none => (s, 0)
  | some ttl =>
    let cutoff := now - ttl
    let removed := (s.removes.filter fun _ m => decide (m.timestamp < cutoff)).keys
    ({ s with
        removes := s.removes.filter fun _ m => !decide (m.timestamp < cutoff)
        adds := s.adds.filter fun elem m =>
          !(decide (elem ∈ removed) && decide (m.timestamp < cutoff)) },
      removed.length)

@[simp] lemma gc_of_no_ttl {s : CompactLWWSet} (h : s.tombstoneTtlSeconds = none) (now : ℚ) :
    s.gc now = (s, 0) := by
  simp [gc, h]

end CompactLWWSet

/-! ## Deltas and replicas -/

/-- One element set of a payload, before validation. -/
structure SetPayload where
  adds : PyDict String RawMeta
  removes : PyDict String RawMeta
  tombstoneTtlSeconds : Option ℚ
  deriving DecidableEq

/-- The loop of `model_validate` over one map: values that are no list are skipped. -/
def validateMetas (raw : PyDict String RawMeta) : PyDict String CrdtMeta :=
  raw.filterMapValues fun v => if v = .notSequence then none else some (normalizeCrdtMeta v)

/-- `CompactLWWSet.model_validate`. -/
def CompactLWWSet.modelValidate (data : SetPayload) : CompactLWWSet where
  adds := validateMetas data.adds
  removes := validateMetas data.removes
  tombstoneTtlSeconds := data.tombstoneTtlSeconds

/-- `SyncDelta`, with the part of the payload that a replica reads: `payload.get("state")`. -/
structure SyncDelta where
  sourceNode : String
  vectorClock : CompactVectorClock
  payloadState : Option (PyDict String SetPayload)
  deriving DecidableEq

/-- `DeltaCRDT`. -/
structure DeltaCRDT where
  nodeId : String
  clock : CompactVectorClock
  state : PyDict String CompactLWWSet
  deriving DecidableEq

namespace DeltaCRDT

/-- `DeltaCRDT(node_id)`. -/
def init (nodeId : String) : DeltaCRDT where
  nodeId := nodeId
  clock := .single nodeId 0
  state := ∅

/-- `auto_gc`. -/
def autoGc (s : DeltaCRDT) (now : ℚ) : DeltaCRDT × ℕ :=
  ({ s with state := s.state.mapValues fun set => (set.gc now).1 },
    (s.state.values.map fun set => (set.gc now).2).sum)

/-- One round of the loop of `apply_delta`: merge into a known set, or adopt an unknown one. -/
def applySet (state : PyDict String CompactLWWSet) (e : String × SetPayload) :
    PyDict String CompactLWWSet :=
  let incoming := CompactLWWSet.modelValidate e.2
  match state.get? e.1 with
  | some current => state.set e.1 (current.merge incoming)
  | none => state.set e.1 incoming

/-- `apply_delta`, at time `now`. -/
def applyDelta (s : DeltaCRDT) (now : ℚ) (delta : SyncDelta) : DeltaCRDT :=
  let merged := { s with
    state := (delta.payloadState.getD ∅).entries.foldl applySet s.state
    clock := s.clock.merge delta.vectorClock }
  (merged.autoGc now).1

end DeltaCRDT

end AtlasMemory
