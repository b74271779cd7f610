import AtlasMemory.Foundations.DominanceFold
import AtlasMemory.Sync.Crdt
import Mathlib.Data.Prod.Lex

/-!
# Convergence of replicas

Two replicas that start from the same state and receive the same deltas, each at least once, in
orders and multiplicities of their own.  Every cell of a replica (one side of one element set at
one element) is a register in the sense of `DominanceFold`, driven by the deltas that carry a
tuple for it, so the question reduces cell by cell to order independence of that register.

The comparison `metaDominates` is connex but, because of the tolerance on the potential, neither
transitive nor antisymmetric: potentials may drift upwards in steps too small to be seen one by
one.  `deliver_converges_iff` is the exact condition on the delivered tuples; `nearTie` is a chain
of three for which two replicas end apart.
-/

namespace AtlasMemory

open DominanceFold

/-! ## Cells -/

/-- One side of the element set that a payload carries under `key`, validated. -/
def SyncDelta.metas (d : SyncDelta) (sd : Side) (key : String) : PyDict String CrdtMeta :=
  (((d.payloadState.getD ∅).get? key).map fun p =>
    (CompactLWWSet.modelValidate p).side sd).getD ∅

/-- The tuple that a delta carries for a cell. -/
def SyncDelta.metaAt (sd : Side) (key elem : String) (d : SyncDelta) : Option CrdtMeta :=
  (d.metas sd key).get? elem

/-- The delta carries an element set under `key`. -/
def SyncDelta.mentions (key : String) (d : SyncDelta) : Bool :=
  (d.payloadState.getD ∅).contains key

/-- No element set of the delta has a time to live. -/
def SyncDelta.NoTtl (d : SyncDelta) : Prop :=
  ∀ e ∈ (d.payloadState.getD ∅).entries, e.2.tombstoneTtlSeconds = none

instance (d : SyncDelta) : Decidable d.NoTtl := by unfold SyncDelta.NoTtl; infer_instance

namespace DeltaCRDT

/-- One side of the element set under `key`; empty when the replica has none. -/
def metas (s : DeltaCRDT) (sd : Side) (key : String) : PyDict String CrdtMeta :=
  ((s.state.get? key).map fun set => set.side sd).getD ∅

def metaAt (sd : Side) (key elem : String) (s : DeltaCRDT) : Option CrdtMeta :=
  (s.metas sd key).get? elem

/-- No element set of the replica has a time to live. -/
def NoTtl (s : DeltaCRDT) : Prop := ∀ e ∈ s.state.entries, e.2.tombstoneTtlSeconds = none

instance (s : DeltaCRDT) : Decidable s.NoTtl := by unfold NoTtl; infer_instance

/-- `apply_delta` along a sequence of deliveries, each with the time at which it happens. -/
def deliver (s : DeltaCRDT) (l : List (ℚ × SyncDelta)) : DeltaCRDT :=
  l.foldl (fun s e => s.applyDelta e.1 e.2) s

/-- Two replicas have the same keys, and under each key equal maps on both sides. -/
def SameElements (s t : DeltaCRDT) : Prop :=
  ∀ key, s.state.contains key = t.state.contains key ∧ ∀ sd, (s.metas sd key).Agree (t.metas sd key)

/-! ## One delivery -/

lemma noTtl_iff {s : DeltaCRDT} :
    s.NoTtl ↔ ∀ key set, s.state.get? key = some set → set.tombstoneTtlSeconds = none := by
  constructor
  · intro h key set hset
    exact h (key, set) (PyDict.mem_entries_iff.mpr hset)
  · rintro h ⟨key, set⟩ hmem
    exact h key set (PyDict.mem_entries_iff.mp hmem)

/-- The element set under `key` after the loop of `apply_delta`. -/
def mergedSet (current : Option CompactLWWSet) (p : SetPayload) : Option CompactLWWSet :=
  some (current.elim (CompactLWWSet.modelValidate p) fun c =>
    c.merge (CompactLWWSet.modelValidate p))

lemma get?_applySet (state : PyDict String CompactLWWSet) (e : String × SetPayload)
    (key : String) :
    (applySet state e).get? key =
      if e.1 = key then mergedSet (state.get? key) e.2 else state.get? key := by
  by_cases h : e.1 = key
  · subst h
    cases hcur : state.get? e.1 <;> simp [applySet, hcur, mergedSet]
  · cases hcur : state.get? e.1 <;>
      simp [applySet, hcur, h, PyDict.get?_set_of_ne _ _ h]

lemma get?_merged (s : DeltaCRDT) (payload : PyDict String SetPayload) (key : String) :
    (payload.entries.foldl applySet s.state).get? key =
      (payload.get? key).elim (s.state.get? key) (mergedSet (s.state.get? key)) :=
  PyDict.get?_foldl_entries get?_applySet payload s.state key

lemma noTtl_mergedSet {current : Option CompactLWWSet} {p : SetPayload} {set : CompactLWWSet}
    (hcur : ∀ c, current = some c → c.tombstoneTtlSeconds = none)
    (hp : p.tombstoneTtlSeconds = none) (h : mergedSet current p = some set) :
    set.tombstoneTtlSeconds = none := by
  cases current with
  | none => rw [← Option.some.inj h]; exact hp
  | some c => rw [← Option.some.inj h]; exact hcur c rfl

/-- The loop of `apply_delta` creates no time to live. -/
lemma noTtl_merged {s : DeltaCRDT} {d : SyncDelta} (hs : s.NoTtl) (hd : d.NoTtl) {key : String}
    {set : CompactLWWSet}
    (h : ((d.payloadState.getD ∅).entries.foldl applySet s.state).get? key = some set) :
    set.tombstoneTtlSeconds = none := by
  rw [get?_merged] at h
  cases hp : (d.payloadState.getD ∅).get? key with
  | none =>
      rw [hp] at h
      exact noTtl_iff.mp hs key set h
  | some p =>
      rw [hp] at h
      exact noTtl_mergedSet (noTtl_iff.mp hs key)
        (hd (key, p) (PyDict.mem_entries_iff.mpr hp)) h

/-- Without a time to live, the closing sweep of `apply_delta` finds nothing to collect. -/
lemma get?_applyDelta {s : DeltaCRDT} {d : SyncDelta} (hs : s.NoTtl) (hd : d.NoTtl) (now : ℚ)
    (key : String) :
    (s.applyDelta now d).state.get? key =
      ((d.payloadState.getD ∅).get? key).elim (s.state.get? key)
        (mergedSet (s.state.get? key)) := by
  rw [← get?_merged]
  simp only [applyDelta, autoGc, PyDict.get?_mapValues]
  cases hset : ((d.payloadState.getD ∅).entries.foldl applySet s.state).get? key with
  | none => rfl
  | some set => simp [CompactLWWSet.gc_of_no_ttl (noTtl_merged hs hd hset)]

lemma noTtl_applyDelta {s : DeltaCRDT} {d : SyncDelta} (hs : s.NoTtl) (hd : d.NoTtl) (now : ℚ) :
    (s.applyDelta now d).NoTtl := by
  refine noTtl_iff.mpr fun key set hset => ?_
  rw [get?_applyDelta hs hd, ← get?_merged] at hset
  exact noTtl_merged hs hd hset

lemma contains_applyDelta {s : DeltaCRDT} {d : SyncDelta} (hs : s.NoTtl) (hd : d.NoTtl) (now : ℚ)
    (key : String) :
    (s.applyDelta now d).state.contains key = (s.state.contains key || d.mentions key) := by
  rw [PyDict.contains, get?_applyDelta hs hd, SyncDelta.mentions, PyDict.contains,
    PyDict.contains]
  cases (d.payloadState.getD ∅).get? key <;> simp [mergedSet]

/-- One round of `merge` delivers a tuple to its register. -/
lemma get?_mergeMeta (acc : PyDict String CrdtMeta) (e : String × CrdtMeta) (elem : String) :
    (CompactLWWSet.mergeMeta acc e).get? elem =
      if e.1 = elem then keep metaDominates (acc.get? elem) e.2 else acc.get? elem := by
  by_cases h : e.1 = elem
  · subst h
    cases hx : acc.get? e.1 with
    | none => simp [CompactLWWSet.mergeMeta, PyDict.contains, hx, keep]
    | some x =>
        by_cases hdom : crdtMetaDominates e.2 (some x) = true
        · simp [CompactLWWSet.mergeMeta, PyDict.contains, hx, keep, metaDominates, hdom]
        · simp [CompactLWWSet.mergeMeta, PyDict.contains, hx, keep, metaDominates, hdom]
  · rw [if_neg h, CompactLWWSet.mergeMeta]
    split_ifs
    · exact PyDict.get?_set_of_ne _ _ h
    · rfl

lemma get?_side_merge (c other : CompactLWWSet) (sd : Side) (elem : String) :
    ((c.merge other).side sd).get? elem =
      ((other.side sd).get? elem).elim ((c.side sd).get? elem)
        (keep metaDominates ((c.side sd).get? elem)) := by
  cases sd
  · exact PyDict.get?_foldl_entries get?_mergeMeta other.adds c.adds elem
  · exact PyDict.get?_foldl_entries get?_mergeMeta other.removes c.removes elem

/-- **A delivery is one register step in every cell.** -/
lemma metaAt_applyDelta {s : DeltaCRDT} {d : SyncDelta} (hs : s.NoTtl) (hd : d.NoTtl) (now : ℚ)
    (sd : Side) (key elem : String) :
    (s.applyDelta now d).metaAt sd key elem =
      step metaDominates (SyncDelta.metaAt sd key elem) (s.metaAt sd key elem) d := by
  have hstep : step metaDominates (SyncDelta.metaAt sd key elem) (s.metaAt sd key elem) d =
      (d.metaAt sd key elem).elim (s.metaAt sd key elem)
        (keep metaDominates (s.metaAt sd key elem)) := by
    rw [step]
    cases d.metaAt sd key elem <;> rfl
  rw [hstep, metaAt, metas, get?_applyDelta hs hd, metaAt, metas, SyncDelta.metaAt,
    SyncDelta.metas]
  cases (d.payloadState.getD ∅).get? key with
  | none => rfl
  | some p =>
      cases s.state.get? key with
      | none =>
          simp only [Option.elim, mergedSet, Option.map_some, Option.getD_some, Option.map_none,
            Option.getD_none, PyDict.get?_empty]
          cases ((CompactLWWSet.modelValidate p).side sd).get? elem <;> rfl
      | some c => exact get?_side_merge c _ sd elem

/-! ## Sequences of deliveries -/

lemma noTtl_deliver {s : DeltaCRDT} (hs : s.NoTtl) {l : List (ℚ × SyncDelta)}
    (hl : ∀ e ∈ l, e.2.NoTtl) : (s.deliver l).NoTtl := by
  induction l generalizing s with
  | nil => exact hs
  | cons e es ih =>
      exact ih (noTtl_applyDelta hs (hl e List.mem_cons_self) e.1)
        fun e' he' => hl e' (List.mem_cons_of_mem _ he')

lemma metaAt_deliver {s : DeltaCRDT} (hs : s.NoTtl) {l : List (ℚ × SyncDelta)}
    (hl : ∀ e ∈ l, e.2.NoTtl) (sd : Side) (key elem : String) :
    (s.deliver l).metaAt sd key elem =
      run metaDominates (SyncDelta.metaAt sd key elem) (s.metaAt sd key elem)
        (l.map Prod.snd) := by
  induction l generalizing s with
  | nil => rfl
  | cons e es ih =>
      have he := hl e List.mem_cons_self
      rw [List.map_cons, run_cons, ← metaAt_applyDelta hs he e.1]
      exact ih (noTtl_applyDelta hs he e.1) fun e' he' => hl e' (List.mem_cons_of_mem _ he')

lemma contains_deliver {s : DeltaCRDT} (hs : s.NoTtl) {l : List (ℚ × SyncDelta)}
    (hl : ∀ e ∈ l, e.2.NoTtl) (key : String) :
    (s.deliver l).state.contains key =
      (s.state.contains key || (l.map Prod.snd).any (SyncDelta.mentions key)) := by
  induction l generalizing s with
  | nil => simp [deliver]
  | cons e es ih =>
      have he := hl e List.mem_cons_self
      have hrest := ih (noTtl_applyDelta hs he e.1)
        fun e' he' => hl e' (List.mem_cons_of_mem _ he')
      rw [contains_applyDelta hs he, Bool.or_assoc] at hrest
      exact hrest

/-- The keys of a replica are those it had and those some delta mentions, whatever the order. -/
lemma contains_deliver_eq_of_covers {a b : DeltaCRDT} {D : List SyncDelta}
    {l l' : List (ℚ × SyncDelta)} (hab : a.state = b.state) (ha : a.NoTtl) (hb : b.NoTtl)
    (hD : ∀ d ∈ D, d.NoTtl) (hl : Covers D (l.map Prod.snd)) (hl' : Covers D (l'.map Prod.snd))
    (key : String) : (a.deliver l).state.contains key = (b.deliver l').state.contains key := by
  have hnoTtl : ∀ {k : List (ℚ × SyncDelta)}, Covers D (k.map Prod.snd) →
      ∀ e ∈ k, e.2.NoTtl := fun hk e he => hD _ ((hk _).mp (List.mem_map_of_mem he))
  have hany : (l.map Prod.snd).any (SyncDelta.mentions key) =
      (l'.map Prod.snd).any (SyncDelta.mentions key) := by
    rw [Bool.eq_iff_iff, List.any_eq_true, List.any_eq_true]
    exact exists_congr fun d => and_congr_left fun _ => (hl d).trans (hl' d).symm
  rw [contains_deliver ha (hnoTtl hl), contains_deliver hb (hnoTtl hl'), hab, hany]

/-- **Exactly when replicas converge.** Without a time to live, all covering deliveries of `D`
to replicas with one and the same initial state end with the same elements if and only if in
every cell some tuple, delivered or initial, is dominated by no other delivered one and dominates
the initial one. -/
theorem deliver_converges_iff (a b : DeltaCRDT) (D : List SyncDelta) (hab : a.state = b.state)
    (ha : a.NoTtl) (hD : ∀ d ∈ D, d.NoTtl) :
    (∀ l l' : List (ℚ × SyncDelta), Covers D (l.map Prod.snd) → Covers D (l'.map Prod.snd) →
      (a.deliver l).SameElements (b.deliver l')) ↔
    ∀ sd key elem, HasDominant metaDominates (a.metaAt sd key elem)
      (D.filterMap (SyncDelta.metaAt sd key elem)) := by
  have hb : b.NoTtl := by rw [NoTtl, ← hab]; exact ha
  have hcell : ∀ sd key elem, b.metaAt sd key elem = a.metaAt sd key elem := by
    intro sd key elem
    rw [metaAt, metas, ← hab]
    rfl
  have hnoTtl : ∀ {k : List (ℚ × SyncDelta)}, Covers D (k.map Prod.snd) →
      ∀ e ∈ k, e.2.NoTtl := fun hk e he => hD _ ((hk _).mp (List.mem_map_of_mem he))
  constructor
  · intro h sd key elem
    rw [← settles_iff metaDominates_connex]
    intro l l' hl hl'
    -- the order of the deliveries is what matters, so let all of them happen at time zero
    have hsnd : ∀ k : List SyncDelta, (k.map fun d => ((0 : ℚ), d)).map Prod.snd = k := by
      intro k
      rw [List.map_map]
      exact List.map_id k
    have hcov : Covers D ((l.map fun d => ((0 : ℚ), d)).map Prod.snd) := by rwa [hsnd]
    have hcov' : Covers D ((l'.map fun d => ((0 : ℚ), d)).map Prod.snd) := by rwa [hsnd]
    have hagree := ((h _ _ hcov hcov') key).2 sd elem
    change DeltaCRDT.metaAt sd key elem _ = DeltaCRDT.metaAt sd key elem _ at hagree
    rwa [metaAt_deliver ha (hnoTtl hcov), metaAt_deliver hb (hnoTtl hcov'), hsnd, hsnd,
      hcell] at hagree
  · intro h l l' hl hl' key
    refine ⟨contains_deliver_eq_of_covers hab ha hb hD hl hl' key, fun sd elem => ?_⟩
    change DeltaCRDT.metaAt sd key elem _ = DeltaCRDT.metaAt sd key elem _
    rw [metaAt_deliver ha (hnoTtl hl), metaAt_deliver hb (hnoTtl hl'), hcell]
    exact (settles_iff metaDominates_connex _ D).mpr (h sd key elem) _ _ hl hl'

/-- The add tuple of one element `"x"` under the key `"k"`, as a delta. -/
def addDelta (lam : ℚ) (rank : ℤ) : SyncDelta where
  sourceNode := "a"
  vectorClock := .single "a" 1
  payloadState := some ((∅ : PyDict String SetPayload).set "k"
    { adds := (∅ : PyDict String RawMeta).set "x" (.quad lam rank 0 "a")
      removes := ∅
      tombstoneTtlSeconds := none })

/-- Two deltas that are apart in potential converge: the condition is met by the higher one. -/
theorem deliver_converges_of_gap :
    (∀ l l' : List (ℚ × SyncDelta), Covers [addDelta 0 2, addDelta 1 0] (l.map Prod.snd) →
      Covers [addDelta 0 2, addDelta 1 0] (l'.map Prod.snd) →
      ((init "a").deliver l).SameElements ((init "b").deliver l')) ↔
    ∀ sd key elem, HasDominant metaDominates ((init "a").metaAt sd key elem)
      ([addDelta 0 2, addDelta 1 0].filterMap (SyncDelta.metaAt sd key elem)) :=
  deliver_converges_iff (init "a") (init "b") [addDelta 0 2, addDelta 1 0] rfl (by decide)
    (by decide)

/-- Three add tuples whose potentials rise by less than the tolerance while their ranks fall. -/
def nearTie : List SyncDelta :=
  [addDelta 0 2, addDelta (7 / 10000000) 1, addDelta (14 / 10000000) 0]

/-- **Replicas need not converge.** Along a near-tie chain the order of delivery decides. -/
theorem deliver_diverges_on_near_tie :
    ¬ ∀ (a b : DeltaCRDT) (D : List SyncDelta), a.state = b.state → a.NoTtl →
      (∀ d ∈ D, d.NoTtl) → ∀ l l' : List (ℚ × SyncDelta), Covers D (l.map Prod.snd) →
        Covers D (l'.map Prod.snd) → (a.deliver l).SameElements (b.deliver l') := by
  intro h
  have hagree := ((h (init "a") (init "b") nearTie rfl (by decide) (by decide)
    (nearTie.map fun d => (0, d)) (nearTie.reverse.map fun d => (0, d))
    (by simp [Covers]) (by simp [Covers]) "k").2 .adds) "x"
  exact absurd hagree (by decide +kernel)

end DeltaCRDT

/-! ## Replicas that write and exchange their states -/

/-- The arguments of `add` and of `remove`. -/
structure StampArgs where
  timestamp : ℚ
  nodeId : String := ""
  precision : ℚ := 1
  confidence : ℚ := 1
  vectorClock : Option (CompactVectorClock ⊕ ℤ) := none

/-- The metadata of the element. -/
def StampArgs.toMeta (a : StampArgs) : CrdtMeta where
  lambdaPotential := a.precision * a.confidence
  clockRank := match a.vectorClock with
    | none => 0
    | some (.inl clock) => clock.clocks.values.sum
    | some (.inr rank) => rank
  timestamp := a.timestamp
  nodeId := a.nodeId

namespace CompactLWWSet

/-- `add`, and `remove` on the other side. -/
def write (s : CompactLWWSet) (elem : String) (a : StampArgs) : Side → CompactLWWSet
  | .adds => { s with adds := mergeMeta s.adds (elem, a.toMeta) }
  | .removes => { s with removes := mergeMeta s.removes (elem, a.toMeta) }

/-- `model_dump`. -/
def modelDump (s : CompactLWWSet) : SetPayload where
  adds := s.adds.mapValues fun m => .quad m.lambdaPotential m.clockRank m.timestamp m.nodeId
  removes := s.removes.mapValues fun m => .quad m.lambdaPotential m.clockRank m.timestamp m.nodeId
  tombstoneTtlSeconds := s.tombstoneTtlSeconds

end CompactLWWSet

namespace DeltaCRDT

/-- `get_set`. -/
def getSet (s : DeltaCRDT) (key : String) : CompactLWWSet := (s.state.get? key).getD ⟨∅, ∅, none⟩

/-- `get_set(key).add(elem, ...)`, and `remove` on the other side. -/
def write (s : DeltaCRDT) (key : String) (sd : Side) (elem : String) (a : StampArgs) : DeltaCRDT :=
  { s with state := s.state.set key ((s.getSet key).write elem a sd) }

/-- `export_delta`. -/
def exportDelta (s : DeltaCRDT) : SyncDelta where
  sourceNode := s.nodeId
  vectorClock := s.clock
  payloadState := some (s.state.mapValues CompactLWWSet.modelDump)

lemma metaAt_write (s : DeltaCRDT) (key' : String) (sd' : Side) (elem' : String) (a : StampArgs)
    (sd : Side) (key elem : String) :
    (s.write key' sd' elem' a).metaAt sd key elem =
      (if (key', sd', elem') = (key, sd, elem) then some a.toMeta else none).elim
        (s.metaAt sd key elem) (keep metaDominates (s.metaAt sd key elem)) := by
  have hset : ∀ c : CompactLWWSet, ((c.write elem' a sd').side sd).get? elem =
      if sd' = sd ∧ elem' = elem then keep metaDominates ((c.side sd).get? elem) a.toMeta
      else (c.side sd).get? elem := by
    intro c
    cases sd' <;> cases sd <;> simp [CompactLWWSet.write, CompactLWWSet.side, get?_mergeMeta]
  have hcurrent : ((s.getSet key).side sd).get? elem = s.metaAt sd key elem := by
    unfold getSet metaAt metas
    cases s.state.get? key with
    | none => cases sd <;> rfl
    | some c => rfl
  by_cases hkey : key' = key
  · subst hkey
    have hwritten : (s.write key' sd' elem' a).metaAt sd key' elem =
        (((s.getSet key').write elem' a sd').side sd).get? elem := by
      unfold metaAt metas write
      rw [PyDict.get?_set_self]
      rfl
    rw [hwritten, hset, hcurrent]
    by_cases hcell : sd' = sd ∧ elem' = elem
    · rw [if_pos hcell, if_pos (by rw [hcell.1, hcell.2])]
      rfl
    · rw [if_neg hcell, if_neg fun h => hcell ⟨congrArg (·.2.1) h, congrArg (·.2.2) h⟩]
      rfl
  · rw [if_neg fun h => hkey (congrArg Prod.fst h)]
    unfold metaAt metas write
    rw [PyDict.get?_set_of_ne _ _ hkey]
    rfl

lemma noTtl_write {s : DeltaCRDT} (hs : s.NoTtl) (key : String) (sd : Side) (elem : String)
    (a : StampArgs) : (s.write key sd elem a).NoTtl := by
  refine noTtl_iff.mpr fun key' set hset => ?_
  unfold write at hset
  rw [PyDict.get?_set] at hset
  split_ifs at hset with hkey
  · rw [← Option.some.inj hset]
    have hcurrent : (s.getSet key).tombstoneTtlSeconds = none := by
      unfold getSet
      cases hget : s.state.get? key with
      | none => rfl
      | some c => exact noTtl_iff.mp hs key c hget
    cases sd <;> exact hcurrent
  · exact noTtl_iff.mp hs key' set hset

lemma metaAt_exportDelta (s : DeltaCRDT) (sd : Side) (key elem : String) :
    s.exportDelta.metaAt sd key elem = s.metaAt sd key elem := by
  have hvalid : ∀ metas : PyDict String CrdtMeta, (validateMetas (metas.mapValues fun m =>
      .quad m.lambdaPotential m.clockRank m.timestamp m.nodeId)).get? elem = metas.get? elem := by
    intro metas
    rw [validateMetas, PyDict.get?_filterMapValues, PyDict.get?_mapValues]
    cases metas.get? elem <;> rfl
  unfold SyncDelta.metaAt SyncDelta.metas exportDelta metaAt metas
  dsimp only
  rw [Option.getD_some, PyDict.get?_mapValues]
  cases s.state.get? key with
  | none => rfl
  | some c => cases sd <;> exact hvalid _

lemma noTtl_exportDelta {s : DeltaCRDT} (hs : s.NoTtl) : s.exportDelta.NoTtl := by
  rintro ⟨key, p⟩ hmem
  have hget : (s.state.mapValues CompactLWWSet.modelDump).get? key = some p :=
    PyDict.mem_entries_iff.mp hmem
  rw [PyDict.get?_mapValues] at hget
  obtain ⟨c, hc, rfl⟩ := Option.map_eq_some_iff.mp hget
  exact noTtl_iff.mp hs key c hc

end DeltaCRDT

/-- A write of a run. -/
structure Update where
  key : String
  side : Side
  elem : String
  stamp : CrdtMeta

namespace Gossiping

/-- The replicas by their node, and the deltas in the network, each with the updates that it knows
of. -/
structure System where
  nodes : String → DeltaCRDT × Set Update
  sent : List (SyncDelta × Set Update)

/-- A replica writes, sends its state, or receives one of the deltas. -/
inductive Event
  | write (node key : String) (sd : Side) (elem : String) (a : StampArgs)
  | send (node : String)
  | receive (node : String) (now : ℚ) (i : ℕ)

/-- The write of an event. -/
def Event.updates : Event → Set Update
  | .write _ key sd elem a => {⟨key, sd, elem, a.toMeta⟩}
  | .send _ | .receive .. => ∅

def init : System := ⟨fun node => (.init node, ∅), []⟩

/-- A delta stays in the network, so that it may arrive late, again, or never. -/
def step (n : System) : Event → System
  | .write node key sd elem a =>
    let (replica, known) := n.nodes node
    { n with
      nodes := Function.update n.nodes node
        (replica.write key sd elem a, known ∪ {⟨key, sd, elem, a.toMeta⟩}) }
  | .send node => { n with sent := n.sent ++ [((n.nodes node).1.exportDelta, (n.nodes node).2)] }
  | .receive node now i =>
    match n.sent[i]? with
    | none => n
    | some (d, told) =>
      let (replica, known) := n.nodes node
      { n with nodes := Function.update n.nodes node (replica.applyDelta now d, known ∪ told) }

def run (n : System) (es : List Event) : System := es.foldl step n

/-- The stamps of a cell among some updates. -/
def stamps (K : Set Update) (sd : Side) (key elem : String) : Set CrdtMeta :=
  {m | ⟨key, sd, elem, m⟩ ∈ K}

/-- Two potentials are equal, or further apart than the tolerance. -/
def Apart (a b : CrdtMeta) : Prop :=
  a.lambdaPotential = b.lambdaPotential ∨
    lambdaTolerance < a.lambdaPotential - b.lambdaPotential ∨
    lambdaTolerance < b.lambdaPotential - a.lambdaPotential

/-- The order of tuples whose potentials are apart. -/
def rank (m : CrdtMeta) : ℚ ×ₗ ℤ ×ₗ ℚ ×ₗ String :=
  toLex (m.lambdaPotential, toLex (m.clockRank, toLex (m.timestamp, m.nodeId)))

lemma metaDominates_iff {a b : CrdtMeta} (h : Apart a b) :
    metaDominates a b = true ↔ rank b ≤ rank a := by
  have htol : 0 < lambdaTolerance := by unfold lambdaTolerance; norm_num
  unfold metaDominates crdtMetaDominates rank
  dsimp only
  simp only [Prod.Lex.toLex_le_toLex]
  rcases h with h | h | h
  · rw [if_neg (by linarith), if_neg (by linarith)]
    grind
  · rw [if_pos (by linarith)]
    exact iff_of_true rfl (Or.inl (by linarith))
  · rw [if_neg (by linarith), if_pos (by linarith)]
    exact iff_of_false Bool.false_ne_true fun hle => by
      rcases hle with hlt | ⟨heq, -⟩ <;> linarith

/-- In every cell the potentials are apart. -/
def Separated (U : Set Update) : Prop :=
  ∀ sd key elem, ∀ a ∈ stamps U sd key elem, ∀ b ∈ stamps U sd key elem, Apart a b

lemma linearOn_stamps {U : Set Update} (hU : Separated U) (sd : Side) (key elem : String) :
    LinearOn metaDominates (stamps U sd key elem) where
  antisymm := by
    rintro ⟨lam, c, t, i⟩ ha ⟨lam', c', t', i'⟩ hb hab hba
    have hle := (metaDominates_iff (hU sd key elem _ ha _ hb)).mp hab
    have hge := (metaDominates_iff (hU sd key elem _ hb _ ha)).mp hba
    have hrank := congrArg ofLex (le_antisymm hge hle)
    simp only [rank, ofLex_toLex, Prod.mk.injEq, EmbeddingLike.apply_eq_iff_eq] at hrank
    obtain ⟨rfl, rfl, rfl, rfl⟩ := hrank
    rfl
  trans a ha b hb c hc hab hbc := by
    rw [metaDominates_iff (hU sd key elem a ha b hb)] at hab
    rw [metaDominates_iff (hU sd key elem b hb c hc)] at hbc
    exact (metaDominates_iff (hU sd key elem a ha c hc)).mpr (hbc.trans hab)

/-- The cells hold the dominant stamps of the updates of `K`. -/
structure Reflects (U K : Set Update) (metaAt : Side → String → String → Option CrdtMeta) :
    Prop where
  subset : K ⊆ U
  cell : ∀ sd key elem, IsTop metaDominates (stamps K sd key elem) (metaAt sd key elem)

section Steps

variable {U K K' : Set Update} (hU : Separated U)

lemma reflects_singleton {u : Update} (hu : u ∈ U) : Reflects U {u} fun sd key elem =>
    if (u.key, u.side, u.elem) = (key, sd, elem) then some u.stamp else none where
  subset := Set.singleton_subset_iff.mpr hu
  cell sd key elem := by
    split_ifs with h
    · simp only [Prod.mk.injEq] at h
      obtain ⟨rfl, rfl, rfl⟩ := h
      refine ⟨rfl, fun m hm => ?_⟩
      rw [← show m = u.stamp from congrArg Update.stamp hm]
      exact (metaDominates_connex m m).elim id id
    · refine Set.eq_empty_iff_forall_notMem.mpr fun m hm => h ?_
      rw [← show _ = u from hm]

include hU in
lemma Reflects.join {metaAt metaAt' : Side → String → String → Option CrdtMeta}
    (h : Reflects U K metaAt) (h' : Reflects U K' metaAt') :
    Reflects U (K ∪ K') fun sd key elem =>
      (metaAt' sd key elem).elim (metaAt sd key elem) (keep metaDominates (metaAt sd key elem)) where
  subset := Set.union_subset h.subset h'.subset
  cell sd key elem := IsTop.join metaDominates_connex (linearOn_stamps hU sd key elem)
    (fun _ hm => h.subset hm) (fun _ hm => h'.subset hm) (h.cell sd key elem) (h'.cell sd key elem)

/-- What a replica holds reflects the updates that it knows of. -/
def Knows (U : Set Update) (p : DeltaCRDT × Set Update) : Prop :=
  p.1.NoTtl ∧ Reflects U p.2 fun sd key elem => p.1.metaAt sd key elem

/-- What a delta carries reflects the updates that it tells of. -/
def Tells (U : Set Update) (e : SyncDelta × Set Update) : Prop :=
  e.1.NoTtl ∧ Reflects U e.2 fun sd key elem => e.1.metaAt sd key elem

/-- Every replica and every delta reflects its updates. -/
structure Inv (U : Set Update) (n : System) : Prop where
  knows : ∀ node, Knows U (n.nodes node)
  tells : ∀ e ∈ n.sent, Tells U e

variable {s : DeltaCRDT}

include hU in
lemma Knows.write (h : Knows U (s, K)) {key : String} {sd : Side} {elem : String} {a : StampArgs}
    (hu : ⟨key, sd, elem, a.toMeta⟩ ∈ U) :
    Knows U (s.write key sd elem a, K ∪ {⟨key, sd, elem, a.toMeta⟩}) := by
  refine ⟨DeltaCRDT.noTtl_write h.1 key sd elem a, ?_⟩
  simp only [DeltaCRDT.metaAt_write]
  exact h.2.join hU (reflects_singleton hu)

include hU in
lemma Knows.applyDelta (h : Knows U (s, K)) {d : SyncDelta} (hd : Tells U (d, K')) (now : ℚ) :
    Knows U (s.applyDelta now d, K ∪ K') := by
  refine ⟨DeltaCRDT.noTtl_applyDelta h.1 hd.1 now, ?_⟩
  have hstep : ∀ sd key elem, (s.applyDelta now d).metaAt sd key elem =
      (d.metaAt sd key elem).elim (s.metaAt sd key elem)
        (keep metaDominates (s.metaAt sd key elem)) := by
    intro sd key elem
    rw [DeltaCRDT.metaAt_applyDelta h.1 hd.1, DominanceFold.step]
    cases d.metaAt sd key elem <;> rfl
  simp only [hstep]
  exact h.2.join hU hd.2

lemma Knows.exportDelta (h : Knows U (s, K)) : Tells U (s.exportDelta, K) := by
  refine ⟨DeltaCRDT.noTtl_exportDelta h.1, ?_⟩
  simp only [DeltaCRDT.metaAt_exportDelta]
  exact h.2

include hU in
/-- One step keeps the invariant. -/
lemma inv_step {n : System} (h : Inv U n) {e : Event} (he : e.updates ⊆ U) : Inv U (step n e) := by
  have hupdate : ∀ node p, Knows U p → ∀ node', Knows U (Function.update n.nodes node p node') :=
    fun node p hp => (Function.forall_update_iff n.nodes fun _ => Knows U).mpr
      ⟨hp, fun node' _ => h.knows node'⟩
  cases e with
  | write node key sd elem a =>
      exact ⟨hupdate node _ ((h.knows node).write hU (he rfl)), h.tells⟩
  | send node =>
      refine ⟨h.knows, fun e he => ?_⟩
      rcases List.mem_append.mp he with he | he
      · exact h.tells e he
      · rw [List.mem_singleton.mp he]
        exact (h.knows node).exportDelta
  | receive node now i =>
      unfold step
      dsimp only
      split
      · exact h
      · rename_i d told hsent
        exact ⟨hupdate node _ ((h.knows node).applyDelta hU
          (h.tells _ (List.mem_of_getElem? hsent)) now), h.tells⟩

end Steps

/-- The updates of a run. -/
def updates (es : List Event) : Set Update := {u | ∃ e ∈ es, u ∈ e.updates}

lemma inv_run {U : Set Update} (hU : Separated U) {n : System} (h : Inv U n) {es : List Event}
    (hes : updates es ⊆ U) : Inv U (run n es) := by
  induction es generalizing n with
  | nil => exact h
  | cons e es ih =>
      exact ih (inv_step hU h fun u hu => hes ⟨e, List.mem_cons_self, hu⟩)
        fun u ⟨e', he', hu⟩ => hes ⟨e', List.mem_cons_of_mem _ he', hu⟩

lemma inv_init (U : Set Update) : Inv U init where
  knows node := ⟨by rintro e ⟨⟩, Set.empty_subset U, fun _ _ _ => rfl⟩
  tells := by rintro e ⟨⟩

/-- **Strong eventual consistency.**  In a run in which the potentials of every cell are apart, every
replica holds in every cell the dominant stamp of the updates that it knows of, its own ones and
those that reached it through whatever replicas, in whatever order and how often.  Replicas that
know of the same updates agree. -/
theorem replicas_agree (es : List Event) (hseparated : Separated (updates es)) :
    (∀ node sd key elem, IsTop metaDominates (stamps ((run init es).nodes node).2 sd key elem)
      (((run init es).nodes node).1.metaAt sd key elem)) ∧
    ∀ node node', ((run init es).nodes node).2 = ((run init es).nodes node').2 →
      ∀ sd key elem, ((run init es).nodes node).1.metaAt sd key elem =
        ((run init es).nodes node').1.metaAt sd key elem := by
  have hinv : Inv (updates es) (run init es) := inv_run hseparated (inv_init _) le_rfl
  refine ⟨fun node sd key elem => (hinv.knows node).2.cell sd key elem,
    fun node node' hknown sd key elem => ?_⟩
  have hcell := (hinv.knows node).2.cell sd key elem
  rw [hknown] at hcell
  exact hcell.unique (linearOn_stamps hseparated sd key elem)
    (fun _ hm => (hinv.knows node').2.subset hm) ((hinv.knows node').2.cell sd key elem)

/-- Three nodes: what `a` writes reaches `c` through `b`, and then once more. -/
def relayed : List Event :=
  [.write "a" "k" .adds "x" { timestamp := 1 }, .write "b" "k" .adds "x" { timestamp := 2 },
    .send "a", .receive "b" 0 0, .send "b", .receive "c" 0 1, .receive "c" 0 0]

theorem replicas_agree_relayed : ((run init relayed).nodes "b").1.metaAt .adds "k" "x" =
    ((run init relayed).nodes "c").1.metaAt .adds "k" "x" := by
  refine (replicas_agree relayed ?_).2 "b" "c" ?_ .adds "k" "x"
  · have hpotential : ∀ u ∈ updates relayed, u.stamp.lambdaPotential = 1 := by
      rintro u ⟨e, he, hu⟩
      simp only [relayed, List.mem_cons, List.not_mem_nil, or_false] at he
      rcases he with rfl | rfl | rfl | rfl | rfl | rfl | rfl <;> cases hu <;> exact one_mul 1
    exact fun sd key elem a ha b hb => Or.inl ((hpotential _ ha).trans (hpotential _ hb).symm)
  · ext u
    simp [run, relayed, step, init, Function.update_of_ne]

end Gossiping

end AtlasMemory
