import AtlasMemory.Sync.Crdt

/-!
# Tombstone collection and membership

An element is in a set when its add tuple dominates its tombstone, by potential first.  The
collection looks at time stamps only: it drops an expired tombstone, and the add tuple with it when
that is as old.  `lookup_gc_iff` says when the membership of an element survives: an expired
tombstone must dominate exactly the add tuples that are dropped with it.
-/

namespace AtlasMemory

namespace CompactLWWSet

/-- `lookup`. -/
def lookup (s : CompactLWWSet) (element : String) : Bool :=
  match s.adds.get? element, s.removes.get? element with
  | none, _ => false
  | some _, none => true
  | some addMeta, some remMeta => crdtMetaDominates addMeta (some remMeta)

/-- The metadata tuple that `add` and `remove` make, without a vector clock. -/
def elementMeta (timestamp : ℚ) (nodeId : String) (precision confidence : ℚ) : CrdtMeta :=
  ⟨precision * confidence, 0, timestamp, nodeId⟩

/-- `add`. -/
def add (s : CompactLWWSet) (element : String) (m : CrdtMeta) : CompactLWWSet :=
  { s with adds := mergeMeta s.adds (element, m) }

/-- `remove`. -/
def remove (s : CompactLWWSet) (element : String) (m : CrdtMeta) : CompactLWWSet :=
  { s with removes := mergeMeta s.removes (element, m) }

/-- The tombstone of an element, if the collection finds it expired. -/
def expired (s : CompactLWWSet) (now : ℚ) (element : String) : Option CrdtMeta :=
  s.tombstoneTtlSeconds.bind fun ttl =>
    (s.removes.get? element).filter fun m => decide (m.timestamp < now - ttl)

/-- The add tuple is as old as an expired tombstone. -/
def AsOld (s : CompactLWWSet) (now : ℚ) (addMeta : CrdtMeta) : Prop :=
  ∃ ttl, s.tombstoneTtlSeconds = some ttl ∧ addMeta.timestamp < now - ttl

/-- An expired tombstone dominates the add tuple of its element exactly when that is as old. -/
def GcKeeps (s : CompactLWWSet) (now : ℚ) (element : String) : Prop :=
  ∀ remMeta addMeta, s.expired now element = some remMeta → s.adds.get? element = some addMeta →
    (s.AsOld now addMeta ↔ metaDominates addMeta remMeta = false)

variable {s : CompactLWWSet} {now : ℚ} {element : String}

lemma get?_removes_gc : (s.gc now).1.removes.get? element =
    if (s.expired now element).isSome then none else s.removes.get? element := by
  unfold gc expired
  cases s.tombstoneTtlSeconds with
  | none => rfl
  | some ttl =>
      dsimp only [Option.bind_some]
      rw [PyDict.get?_filter]
      cases s.removes.get? element with
      | none => rfl
      | some m =>
          by_cases hold : m.timestamp < now - ttl
          · simp only [Option.filter_some, hold, decide_true, Bool.not_true, Bool.false_eq_true,
              if_false, if_true, Option.isSome_some]
          · simp only [Option.filter_some, hold, decide_false, Bool.not_false, Bool.false_eq_true,
              if_false, if_true, Option.isSome_none]

lemma get?_adds_gc_of_not_expired (h : s.expired now element = none) :
    (s.gc now).1.adds.get? element = s.adds.get? element := by
  unfold gc
  unfold expired at h
  cases httl : s.tombstoneTtlSeconds with
  | none => rfl
  | some ttl =>
      rw [httl, Option.bind_some] at h
      dsimp only
      have hkept : element ∉ (s.removes.filter fun _ m => decide (m.timestamp < now - ttl)).keys := by
        rw [← PyDict.get?_eq_none_iff, PyDict.get?_filter]
        exact h
      rw [PyDict.get?_filter]
      cases s.adds.get? element with
      | none => rfl
      | some m => simp [hkept]

/-- With an expired tombstone the add tuple is dropped when it is as old. -/
lemma get?_adds_gc_of_expired {remMeta addMeta : CrdtMeta}
    (h : s.expired now element = some remMeta) (hadd : s.adds.get? element = some addMeta) :
    ((s.gc now).1.adds.get? element).isSome ↔ ¬s.AsOld now addMeta := by
  unfold expired at h
  obtain ⟨ttl, httl, hrem⟩ := Option.bind_eq_some_iff.mp h
  have hold : s.AsOld now addMeta ↔ addMeta.timestamp < now - ttl := by
    unfold AsOld
    simp [httl]
  have hdropped : element ∈ (s.removes.filter fun _ m => decide (m.timestamp < now - ttl)).keys := by
    rw [PyDict.mem_keys_iff, PyDict.get?_filter, hrem]
    rfl
  unfold gc
  rw [httl, hold]
  dsimp only
  rw [PyDict.get?_filter, hadd]
  by_cases hlt : addMeta.timestamp < now - ttl <;> simp [hlt, hdropped]

lemma get?_removes_of_expired {remMeta : CrdtMeta} (h : s.expired now element = some remMeta) :
    s.removes.get? element = some remMeta := by
  unfold expired at h
  obtain ⟨ttl, -, hrem⟩ := Option.bind_eq_some_iff.mp h
  exact (Option.filter_eq_some_iff.mp hrem).1

lemma lookup_of_no_add (h : s.adds.get? element = none) : s.lookup element = false := by
  rw [lookup, h]

lemma lookup_of_no_tombstone (h : s.removes.get? element = none) :
    s.lookup element = (s.adds.get? element).isSome := by
  rw [lookup, h]
  cases s.adds.get? element <;> rfl

lemma lookup_of_both {remMeta addMeta : CrdtMeta} (hadd : s.adds.get? element = some addMeta)
    (hrem : s.removes.get? element = some remMeta) :
    s.lookup element = metaDominates addMeta remMeta := by
  rw [lookup, hadd, hrem]
  rfl

/-- **The collection preserves the membership of an element** exactly when an expired tombstone
dominates just the add tuples that are dropped with it. -/
theorem lookup_gc_iff (s : CompactLWWSet) (now : ℚ) (element : String) :
    (s.gc now).1.lookup element = s.lookup element ↔ s.GcKeeps now element := by
  cases hexp : s.expired now element with
  | none =>
      have hadds := get?_adds_gc_of_not_expired hexp
      have hremoves : (s.gc now).1.removes.get? element = s.removes.get? element := by
        rw [get?_removes_gc, hexp]
        rfl
      refine iff_of_true ?_ fun _ _ hsome _ => nomatch hexp.symm.trans hsome
      rw [lookup, lookup, hadds, hremoves]
  | some remMeta =>
      have hgone : (s.gc now).1.removes.get? element = none := by
        rw [get?_removes_gc, hexp]
        rfl
      rw [lookup_of_no_tombstone hgone]
      cases hadd : s.adds.get? element with
      | none =>
          have hnone : (s.gc now).1.adds.get? element = none := by
            unfold gc
            split
            · exact hadd
            · dsimp only
              rw [PyDict.get?_filter, hadd]
              rfl
          refine iff_of_true ?_ fun _ _ _ hsome => nomatch hadd.symm.trans hsome
          rw [hnone, lookup_of_no_add hadd]
          rfl
      | some addMeta =>
          have hkept := get?_adds_gc_of_expired hexp hadd
          have hkeeps : s.GcKeeps now element ↔
              (s.AsOld now addMeta ↔ metaDominates addMeta remMeta = false) := by
            constructor
            · exact fun h => h remMeta addMeta hexp hadd
            · intro h r a hr ha
              obtain rfl := Option.some.inj (hexp.symm.trans hr)
              obtain rfl := Option.some.inj (hadd.symm.trans ha)
              exact h
          rw [hkeeps, lookup_of_both hadd (get?_removes_of_expired hexp), Bool.eq_iff_iff, hkept,
            ← Bool.not_eq_true]
          tauto

/-- A set whose element `x` was removed at time 0 and added with twice the potential at time 1. -/
def readded : CompactLWWSet :=
  ((⟨∅, ∅, some 10⟩ : CompactLWWSet).remove "x" (elementMeta 0 "a" (1 / 2) 1)).add "x"
    (elementMeta 1 "a" 1 1)

/-- A set whose element `x` was removed at time 0 and added with half the potential at time 95. -/
def outweighed : CompactLWWSet :=
  ((⟨∅, ∅, some 10⟩ : CompactLWWSet).remove "x" (elementMeta 0 "a" 1 1)).add "x"
    (elementMeta 95 "a" (1 / 2) 1)

/-- The collection drops a present element, and brings back a removed one. -/
theorem membership_changed_by_gc :
    (readded.lookup "x" = true ∧ (readded.gc 100).1.lookup "x" = false) ∧
      outweighed.lookup "x" = false ∧ (outweighed.gc 100).1.lookup "x" = true := by
  decide +kernel

end CompactLWWSet

end AtlasMemory
