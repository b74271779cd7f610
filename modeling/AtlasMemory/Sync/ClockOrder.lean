import AtlasMemory.Sync.Attribution
import Mathlib.Data.Int.ConditionallyCompleteOrder
import Mathlib.Order.Defs.Unbundled
import Mathlib.Order.Basic

/-!
# The order of the clocks and the conflicts between peers

`happens_before` is the strict order of the counters of all nodes, a missing counter being zero.
`concurrent` excludes equal clocks by comparing the two dictionaries, and these tell a missing
counter from a zero.  So a pair of clocks is in exactly one relation, and a reported peer is one
that neither clock dominates, exactly when clocks with the same counters have them under the same
keys: `clockOrder_iff`.  A replica starts with an explicit zero, and a peer without any counter.
-/

namespace AtlasMemory

namespace CompactVectorClock

/-- `self.clocks == other_clocks`, without regard to the order of the keys. -/
def sameDict (c other : CompactVectorClock) : Bool :=
  (c.clocks.keys ++ other.clocks.keys).all fun k => c.clocks.get? k = other.clocks.get? k

/-- `concurrent`. -/
def concurrent (c other : CompactVectorClock) : Bool :=
  if c.sameDict other then false else !c.happensBefore other && !other.happensBefore c

/-- The components of two clocks are equal. -/
def Same (c other : CompactVectorClock) : Prop := c.get = other.get

/-- No component of a clock is behind that of the other. -/
def Dominates (c other : CompactVectorClock) : Prop := other.get ≤ c.get

/-- The ways in which two clocks can be related. -/
inductive Relation
  | same
  | before
  | after
  | concurrent

/-- Two clocks are related in a way. -/
def Related (c other : CompactVectorClock) : Relation → Prop
  | .same => c.Same other
  | .before => c.happensBefore other
  | .after => other.happensBefore c
  | .concurrent => c.concurrent other

variable {c other : CompactVectorClock}

lemma sameDict_iff : c.sameDict other ↔ c.clocks.Agree other.clocks := by
  unfold sameDict
  rw [List.all_eq_true]
  constructor
  · intro h k
    by_cases hk : k ∈ c.clocks.keys ++ other.clocks.keys
    · exact of_decide_eq_true (h k hk)
    · rw [List.mem_append, not_or] at hk
      rw [PyDict.get?_eq_none_iff.mpr hk.1, PyDict.get?_eq_none_iff.mpr hk.2]
  · intro h k _
    exact decide_eq_true (h k)

lemma same_of_agree (h : c.clocks.Agree other.clocks) : c.Same other := by
  funext k
  show (c.clocks.get? k).getD 0 = (other.clocks.get? k).getD 0
  rw [h k]

/-- `happens_before` is the order of the functions from nodes to counters. -/
lemma happensBefore_iff_lt : c.happensBefore other ↔ c.get < other.get := by
  rw [happensBefore_iff, Pi.lt_def]
  exact Iff.rfl

lemma concurrent_iff : c.concurrent other ↔
    ¬c.clocks.Agree other.clocks ∧ ¬c.get < other.get ∧ ¬other.get < c.get := by
  rw [← sameDict_iff, ← happensBefore_iff_lt, ← happensBefore_iff_lt, concurrent]
  split_ifs with h
  · simp [h]
  · simp [h]

/-- Clocks with different components are concurrent when neither dominates the other. -/
lemma concurrent_iff_of_not_same (h : ¬c.Same other) :
    c.concurrent other ↔ ¬c.Dominates other ∧ ¬other.Dominates c := by
  have hdict : ¬c.clocks.Agree other.clocks := fun hagree => h (same_of_agree hagree)
  have hlt : c.get < other.get ↔ c.get ≤ other.get := (Ne.le_iff_lt h).symm
  have hgt : other.get < c.get ↔ other.get ≤ c.get := (Ne.le_iff_lt (Ne.symm h)).symm
  rw [concurrent_iff, and_iff_right hdict, hlt, hgt]
  exact and_comm

/-- Clocks with equal components are concurrent when their dictionaries differ. -/
lemma concurrent_iff_of_same (h : c.Same other) :
    c.concurrent other ↔ ¬c.clocks.Agree other.clocks := by
  have heq : c.get = other.get := h
  rw [concurrent_iff, heq]
  exact and_iff_left ⟨lt_irrefl _, lt_irrefl _⟩

/-- Two clocks are related in exactly one way when equal components are equal dictionaries. -/
lemma existsUnique_related_iff : (∃! r, c.Related other r) ↔
    (c.Same other → c.clocks.Agree other.clocks) := by
  by_cases hsame : c.Same other
  · have hbefore : ¬c.happensBefore other := by
      rw [happensBefore_iff_lt]
      exact not_lt_of_ge (ge_of_eq hsame)
    have hafter : ¬other.happensBefore c := by
      rw [happensBefore_iff_lt]
      exact not_lt_of_ge (le_of_eq hsame)
    constructor
    · rintro ⟨r, -, hunique⟩ _
      by_contra hdict
      have hconc := hunique .concurrent ((concurrent_iff_of_same hsame).mpr hdict)
      have hequal := hunique .same hsame
      exact nomatch hconc.trans hequal.symm
    · intro hdict
      refine ⟨.same, hsame, ?_⟩
      rintro (_ | _ | _ | _) hr
      · rfl
      · exact absurd hr hbefore
      · exact absurd hr hafter
      · exact absurd (hdict hsame) ((concurrent_iff_of_same hsame).mp hr)
  · refine iff_of_true ?_ fun h => absurd h hsame
    have hconc := @concurrent_iff_of_not_same c other hsame
    by_cases hle : c.get ≤ other.get
    · have hlt : c.get < other.get := lt_of_le_of_ne hle hsame
      refine ⟨.before, happensBefore_iff_lt.mpr hlt, ?_⟩
      rintro (_ | _ | _ | _) hr
      · exact absurd hr hsame
      · rfl
      · exact absurd (happensBefore_iff_lt.mp hr) (lt_asymm hlt)
      · exact absurd hle (hconc.mp hr).2
    · by_cases hge : other.get ≤ c.get
      · have hgt : other.get < c.get := lt_of_le_of_ne hge (Ne.symm hsame)
        refine ⟨.after, happensBefore_iff_lt.mpr hgt, ?_⟩
        rintro (_ | _ | _ | _) hr
        · exact absurd hr hsame
        · exact absurd (happensBefore_iff_lt.mp hr) (lt_asymm hgt)
        · rfl
        · exact absurd hge (hconc.mp hr).1
      · refine ⟨.concurrent, hconc.mpr ⟨hge, hle⟩, ?_⟩
        rintro (_ | _ | _ | _) hr
        · exact absurd hr hsame
        · exact absurd (le_of_lt (happensBefore_iff_lt.mp hr)) hle
        · exact absurd (le_of_lt (happensBefore_iff_lt.mp hr)) hge
        · rfl

/-- `happens_before` is a strict partial order. -/
lemma isStrictOrder_happensBefore :
    IsStrictOrder CompactVectorClock fun c other => c.happensBefore other where
  irrefl c h := lt_irrefl c.get (happensBefore_iff_lt.mp h)
  trans _ _ _ hab hbc :=
    happensBefore_iff_lt.mpr ((happensBefore_iff_lt.mp hab).trans (happensBefore_iff_lt.mp hbc))

end CompactVectorClock

/-! ## Conflicts -/

/-- A reported conflict. -/
structure Conflict where
  peerId : String
  type : String
  localClock : CompactVectorClock
  peerClock : CompactVectorClock

namespace GossipReceiver

variable {β : Type}

/-- The clock of the bridge, or of the in-memory replica where there is no bridge. -/
def clockSource (g : GossipReceiver β) (crdt : DeltaCRDT) : CompactVectorClock :=
  match g.bridge with
  | some bridge => bridge.clock
  | none => crdt.clock

/-- `detect_conflicts`. -/
def detectConflicts (g : GossipReceiver β) (crdt : DeltaCRDT) : List Conflict :=
  g.peers.entries.filterMap fun peer =>
    if (g.clockSource crdt).concurrent peer.2.vectorClock then
      some ⟨peer.1, "concurrent_clock", g.clockSource crdt, peer.2.vectorClock⟩
    else none

/-- Every reported peer has a clock that neither dominates the local one nor is dominated. -/
def ReportsIncomparable (g : GossipReceiver β) (crdt : DeltaCRDT) : Prop :=
  ∀ conflict ∈ g.detectConflicts crdt,
    ¬conflict.localClock.Dominates conflict.peerClock ∧
      ¬conflict.peerClock.Dominates conflict.localClock

variable {g : GossipReceiver β} {crdt : DeltaCRDT}

lemma mem_detectConflicts_iff {conflict : Conflict} : conflict ∈ g.detectConflicts crdt ↔
    ∃ peer ∈ g.peers.entries, (g.clockSource crdt).concurrent peer.2.vectorClock ∧
      conflict = ⟨peer.1, "concurrent_clock", g.clockSource crdt, peer.2.vectorClock⟩ := by
  unfold detectConflicts
  rw [List.mem_filterMap]
  refine exists_congr fun peer => and_congr_right fun _ => ?_
  split_ifs with h
  · simp [h, eq_comm]
  · simp [h]

lemma reportsIncomparable_iff : g.ReportsIncomparable crdt ↔ ∀ peer ∈ g.peers.entries,
    (g.clockSource crdt).Same peer.2.vectorClock →
      (g.clockSource crdt).clocks.Agree peer.2.vectorClock.clocks := by
  constructor
  · intro h peer hpeer hsame
    by_contra hdict
    have hconc := (CompactVectorClock.concurrent_iff_of_same hsame).mpr hdict
    have hreport := h _ (mem_detectConflicts_iff.mpr ⟨peer, hpeer, hconc, rfl⟩)
    exact hreport.1 (ge_of_eq hsame)
  · intro h conflict hconflict
    obtain ⟨peer, hpeer, hconc, rfl⟩ := mem_detectConflicts_iff.mp hconflict
    have hsame : ¬(g.clockSource crdt).Same peer.2.vectorClock := fun hsame =>
      (CompactVectorClock.concurrent_iff_of_same hsame).mp hconc (h peer hpeer hsame)
    exact (CompactVectorClock.concurrent_iff_of_not_same hsame).mp hconc

end GossipReceiver

/-! ## The order and its use -/

namespace CompactVectorClock

/-- **The order of the clocks.**  `happens_before` is a strict partial order.  Two clocks are
related in exactly one way, and a receiver reports only peers that neither clock dominates, exactly
when clocks with the same components have the same dictionaries. -/
theorem clockOrder_iff (c other : CompactVectorClock) {β : Type} (g : GossipReceiver β)
    (crdt : DeltaCRDT) :
    IsStrictOrder CompactVectorClock (fun c other => c.happensBefore other) ∧
      ((∃! r, c.Related other r) ↔ (c.Same other → c.clocks.Agree other.clocks)) ∧
      (g.ReportsIncomparable crdt ↔ ∀ peer ∈ g.peers.entries,
        (g.clockSource crdt).Same peer.2.vectorClock →
          (g.clockSource crdt).clocks.Agree peer.2.vectorClock.clocks) :=
  ⟨isStrictOrder_happensBefore, existsUnique_related_iff, GossipReceiver.reportsIncomparable_iff⟩

/-- A new replica and a peer that was registered without a clock have the same components, and are
reported as concurrent. -/
theorem fresh_replica_concurrent :
    (single "a" 0).Same ⟨∅⟩ ∧ (single "a" 0).concurrent ⟨∅⟩ ∧
      ¬∃! r, (single "a" 0).Related ⟨∅⟩ r := by
  have hsame : (single "a" 0).Same ⟨∅⟩ := by
    funext k
    by_cases hk : "a" = k
    · rw [← hk, get_single_self]
      rfl
    · rw [get_single_of_ne 0 hk]
      rfl
  have hconc : (single "a" 0).concurrent ⟨∅⟩ := by decide
  refine ⟨hsame, hconc, ?_⟩
  rintro ⟨r, -, hunique⟩
  have hboth := (hunique .same hsame).trans (hunique .concurrent hconc).symm
  exact nomatch hboth

end CompactVectorClock

end AtlasMemory
