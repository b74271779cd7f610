import AtlasMemory.Sync.ReceivedSets

/-!
# Malformed deltas

`apply_delta` validates and merges the sets of a payload one at a time, and merges the clock after
the last one, so an exception leaves behind what the sets before it did.  `intact_iff` says when that
is nothing.  The table of peers is written last by `process_sync_response`, so it is unchanged
whenever that raises.
-/

namespace AtlasMemory

namespace Received

open PartialLoops

namespace DeltaCRDT

variable (cv : Conversions)

/-- Validate the set of an item of the payload. -/
abbrev checkSet (e : String × Json) : Except PyError CompactLWWSet := modelValidate cv e.2

/-- A well-formed set that the state already contains: merging it changes nothing. -/
def Absorbed (state : PyDict String CompactLWWSet) (e : String × Json) : Prop :=
  ∃ current incoming, state.get? e.1 = some current ∧ modelValidate cv e.2 = .ok incoming ∧
    current.merge incoming = current

/-- A set or a counter of the delta is malformed. -/
def Malformed (delta : SyncDelta) (sets : PyDict String Json) : Prop :=
  (∃ e ∈ sets.entries, ¬passes (checkSet cv) e) ∨ none ∈ delta.vectorClock.values

/-- An exception of `apply_delta` leaves the replica as it was. -/
def IntactOnRaise (s : DeltaCRDT) (now : ℚ) (delta : SyncDelta) : Prop :=
  ∀ err, (s.applyDelta cv now delta).2 = .error err → (s.applyDelta cv now delta).1 = s

/-- Where something of the delta is malformed, the sets before the first malformed one are already
contained in the state. -/
def PrefixAbsorbed (s : DeltaCRDT) (delta : SyncDelta) : Prop :=
  ∀ sets, stateItems delta.payload = .ok sets → Malformed cv delta sets →
    ∀ e ∈ validPrefix (checkSet cv) sets.entries, Absorbed cv s.state e

variable {cv}

/-- What an item that passes makes of the entry under its key. -/
def received (cv : Conversions) (current : Option CompactLWWSet) (data : Json) :
    Option CompactLWWSet :=
  match modelValidate cv data with
  | .error _ => current
  | .ok incoming => some (current.elim incoming (·.merge incoming))

lemma get?_applyChecked (state : PyDict String CompactLWWSet) (e : String × Json) (k : String) :
    (applyChecked (checkSet cv) applySet state e).get? k =
      if e.1 = k then received cv (state.get? k) e.2 else state.get? k := by
  unfold applyChecked received checkSet
  cases modelValidate cv e.2 with
  | error err => simp
  | ok incoming =>
      dsimp only
      unfold applySet
      by_cases hk : e.1 = k
      · subst hk
        cases state.get? e.1 <;> simp
      · cases state.get? e.1 <;> simp [PyDict.get?_set_of_ne, hk]

lemma applyChecked_of_absorbed {state : PyDict String CompactLWWSet} {e : String × Json}
    (h : Absorbed cv state e) : applyChecked (checkSet cv) applySet state e = state := by
  obtain ⟨current, incoming, hget, hvalid, hmerge⟩ := h
  rw [applyChecked, checkSet, hvalid]
  show applySet state e incoming = state
  rw [applySet, hget]
  show state.set e.1 (current.merge incoming) = state
  rw [hmerge]
  exact PyDict.set_eq_self_iff.mpr hget

/-- The well-formed sets of some items change nothing exactly when each is absorbed, as the items
have distinct keys. -/
lemma foldl_applyChecked_eq_iff {state : PyDict String CompactLWWSet} {l : List (String × Json)}
    (hl : (l.map Prod.fst).Nodup) (hpass : ∀ e ∈ l, ∃ incoming, checkSet cv e = .ok incoming) :
    l.foldl (applyChecked (checkSet cv) applySet) state = state ↔ ∀ e ∈ l, Absorbed cv state e := by
  constructor
  · intro h e he
    obtain ⟨incoming, hvalid⟩ : ∃ incoming, modelValidate cv e.2 = .ok incoming := hpass e he
    have hget := PyDict.get?_foldl_of_pointwise (@get?_applyChecked cv) hl state e.1
    rw [h, PyDict.find_of_mem hl he] at hget
    have hentry : state.get? e.1 =
        some ((state.get? e.1).elim incoming (·.merge incoming)) := by
      have hreceived : received cv (state.get? e.1) e.2 =
          some ((state.get? e.1).elim incoming (·.merge incoming)) := by
        rw [received, hvalid]
      exact hget.trans hreceived
    cases hcurrent : state.get? e.1 with
    | none =>
        rw [hcurrent] at hentry
        exact nomatch hentry
    | some current =>
        rw [hcurrent] at hentry
        exact ⟨current, incoming, hcurrent, hvalid, (Option.some.inj hentry).symm⟩
  · intro h
    clear hl hpass
    induction l with
    | nil => rfl
    | cons e es ih =>
        rw [List.foldl_cons, applyChecked_of_absorbed (h e List.mem_cons_self)]
        exact ih fun e' he' => h e' (List.mem_cons_of_mem _ he')

/-- The state that a raising `apply_delta` leaves behind. -/
lemma applyDelta_of_malformed (s : DeltaCRDT) (now : ℚ) {delta : SyncDelta}
    {sets : PyDict String Json} (hsets : stateItems delta.payload = .ok sets)
    (hmal : Malformed cv delta sets) :
    (s.applyDelta cv now delta).1 = { s with
      state := (validPrefix (checkSet cv) sets.entries).foldl
        (applyChecked (checkSet cv) applySet) s.state } ∧
      ∃ err, (s.applyDelta cv now delta).2 = .error err := by
  have hstate := @fst_run _ _ _ _ (checkSet cv) applySet s.state sets.entries
  have hraises := @raises_iff _ _ _ _ (checkSet cv) applySet s.state sets.entries
  rw [← hstate]
  unfold applyDelta applySets
  rw [hsets]
  dsimp only
  generalize PartialLoops.run (checkSet cv) applySet s.state sets.entries = result at hraises ⊢
  obtain ⟨state, err | ⟨⟩⟩ := result
  · exact ⟨rfl, err, rfl⟩
  · dsimp only
    have hclock : none ∈ delta.vectorClock.values := by
      rcases hmal with hset | hclock
      · obtain ⟨err, herr⟩ := hraises.mpr hset
        exact nomatch herr
      · exact hclock
    rw [mergeClock, if_pos hclock]
    exact ⟨rfl, _, rfl⟩

lemma applyDelta_of_not_malformed (s : DeltaCRDT) (now : ℚ) {delta : SyncDelta}
    {sets : PyDict String Json} (hsets : stateItems delta.payload = .ok sets)
    (hok : ¬Malformed cv delta sets) :
    ∃ clock, (s.applyDelta cv now delta).2 = .ok clock := by
  rw [Malformed, not_or] at hok
  have hraises := @raises_iff _ _ _ _ (checkSet cv) applySet s.state sets.entries
  unfold applyDelta applySets
  rw [hsets]
  dsimp only
  generalize PartialLoops.run (checkSet cv) applySet s.state sets.entries = result at hraises ⊢
  obtain ⟨state, err | ⟨⟩⟩ := result
  · exact absurd (hraises.mp ⟨err, rfl⟩) hok.1
  · dsimp only
    rw [mergeClock, if_neg hok.2]
    exact ⟨_, rfl⟩

/-- An exception of `apply_delta` leaves the replica as it was exactly when what was merged before
it was already there. -/
lemma intactOnRaise_iff (s : DeltaCRDT) (now : ℚ) (delta : SyncDelta) :
    IntactOnRaise cv s now delta ↔ PrefixAbsorbed cv s delta := by
  unfold IntactOnRaise PrefixAbsorbed
  cases hsets : stateItems delta.payload with
  | error err =>
      refine iff_of_true (fun _ _ => ?_) nofun
      unfold applyDelta
      rw [hsets]
  | ok sets =>
      by_cases hmal : Malformed cv delta sets
      · obtain ⟨hleft, err, hraise⟩ := applyDelta_of_malformed s now hsets hmal
        have hnodup : ((validPrefix (checkSet cv) sets.entries).map Prod.fst).Nodup :=
          List.Nodup.sublist ((List.takeWhile_sublist _).map Prod.fst) sets.nodupKeys
        have hfold := @foldl_applyChecked_eq_iff cv s.state _ hnodup
          fun e he => passes_of_mem_validPrefix he
        constructor
        · intro h sets' hsets' _
          obtain rfl := Except.ok.inj hsets'
          have hsame := congrArg DeltaCRDT.state (hleft.symm.trans (h err hraise))
          exact hfold.mp hsame
        · intro h _ _
          rw [hleft, hfold.mpr (h sets rfl hmal)]
      · obtain ⟨clock, hok⟩ := applyDelta_of_not_malformed s now hsets hmal
        refine iff_of_true (fun err herr => nomatch hok.symm.trans herr) ?_
        intro sets' hsets' hmal'
        obtain rfl := Except.ok.inj hsets'
        exact absurd hmal' hmal

end DeltaCRDT

/-! ## The receiver -/

/-- `GossipProtocol` as the receiver of requests, with its in-memory replica. -/
structure Receiver (β : Type) where
  gossip : GossipReceiver β
  crdt : DeltaCRDT

namespace Receiver

variable {β : Type}

/-- The delta of an opened request, for the in-memory replica. -/
def replicaDelta (delta : ReceivedDelta) : SyncDelta :=
  ⟨delta.vectorClock.clocks.mapValues some, delta.payload⟩

/-- `process_sync_response`.  Inside a running event loop the mutations are left to a task, and the
exceptions of the task are not seen here. -/
def processSyncResponse (r : Receiver β) (cv : Conversions) (prim : Primitives β) (writer : Writer)
    (loopRunning : Bool) (request : String) (times : ℕ → ℚ) (now : ℚ) :
    Receiver β × Except PyError (ReceivedDelta × String) :=
  match r.gossip.openRequest cv.rt prim request with
  | .error err => (r, .error err)
  | .ok opened =>
    if r.gossip.bridge.isSome && opened.applied.isSome then
      if loopRunning then
        ({ r with gossip := (r.gossip.finish opened now).1 }, (r.gossip.finish opened now).2)
      else
        let (gossip, _, result) :=
          r.gossip.processSyncResponse cv.rt prim writer request times now
        ({ r with gossip }, result)
    else
      match r.crdt.applyDelta cv now (replicaDelta opened.delta) with
      | (crdt, .error err) => ({ r with crdt }, .error err)
      | (crdt, .ok _) => (⟨(r.gossip.finish opened now).1, crdt⟩, (r.gossip.finish opened now).2)

/-- The peers after a request that is not accepted are those before it. -/
def PeersKept (r : Receiver β) (cv : Conversions) (prim : Primitives β) (writer : Writer)
    (loopRunning : Bool) (request : String) (times : ℕ → ℚ) (now : ℚ) : Prop :=
  ∀ err, (r.processSyncResponse cv prim writer loopRunning request times now).2 = .error err →
    (r.processSyncResponse cv prim writer loopRunning request times now).1.gossip.peers =
      r.gossip.peers

lemma peers_finish_of_error {g : GossipReceiver β} {opened : OpenedRequest β} {now : ℚ}
    {err : PyError} (h : (g.finish opened now).2 = .error err) :
    (g.finish opened now).1.peers = g.peers := by
  unfold GossipReceiver.finish at h ⊢
  split at h
  · exact nomatch h
  · rfl

lemma peers_processSyncResponse_of_error {g : GossipReceiver β} {rt : Runtime}
    {prim : Primitives β} {writer : Writer} {request : String} {times : ℕ → ℚ} {now : ℚ}
    {err : PyError} (h : (g.processSyncResponse rt prim writer request times now).2.2 = .error err) :
    (g.processSyncResponse rt prim writer request times now).1.peers = g.peers := by
  unfold GossipReceiver.processSyncResponse at h ⊢
  split at h
  · rfl
  · split at h
    · generalize StateSyncBridge.applyReceivedPayload _ _ _ _ _ = applied at h ⊢
      obtain ⟨bridge, writes, err' | ⟨⟩⟩ := applied
      · rfl
      · exact (peers_finish_of_error h).trans rfl
    · exact peers_finish_of_error h

/-- The table of peers is written last, so it is kept when an exception is raised. -/
lemma peersKept (r : Receiver β) (cv : Conversions) (prim : Primitives β) (writer : Writer)
    (loopRunning : Bool) (request : String) (times : ℕ → ℚ) (now : ℚ) :
    r.PeersKept cv prim writer loopRunning request times now := by
  intro err h
  unfold processSyncResponse at h ⊢
  split at h
  · rfl
  · split_ifs at h ⊢
    · exact peers_finish_of_error h
    · exact peers_processSyncResponse_of_error h
    · split at h
      · rfl
      · exact peers_finish_of_error h

end Receiver

namespace DeltaCRDT

/-- **Malformed deltas.**  An exception of `apply_delta` leaves the replica as it was exactly when
the sets before the first malformed one, or all of them when a counter is malformed, were already
contained in it; an exception of `process_sync_response` always leaves the peers as they were. -/
theorem intact_iff (cv : Conversions) :
    (∀ (s : DeltaCRDT) (now : ℚ) (delta : SyncDelta),
      IntactOnRaise cv s now delta ↔ PrefixAbsorbed cv s delta) ∧
      ∀ (β : Type) (r : Receiver β) (prim : Primitives β) (writer : Writer) (loopRunning : Bool)
        (request : String) (times : ℕ → ℚ) (now : ℚ),
        r.PeersKept cv prim writer loopRunning request times now :=
  ⟨intactOnRaise_iff, fun _ r => r.peersKept cv⟩

/-- A payload with a well-formed set and one whose time stamp is no number. -/
def halfMalformed : SyncDelta where
  vectorClock := ∅
  payload := .obj [("state", .obj
    [("a", .obj [("adds", .obj [("x", .arr [.str "1.0", .str "n"])])]),
      ("b", .obj [("adds", .obj [("y", .arr [.null, .str "n"])])])])]

/-- The first set of the payload stays in the replica when the second one raises. -/
theorem halfMalformed_not_intact :
    ¬IntactOnRaise ⟨Runtime.sample, fun _ => none⟩ ⟨"n", .single "n" 0, ∅⟩ 0 halfMalformed := by
  intro h
  have hraise : (applyDelta ⟨Runtime.sample, fun _ => none⟩ ⟨"n", .single "n" 0, ∅⟩ 0
      halfMalformed).2.isOk = false := by decide
  have hstate : (applyDelta ⟨Runtime.sample, fun _ => none⟩ ⟨"n", .single "n" 0, ∅⟩ 0
      halfMalformed).1 ≠ ⟨"n", .single "n" 0, ∅⟩ := by decide
  cases hresult : (applyDelta ⟨Runtime.sample, fun _ => none⟩ ⟨"n", .single "n" 0, ∅⟩ 0
      halfMalformed).2 with
  | error err => exact hstate (h err hresult)
  | ok clock =>
      rw [hresult] at hraise
      exact nomatch hraise

end DeltaCRDT

end Received

end AtlasMemory
