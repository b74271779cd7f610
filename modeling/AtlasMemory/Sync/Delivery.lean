import AtlasMemory.Foundations.VectorClocks
import AtlasMemory.Sync.Bridge

/-!
# Staleness and delivery

A network of bridges that write to their stores, export batches and receive each other's deltas.
Any number of bridges may take part, a delta may be delivered late, never or twice, and what a
bridge has received it may export again under a clock of its own.

A delta is rejected as stale when the receiver's clock dominates the delta's.  In every run the
clocks of the network are vector clocks in the sense of `VectorClocks`, so dominance comes down to
the counter of the sender (`rejectsAsStale_eq_false_iff`): a batch is processed exactly if its own
counter is beyond that of everything received before, whoever sent it.  A batch carries a slice of
the log and not all that its clock covers, so batches that overtake each other are lost.
-/

namespace AtlasMemory

/-! ## Clocks of deltas -/

namespace Delta

/-- The clock of the delta as a receiver reads it. -/
def clock (d : Delta) : CompactVectorClock := CompactVectorClock.modelValidate d.vectorClock

/-- The receiver finds no counter in the clock of the delta. -/
def Clockless (d : Delta) : Prop := d.clock.clocks.entries = []

instance (d : Delta) : Decidable d.Clockless := by unfold Clockless; infer_instance

def stamp (d : Delta) : VectorClocks.Stamp String := ⟨d.sourceNode, d.clock.get⟩

lemma get_of_clockless {d : Delta} (h : d.Clockless) (k : String) : d.clock.get k = 0 := by
  rw [CompactVectorClock.get, PyDict.getD, PyDict.get?, h]
  rfl

end Delta

/-- A missing counter is zero, so a clock with counters is dominated exactly if every lookup is. -/
lemma isStale_iff {own peer : CompactVectorClock} (hown : ∀ k, 0 ≤ own.get k) :
    StateSyncBridge.isStale own peer = true ↔
      peer.clocks.entries ≠ [] ∧ ∀ k, peer.get k ≤ own.get k := by
  have hget : ∀ {k : String} {v : ℤ}, (k, v) ∈ peer.clocks.entries → peer.get k = v := by
    intro k v hmem
    rw [CompactVectorClock.get, PyDict.getD, PyDict.mem_entries_iff.mp hmem]
    rfl
  simp only [StateSyncBridge.isStale, Bool.and_eq_true, Bool.not_eq_true', List.isEmpty_eq_false_iff,
    List.all_eq_true, decide_eq_true_eq, ne_eq]
  refine and_congr_right fun _ => ⟨fun hall k => ?_, ?_⟩
  · cases hk : peer.clocks.get? k with
    | none =>
        have hzero : peer.get k = 0 := by rw [CompactVectorClock.get, PyDict.getD, hk]; rfl
        rw [hzero]
        exact hown k
    | some v =>
        have hmem := PyDict.mem_entries_iff.mpr hk
        rw [hget hmem]
        exact hall (k, v) hmem
  · rintro hall ⟨k, v⟩ hmem
    rw [← hget hmem]
    exact hall k

/-! ## The network -/

/-- The bridges by node id, the deltas exported so far, and what was delivered to each node, in
order. -/
structure Network where
  bridges : String → StateSyncBridge
  sent : List Delta
  received : String → List Delta

/-- A step of the network. -/
inductive NetAction
  | localCall (node : String) (c : KvCall)
  | exportBatch (node : String) (sinceSeq limit : ℤ)
  | deliver (node : String) (index : ℕ) (times : ℕ → ℚ)

namespace Network

variable (rt : Runtime)

/-- Bridges over arbitrary stores, with fresh clocks. -/
def init (stores : String → VerifiedKVStore) : Network where
  bridges n := .init (stores n) n
  sent := []
  received _ := []

def setBridge (net : Network) (node : String) (b : StateSyncBridge) : Network :=
  { net with bridges := fun n => if n = node then b else net.bridges n }

/-- A step; the delivery of a delta that does not exist does nothing. -/
def step (net : Network) : NetAction → Network
  | .localCall node c => net.setBridge node ((net.bridges node).localCall rt c)
  | .exportBatch node sinceSeq limit =>
    let (b, d) := (net.bridges node).exportDeltaFromAudit sinceSeq limit
    { net.setBridge node b with sent := net.sent ++ [d] }
  | .deliver node index times =>
    match net.sent[index]? with
    | none => net
    | some d =>
      { net.setBridge node ((net.bridges node).applyRemoteDelta rt d times).1 with
        received := fun n =>
          if n = node then net.received n ++ [d] else net.received n }

def run (net : Network) (actions : List NetAction) : Network := actions.foldl (step rt) net

/-! ## The clocks of the network are vector clocks -/

/-- The clocks of the bridges, and the stamps of the deltas that carry counters. -/
def toSystem (net : Network) : VectorClocks.System String where
  clock n := (net.bridges n).clock.get
  sent := {e | ∃ d ∈ net.sent, ¬ d.Clockless ∧ d.stamp = e}

/-- The invariant of a run, with the receiver's counters as the maxima of what was delivered. -/
structure Ok (net : Network) : Prop where
  causal : VectorClocks.Causal net.toSystem
  nodeId : ∀ n, (net.bridges n).nodeId = n
  received_sent : ∀ n, ∀ d ∈ net.received n, d ∈ net.sent
  received_le : ∀ n, ∀ d ∈ net.received n, ∀ k, d.clock.get k ≤ (net.bridges n).clock.get k
  le_received : ∀ n k, k ≠ n → (net.bridges n).clock.get k = 0 ∨
    ∃ d ∈ net.received n, (net.bridges n).clock.get k ≤ d.clock.get k

variable {rt} {net : Network}

lemma toSystem_setBridge (node : String) (b : StateSyncBridge) :
    (net.setBridge node b).toSystem = net.toSystem.setClock node b.clock.get := by
  have hclock : (net.setBridge node b).toSystem.clock =
      (net.toSystem.setClock node b.clock.get).clock := by
    funext n
    change (if n = node then b else net.bridges n).clock.get =
      (if n = node then b.clock.get else (net.bridges n).clock.get)
    split_ifs <;> rfl
  exact VectorClocks.System.ext hclock rfl

lemma toSystem_setBridge_of_clock_eq {node : String} {b : StateSyncBridge}
    (h : b.clock = (net.bridges node).clock) :
    (net.setBridge node b).toSystem = net.toSystem := by
  rw [toSystem_setBridge, h]
  have hclock : (net.toSystem.setClock node (net.bridges node).clock.get).clock =
      net.toSystem.clock := by
    funext n
    change (if n = node then (net.bridges node).clock.get else (net.bridges n).clock.get) = _
    split_ifs with hn
    · rw [hn]
      rfl
    · rfl
  exact VectorClocks.System.ext hclock rfl

lemma get_increment_eq_tickClock (c : CompactVectorClock) (n : String) :
    (c.increment n).get = VectorClocks.tickClock n c.get := by
  funext k
  rw [CompactVectorClock.get_increment]
  exact if_congr eq_comm rfl rfl

lemma get_receive_eq_tickClock (c other : CompactVectorClock) (n : String) :
    (c.receive other n).get = VectorClocks.tickClock n fun k => max (c.get k) (other.get k) := by
  funext k
  rw [CompactVectorClock.get_receive]
  exact if_congr eq_comm rfl rfl

lemma toSystem_exportBatch (h : net.Ok) (node : String) (sinceSeq limit : ℤ) :
    (net.step rt (.exportBatch node sinceSeq limit)).toSystem =
        VectorClocks.tick node net.toSystem ∨
      (net.step rt (.exportBatch node sinceSeq limit)).toSystem =
        VectorClocks.emit node net.toSystem := by
  have hid := h.nodeId node
  set d := ((net.bridges node).exportDeltaFromAudit sinceSeq limit).2 with hd
  have hclock : (net.step rt (.exportBatch node sinceSeq limit)).toSystem.clock =
      (VectorClocks.tick node net.toSystem).clock := by
    funext n
    change (if n = node then ((net.bridges node).exportDeltaFromAudit sinceSeq limit).1
      else net.bridges n).clock.get = (if n = node then _ else (net.bridges n).clock.get)
    split_ifs
    · change ((net.bridges node).clock.increment (net.bridges node).nodeId).get = _
      rw [hid, get_increment_eq_tickClock]
      rfl
    · rfl
  have hsent : ∀ e, e ∈ (net.step rt (.exportBatch node sinceSeq limit)).toSystem.sent ↔
      e ∈ net.toSystem.sent ∨ (¬ d.Clockless ∧ d.stamp = e) := by
    intro e
    change (∃ d' ∈ net.sent ++ [d], ¬ d'.Clockless ∧ d'.stamp = e) ↔ _
    simp only [List.mem_append, List.mem_singleton, or_and_right, exists_or, exists_eq_left]
    rfl
  by_cases hless : d.Clockless
  · refine Or.inl ?_
    have heq : (net.step rt (.exportBatch node sinceSeq limit)).toSystem.sent =
        (VectorClocks.tick node net.toSystem).sent := by
      ext e
      rw [hsent]
      exact ⟨fun he => he.resolve_right fun hd => hd.1 hless, Or.inl⟩
    exact VectorClocks.System.ext hclock heq
  · refine Or.inr ?_
    have hstamp : d.stamp = ⟨node, VectorClocks.tickClock node (net.toSystem.clock node)⟩ := by
      have hvalid : d.clock = (net.bridges node).clock.increment node := by
        unfold Delta.clock CompactVectorClock.modelValidate
        have hvc : d.vectorClock = ((net.bridges node).clock.increment node).clocks := by
          rw [hd, StateSyncBridge.exportDeltaFromAudit, hid]
        rw [hvc]
        split_ifs with hquirk
        · exact absurd (by
            unfold Delta.Clockless Delta.clock CompactVectorClock.modelValidate
            rw [hvc, if_pos hquirk]
            rfl) hless
        · rfl
      rw [Delta.stamp, hvalid, get_increment_eq_tickClock]
      have hsource : d.sourceNode = node := hid
      rw [hsource]
      rfl
    have heq : (net.step rt (.exportBatch node sinceSeq limit)).toSystem.sent =
        (VectorClocks.emit node net.toSystem).sent := by
      ext e
      rw [hsent, hstamp]
      change _ ↔ e = _ ∨ e ∈ net.toSystem.sent
      constructor
      · rintro (he | ⟨-, he⟩)
        · exact Or.inr he
        · exact Or.inl he.symm
      · rintro (he | he)
        · exact Or.inr ⟨hless, he.symm⟩
        · exact Or.inl he
    exact VectorClocks.System.ext hclock heq

lemma clock_applyRemoteDelta (b : StateSyncBridge) (d : Delta) (times : ℕ → ℚ) :
    (b.applyRemoteDelta rt d times).1.clock =
      if b.rejectsAsStale d then b.clock
      else match StateSyncBridge.peerClock d with
        | some peer => b.clock.receive peer b.nodeId
        | none => b.clock := by
  unfold StateSyncBridge.applyRemoteDelta
  split_ifs <;> rfl

lemma nodeId_applyRemoteDelta (b : StateSyncBridge) (d : Delta) (times : ℕ → ℚ) :
    (b.applyRemoteDelta rt d times).1.nodeId = b.nodeId := by
  unfold StateSyncBridge.applyRemoteDelta
  split_ifs <;> rfl

/-- Either the receiver learns nothing from a delta and keeps its clock, or it takes the maximum
and counts the receipt. -/
lemma get_clock_applyRemoteDelta (h : net.Ok) (node : String) (d : Delta) (times : ℕ → ℚ) :
    (((net.bridges node).applyRemoteDelta rt d times).1.clock = (net.bridges node).clock ∧
      ∀ k, d.clock.get k ≤ (net.bridges node).clock.get k) ∨
    ((net.bridges node).applyRemoteDelta rt d times).1.clock.get =
      VectorClocks.tickClock node fun k =>
        max ((net.bridges node).clock.get k) (d.clock.get k) := by
  have hnonneg : ∀ k, 0 ≤ (net.bridges node).clock.get k := h.causal.clock_nonneg node
  rw [clock_applyRemoteDelta]
  unfold StateSyncBridge.rejectsAsStale StateSyncBridge.peerClock
  by_cases hempty : d.vectorClock.entries.isEmpty = true
  · -- a delta without a clock
    have hless : d.Clockless := by
      unfold Delta.Clockless Delta.clock CompactVectorClock.modelValidate
      split_ifs
      · rfl
      · exact List.isEmpty_iff.mp hempty
    refine Or.inl ⟨by simp [hempty], fun k => ?_⟩
    rw [Delta.get_of_clockless hless]
    exact hnonneg k
  · by_cases hstale : StateSyncBridge.isStale (net.bridges node).clock d.clock = true
    · refine Or.inl ⟨?_, ((isStale_iff hnonneg).mp hstale).2⟩
      rw [if_neg hempty]
      exact if_pos hstale
    · refine Or.inr ?_
      rw [if_neg hempty]
      change (if StateSyncBridge.isStale (net.bridges node).clock d.clock = true then
        (net.bridges node).clock
        else (net.bridges node).clock.receive d.clock (net.bridges node).nodeId).get = _
      rw [if_neg hstale, h.nodeId, get_receive_eq_tickClock]

lemma ok_init (stores : String → VerifiedKVStore) : (init stores).Ok where
  causal := by
    have hsystem : (init stores).toSystem = VectorClocks.init := by
      refine VectorClocks.System.ext ?_ ?_
      · funext n k
        by_cases hk : n = k
        · subst hk
          exact CompactVectorClock.get_single_self n 0
        · exact CompactVectorClock.get_single_of_ne 0 hk
      · ext e
        exact ⟨fun ⟨d, hd, _⟩ => absurd hd List.not_mem_nil, fun he => absurd he (Set.notMem_empty e)⟩
    rw [hsystem]
    exact VectorClocks.causal_init
  nodeId _ := rfl
  received_sent _ _ hd := absurd hd List.not_mem_nil
  received_le _ _ hd := absurd hd List.not_mem_nil
  le_received n k hk := Or.inl (CompactVectorClock.get_single_of_ne 0 (Ne.symm hk))

lemma ok_setBridge_of_clock_eq (h : net.Ok) {node : String} {b : StateSyncBridge}
    (hclock : b.clock = (net.bridges node).clock) (hid : b.nodeId = node) :
    (net.setBridge node b).Ok := by
  have hsame : ∀ n, ((net.setBridge node b).bridges n).clock = (net.bridges n).clock := by
    intro n
    change (if n = node then b else net.bridges n).clock = _
    split_ifs with hn
    · rw [hclock, hn]
    · rfl
  refine ⟨?_, fun n => ?_, h.received_sent, fun n d hd k => ?_, fun n k hk => ?_⟩
  · rw [toSystem_setBridge_of_clock_eq hclock]
    exact h.causal
  · change (if n = node then b else net.bridges n).nodeId = n
    split_ifs with hn
    · rw [hid, hn]
    · exact h.nodeId n
  · rw [hsame]
    exact h.received_le n d hd k
  · rw [hsame]
    exact h.le_received n k hk

lemma ok_exportBatch (h : net.Ok) (node : String) (sinceSeq limit : ℤ) :
    (net.step rt (.exportBatch node sinceSeq limit)).Ok := by
  have hclock : ∀ n k, ((net.step rt (.exportBatch node sinceSeq limit)).bridges n).clock.get k =
      if n = node then VectorClocks.tickClock node (net.bridges node).clock.get k
      else (net.bridges n).clock.get k := by
    intro n k
    change (if n = node then ((net.bridges node).exportDeltaFromAudit sinceSeq limit).1
      else net.bridges n).clock.get k = _
    split_ifs
    · change ((net.bridges node).clock.increment (net.bridges node).nodeId).get k = _
      rw [h.nodeId, get_increment_eq_tickClock]
    · rfl
  refine ⟨?_, fun n => ?_, fun n d hd => ?_, fun n d hd k => ?_, fun n k hk => ?_⟩
  · rcases toSystem_exportBatch h node sinceSeq limit with htick | hemit
    · rw [htick]
      exact VectorClocks.causal_tick h.causal
    · rw [hemit]
      exact VectorClocks.causal_emit h.causal
  · change (if n = node then ((net.bridges node).exportDeltaFromAudit sinceSeq limit).1
      else net.bridges n).nodeId = n
    split_ifs with hn
    · rw [hn]
      exact h.nodeId node
    · exact h.nodeId n
  · exact List.mem_append_left _ (h.received_sent n d hd)
  · rw [hclock]
    have hle := h.received_le n d hd k
    split_ifs with hn
    · subst hn
      exact hle.trans (VectorClocks.le_tickClock n _ k)
    · exact hle
  · rw [hclock]
    split_ifs with hn
    · subst hn
      rw [VectorClocks.tickClock_of_ne _ hk]
      exact h.le_received n k hk
    · exact h.le_received n k hk

lemma ok_deliver (h : net.Ok) {d : Delta} (hd : d ∈ net.sent) (node : String) (times : ℕ → ℚ) :
    ({ net.setBridge node ((net.bridges node).applyRemoteDelta rt d times).1 with
      received := fun n => if n = node then net.received n ++ [d] else net.received n } :
        Network).Ok := by
  set b := ((net.bridges node).applyRemoteDelta rt d times).1 with hb
  have hid : ∀ n, (if n = node then b else net.bridges n).nodeId = n := by
    intro n
    split_ifs with hn
    · rw [hb, nodeId_applyRemoteDelta, hn]
      exact h.nodeId node
    · exact h.nodeId n
  have hsent : ∀ n, ∀ d' ∈ (if n = node then net.received n ++ [d] else net.received n),
      d' ∈ net.sent := by
    intro n d' hd'
    split_ifs at hd' with hn
    · rcases List.mem_append.mp hd' with hd' | hd'
      · exact h.received_sent n d' hd'
      · rw [List.mem_singleton.mp hd']
        exact hd
    · exact h.received_sent n d' hd'
  rcases get_clock_applyRemoteDelta h node d times with ⟨hclock, hle⟩ | hclock
  · -- the receiver learns nothing
    have hsame : ∀ n, (if n = node then b else net.bridges n).clock = (net.bridges n).clock := by
      intro n
      split_ifs with hn
      · rw [hn]
        exact hclock
      · rfl
    refine ⟨?_, hid, hsent, fun n d' hd' k => ?_, fun n k hk => ?_⟩
    · exact (toSystem_setBridge_of_clock_eq hclock).symm ▸ h.causal
    · change d'.clock.get k ≤ (if n = node then b else net.bridges n).clock.get k
      change d' ∈ (if n = node then net.received n ++ [d] else net.received n) at hd'
      rw [hsame]
      split_ifs at hd' with hn
      · rcases List.mem_append.mp hd' with hd' | hd'
        · exact h.received_le n d' hd' k
        · rw [List.mem_singleton.mp hd', hn]
          exact hle k
      · exact h.received_le n d' hd' k
    · change (if n = node then b else net.bridges n).clock.get k = 0 ∨
        ∃ d' ∈ (if n = node then net.received n ++ [d] else net.received n),
          (if n = node then b else net.bridges n).clock.get k ≤ d'.clock.get k
      rw [hsame]
      refine (h.le_received n k hk).imp id fun ⟨d', hd', hle'⟩ => ⟨d', ?_, hle'⟩
      split_ifs
      · exact List.mem_append_left _ hd'
      · exact hd'
  · -- the receiver takes the maximum and counts the receipt
    have hgrow : ∀ k, (net.bridges node).clock.get k ≤ b.clock.get k := fun k => by
      rw [hb, hclock]
      exact (le_max_left _ _).trans (VectorClocks.le_tickClock node _ k)
    refine ⟨?_, hid, hsent, fun n d' hd' k => ?_, fun n k hk => ?_⟩
    · change VectorClocks.Causal (net.setBridge node b).toSystem
      rw [toSystem_setBridge, hb, hclock]
      by_cases hless : d.Clockless
      · have hmax : (fun k => max ((net.bridges node).clock.get k) (d.clock.get k)) =
            (net.bridges node).clock.get := by
          funext k
          rw [Delta.get_of_clockless hless]
          exact max_eq_left (h.causal.clock_nonneg node k)
        rw [hmax]
        exact VectorClocks.causal_tick h.causal
      · exact VectorClocks.causal_receive h.causal (e := d.stamp) ⟨d, hd, hless, rfl⟩
    · change d'.clock.get k ≤ (if n = node then b else net.bridges n).clock.get k
      change d' ∈ (if n = node then net.received n ++ [d] else net.received n) at hd'
      split_ifs at hd' ⊢ with hn
      · subst hn
        rcases List.mem_append.mp hd' with hd' | hd'
        · exact (h.received_le n d' hd' k).trans (hgrow k)
        · rw [List.mem_singleton.mp hd', hb, hclock]
          exact (le_max_right _ _).trans (VectorClocks.le_tickClock n _ k)
      · exact h.received_le n d' hd' k
    · change (if n = node then b else net.bridges n).clock.get k = 0 ∨
        ∃ d' ∈ (if n = node then net.received n ++ [d] else net.received n),
          (if n = node then b else net.bridges n).clock.get k ≤ d'.clock.get k
      split_ifs with hn
      · subst hn
        rw [hb, hclock, VectorClocks.tickClock_of_ne _ hk]
        rcases max_choice ((net.bridges n).clock.get k) (d.clock.get k) with hmax | hmax
        · rw [hmax]
          exact (h.le_received n k hk).imp id fun ⟨d', hd', hle'⟩ =>
            ⟨d', List.mem_append_left _ hd', hle'⟩
        · rw [hmax]
          exact Or.inr ⟨d, List.mem_append_right _ (List.mem_singleton_self d), le_rfl⟩
      · exact h.le_received n k hk

/-- **Step rule.** -/
lemma ok_step (h : net.Ok) (a : NetAction) : (net.step rt a).Ok := by
  cases a with
  | localCall node c => exact ok_setBridge_of_clock_eq h rfl (h.nodeId node)
  | exportBatch node sinceSeq limit => exact ok_exportBatch h node sinceSeq limit
  | deliver node index times =>
      simp only [step]
      cases hd : net.sent[index]? with
      | none => exact h
      | some d => exact ok_deliver h (List.mem_of_getElem? hd) node times

/-- **Run rule.** -/
lemma ok_run (h : net.Ok) (actions : List NetAction) : (net.run rt actions).Ok := by
  induction actions generalizing net with
  | nil => exact h
  | cons a as ih => exact ih (ok_step h a)

/-! ## Which batches are processed -/

/-- A delta whose own counter is beyond that of every delta in `earlier`, or that carries none. -/
def Fresh (earlier : List Delta) (d : Delta) : Prop :=
  d.Clockless ∨ ∀ d' ∈ earlier, d'.clock.get d.sourceNode < d.clock.get d.sourceNode

/-- **Staleness is about the sender's counter.** A delta of another node is processed exactly if it
is fresh among what the receiver was given before. -/
lemma rejectsAsStale_eq_false_iff (h : net.Ok) {d : Delta} (hd : d ∈ net.sent) {node : String}
    (hne : d.sourceNode ≠ node) :
    (net.bridges node).rejectsAsStale d = false ↔ Fresh (net.received node) d := by
  have hnonneg : ∀ k, 0 ≤ (net.bridges node).clock.get k := h.causal.clock_nonneg node
  by_cases hless : d.Clockless
  · refine ⟨fun _ => Or.inl hless, fun _ => ?_⟩
    unfold StateSyncBridge.rejectsAsStale StateSyncBridge.peerClock
    by_cases hempty : d.vectorClock.entries.isEmpty = true
    · rw [if_pos hempty]
    · rw [if_neg hempty]
      change StateSyncBridge.isStale (net.bridges node).clock d.clock = false
      rw [← Bool.not_eq_true, isStale_iff hnonneg]
      exact fun hstale => hstale.1 hless
  · have hempty : ¬ d.vectorClock.entries.isEmpty = true := by
      intro hempty
      refine hless ?_
      unfold Delta.Clockless Delta.clock CompactVectorClock.modelValidate
      split_ifs
      · rfl
      · exact List.isEmpty_iff.mp hempty
    have hstamp : d.stamp ∈ net.toSystem.sent := ⟨d, hd, hless, rfl⟩
    have hstale : (net.bridges node).rejectsAsStale d = false ↔
        (net.bridges node).clock.get d.sourceNode < d.clock.get d.sourceNode := by
      unfold StateSyncBridge.rejectsAsStale StateSyncBridge.peerClock
      rw [if_neg hempty]
      change StateSyncBridge.isStale (net.bridges node).clock d.clock = false ↔ _
      rw [← Bool.not_eq_true, isStale_iff hnonneg, ← not_le]
      refine not_congr ?_
      have hcounters : d.clock.clocks.entries ≠ [] := hless
      rw [and_iff_right hcounters]
      exact h.causal.le_clock_iff hstamp node
    rw [hstale]
    constructor
    · intro hlt
      exact Or.inr fun d' hd' => (h.received_le node d' hd' d.sourceNode).trans_lt hlt
    · intro hfresh
      have hall := hfresh.resolve_left hless
      rcases h.le_received node d.sourceNode hne with hzero | ⟨d', hd', hle⟩
      · rw [hzero]
        exact h.causal.sent_pos d.stamp hstamp
      · exact hle.trans_lt (hall d' hd')

/-- In a run, every delta of `source` is processed when it is delivered to `node`. -/
def BatchesProcessed (rt : Runtime) (stores : String → VerifiedKVStore)
    (actions : List NetAction) (source node : String) : Prop :=
  ∀ before index times after, actions = before ++ .deliver node index times :: after →
    ∀ d, ((init stores).run rt before).sent[index]? = some d → d.sourceNode = source →
      (((init stores).run rt before).bridges node).rejectsAsStale d = false

/-- In a run, every delta of `source` is delivered to `node` after only such deltas, of any sender,
that carry a smaller counter of `source`. -/
def BatchesInOrder (rt : Runtime) (stores : String → VerifiedKVStore)
    (actions : List NetAction) (source node : String) : Prop :=
  ∀ before index times after, actions = before ++ .deliver node index times :: after →
    ∀ d, ((init stores).run rt before).sent[index]? = some d → d.sourceNode = source →
      Fresh (((init stores).run rt before).received node) d

/-- **No batch is lost exactly if none is overtaken.** -/
theorem batchesProcessed_iff_inOrder (rt : Runtime) (stores : String → VerifiedKVStore)
    (actions : List NetAction) (source node : String) (hne : source ≠ node) :
    BatchesProcessed rt stores actions source node ↔
      BatchesInOrder rt stores actions source node := by
  have hpoint : ∀ (before : List NetAction) (index : ℕ) (d : Delta), ((init stores).run rt before).sent[index]? = some d →
      d.sourceNode = source →
      ((((init stores).run rt before).bridges node).rejectsAsStale d = false ↔
        Fresh (((init stores).run rt before).received node) d) := by
    intro before index d hd hsource
    exact rejectsAsStale_eq_false_iff (ok_run (ok_init stores) before) (List.mem_of_getElem? hd)
      (hsource ▸ hne)
  constructor
  · intro h before index times after heq d hd hsource
    exact (hpoint before index d hd hsource).mp (h before index times after heq d hd hsource)
  · intro h before index times after heq d hd hsource
    exact (hpoint before index d hd hsource).mpr (h before index times after heq d hd hsource)

/-- Two variables are written at `a` and exported in two batches of one row each. -/
def twoBatches : List NetAction :=
  [.localCall "a" (.setSync { key := "x", value := .bool true } 1),
    .localCall "a" (.setSync { key := "y", value := .bool true } 1),
    .exportBatch "a" 0 1,
    .exportBatch "a" 1 1]

/-- The batches arrive in the order in which they were exported. -/
theorem twoBatches_processed_iff :
    BatchesProcessed Runtime.sample (fun _ => .init)
        (twoBatches ++ [.deliver "b" 0 fun _ => 2, .deliver "b" 1 fun _ => 2]) "a" "b" ↔
      BatchesInOrder Runtime.sample (fun _ => .init)
        (twoBatches ++ [.deliver "b" 0 fun _ => 2, .deliver "b" 1 fun _ => 2]) "a" "b" :=
  batchesProcessed_iff_inOrder Runtime.sample _ _ "a" "b" (by decide)

/-- The exports of `source` start at `cursor`, and each continues where the one before ended. -/
def Consecutive (rt : Runtime) (source : String) : ℤ → Network → List NetAction → Prop
  | _, _, [] => True
  | cursor, net, a :: as =>
    match a with
    | .exportBatch node sinceSeq limit =>
      if node = source then
        sinceSeq = cursor ∧ Consecutive rt source
          ((net.bridges node).exportDeltaFromAudit sinceSeq limit).2.maxSeq (net.step rt a) as
      else Consecutive rt source cursor (net.step rt a) as
    | a => Consecutive rt source cursor (net.step rt a) as

/-- How often the delta with this index is delivered to `node`. -/
def deliveryCount (node : String) (index : ℕ) (actions : List NetAction) : ℕ :=
  actions.countP fun
    | .deliver n i _ => decide (n = node) && decide (i = index)
    | _ => false

/-- **An overtaken batch is lost.** Consecutive batches, each delivered exactly once to an empty
store: the one that arrives late is taken for a replay. -/
theorem overtaken_batch_lost :
    ¬ ∀ (rt : Runtime) (stores : String → VerifiedKVStore) (actions : List NetAction)
        (source node : String), source ≠ node → stores node = .init →
      Consecutive rt source 0 (init stores) actions →
      (∀ index d, ((init stores).run rt actions).sent[index]? = some d → d.sourceNode = source →
        deliveryCount node index actions = 1) →
      BatchesProcessed rt stores actions source node := by
  intro h
  set swapped : List NetAction :=
    twoBatches ++ [.deliver "b" 1 fun _ => 2, .deliver "b" 0 fun _ => 2] with hswapped
  have hconsecutive : Consecutive Runtime.sample "a" 0 (init fun _ => .init) swapped :=
    ⟨rfl, by decide, trivial⟩
  have honce : ∀ index d, ((init fun _ => .init).run Runtime.sample swapped).sent[index]? = some d →
      d.sourceNode = "a" → deliveryCount "b" index swapped = 1 := by
    intro index d hd _
    have hlen : ((init fun _ => .init).run Runtime.sample swapped).sent.length = 2 := by
      decide
    have hlt : index < 2 := hlen ▸ (List.getElem?_eq_some_iff.mp hd).1
    interval_cases index <;> decide
  have hprocessed := h Runtime.sample (fun _ => .init) swapped "a" "b" (by decide) rfl hconsecutive
    honce
  have hlate : ∃ d, ((init fun _ => .init).run Runtime.sample
      (twoBatches ++ [.deliver "b" 1 fun _ => 2])).sent[0]? = some d :=
    Option.isSome_iff_exists.mp (by decide)
  obtain ⟨d, hd⟩ := hlate
  have hfalse := hprocessed (twoBatches ++ [.deliver "b" 1 fun _ => 2]) 0 (fun _ => 2) [] rfl d hd
    (by
      have hsource : (((init fun _ => .init).run Runtime.sample
        (twoBatches ++ [.deliver "b" 1 fun _ => 2])).sent[0]?.map Delta.sourceNode) = some "a" := by
          decide
      rw [hd] at hsource
      exact Option.some.inj hsource)
  have hstale : (((init fun _ => .init).run Runtime.sample
      (twoBatches ++ [.deliver "b" 1 fun _ => 2])).sent[0]?.map
        (((init fun _ => .init).run Runtime.sample
          (twoBatches ++ [.deliver "b" 1 fun _ => 2])).bridges "b").rejectsAsStale) = some true := by
    decide
  rw [hd, Option.map_some, hfalse] at hstale
  exact absurd hstale (by decide)

end Network

end AtlasMemory
