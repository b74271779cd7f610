import AtlasMemory.Foundations.CausalHistory
import AtlasMemory.Sync.Delivery

/-!
# Clocks of deltas and causality

Along a run of the network, `Chronicle` records which deltas each bridge has exported or processed,
and what it knew at each export: this is the causal order, and no clock is read for it.  The clocks
of two deltas compare by `happens_before` exactly as their exports are ordered
(`happensBefore_iff_causallyPrecedes`), because a run of the network is a history in the sense of
`CausalHistory`.

There is one exception.  A receiver that reads the clock of a delta takes a counter under the name
`clocks` for the dictionary of the counters itself, and reads no counter at all.
-/

namespace AtlasMemory

open VectorClocks

def Delta.rawStamp (d : Delta) : Stamp String :=
  ⟨d.sourceNode, (⟨d.vectorClock⟩ : CompactVectorClock).get⟩

/-- The network, the deltas that each bridge has exported or processed, and what was known at each
export. -/
structure Chronicle where
  net : Network
  known : String → List ℕ
  parents : List (List ℕ)

namespace Chronicle

variable (rt : Runtime)

def init (stores : String → VerifiedKVStore) : Chronicle := ⟨.init stores, fun _ => [], []⟩

/-- What a bridge knows after it has exported or processed one more delta. -/
def learn (c : Chronicle) (node : String) (index : ℕ) (n : String) : List ℕ :=
  if n = node then c.known node ++ [index] else c.known n

/-- A step: an export and the processing of a delta are recorded, a stale delta is not. -/
def step (c : Chronicle) (a : NetAction) : Chronicle :=
  match a with
  | .localCall _ _ => { c with net := c.net.step rt a }
  | .exportBatch node _ _ =>
    { net := c.net.step rt a
      known := c.learn node c.net.sent.length
      parents := c.parents ++ [c.known node] }
  | .deliver node index _ =>
    match c.net.sent[index]? with
    | none => { c with net := c.net.step rt a }
    | some d =>
      { c with
        net := c.net.step rt a
        known := if (c.net.bridges node).rejectsAsStale d then c.known else c.learn node index }

def run (c : Chronicle) (actions : List NetAction) : Chronicle := actions.foldl (step rt) c

/-- The bridge of the delta `j` had exported or processed the delta `i` when it exported `j`. -/
def DirectlyPrecedes (c : Chronicle) (i j : ℕ) : Prop :=
  ∃ ks, c.parents[j]? = some ks ∧ i ∈ ks

/-- The causal order of the exports. -/
def CausallyPrecedes (c : Chronicle) : ℕ → ℕ → Prop := Relation.TransGen c.DirectlyPrecedes

def toHistory (c : Chronicle) : History String where
  clock n := (c.net.bridges n).clock.get
  sent := c.net.sent.map Delta.rawStamp
  known := c.known
  parents := c.parents

variable {rt} {c : Chronicle}

lemma net_run (actions : List NetAction) : (c.run rt actions).net = c.net.run rt actions := by
  induction actions generalizing c with
  | nil => rfl
  | cons a as ih =>
      have hstep : (c.step rt a).net = c.net.step rt a := by
        cases a with
        | localCall node call => rfl
        | exportBatch node sinceSeq limit => rfl
        | deliver node index times =>
            simp only [step]
            cases c.net.sent[index]? <;> rfl
      show ((c.step rt a).run rt as).net = (c.net.step rt a).run rt as
      rw [ih, hstep]

/-- The invariant of a run. -/
structure Ok (c : Chronicle) : Prop where
  history : c.toHistory.Ok
  nodeId : ∀ n, (c.net.bridges n).nodeId = n

lemma ok_init (stores : String → VerifiedKVStore) : (init stores).Ok where
  history := by
    have hinit : (init stores).toHistory = History.init := by
      have hclock : (init stores).toHistory.clock = fun _ _ => 0 := by
        funext n k
        by_cases hk : n = k
        · subst hk
          exact CompactVectorClock.get_single_self n 0
        · exact CompactVectorClock.get_single_of_ne 0 hk
      rw [History.init, ← hclock]
      rfl
    rw [hinit]
    exact History.ok_init
  nodeId _ := rfl

lemma ok_localCall (h : c.Ok) (node : String) (call : KvCall) :
    (c.step rt (.localCall node call)).Ok := by
  have hbridge : ∀ n, ((c.net.step rt (.localCall node call)).bridges n).clock =
        (c.net.bridges n).clock ∧
      ((c.net.step rt (.localCall node call)).bridges n).nodeId = (c.net.bridges n).nodeId := by
    intro n
    show (if n = node then _ else c.net.bridges n).clock = _ ∧
      (if n = node then _ else c.net.bridges n).nodeId = _
    split_ifs with hn
    · rw [hn]
      exact ⟨rfl, rfl⟩
    · exact ⟨rfl, rfl⟩
  refine ⟨?_, fun n => (hbridge n).2.trans (h.nodeId n)⟩
  have hsame : (c.step rt (.localCall node call)).toHistory = c.toHistory := by
    have hclock : (c.step rt (.localCall node call)).toHistory.clock = c.toHistory.clock := by
      funext n
      exact congrArg CompactVectorClock.get (hbridge n).1
    show (⟨_, _, _, _⟩ : History String) = ⟨_, _, _, _⟩
    rw [History.mk.injEq]
    exact ⟨hclock, rfl, rfl, rfl⟩
  exact hsame ▸ h.history

lemma ok_exportBatch (h : c.Ok) (node : String) (sinceSeq limit : ℤ) :
    (c.step rt (.exportBatch node sinceSeq limit)).Ok := by
  have hid := h.nodeId node
  have hget : ((c.net.bridges node).clock.increment (c.net.bridges node).nodeId).get =
      tickClock node (c.net.bridges node).clock.get := by
    rw [hid, Network.get_increment_eq_tickClock]
  refine ⟨?_, fun n => ?_⟩
  · have hemit : (c.step rt (.exportBatch node sinceSeq limit)).toHistory =
        c.toHistory.emit node := by
      show (⟨_, _, _, _⟩ : History String) = ⟨_, _, _, _⟩
      rw [History.mk.injEq]
      refine ⟨?_, ?_, ?_, rfl⟩
      · funext n
        show (if n = node then ((c.net.bridges node).exportDeltaFromAudit sinceSeq limit).1
          else c.net.bridges n).clock.get = if n = node then _ else _
        split_ifs
        · exact hget
        · rfl
      · show (c.net.sent ++ [((c.net.bridges node).exportDeltaFromAudit sinceSeq limit).2]).map
          Delta.rawStamp = c.net.sent.map Delta.rawStamp ++ [_]
        rw [List.map_append, List.map_singleton]
        have hstamp : Delta.rawStamp ((c.net.bridges node).exportDeltaFromAudit sinceSeq limit).2 =
            ⟨node, tickClock node (c.net.bridges node).clock.get⟩ := by
          rw [← hget]
          exact congrArg (Stamp.mk · _) hid
        rw [hstamp]
        rfl
      · funext n
        show c.learn node c.net.sent.length n = if n = node then
          c.known node ++ [(c.net.sent.map Delta.rawStamp).length] else c.known n
        rw [List.length_map]
        rfl
    rw [hemit]
    exact History.ok_emit h.history node
  · show (if n = node then ((c.net.bridges node).exportDeltaFromAudit sinceSeq limit).1
      else c.net.bridges n).nodeId = n
    split_ifs with hn
    · rw [hn]
      exact hid
    · exact h.nodeId n

/-- The processing of a delta whose clock is read is a receipt; a stale delta changes nothing. -/
lemma ok_deliver (h : c.Ok) (node : String) (index : ℕ) (times : ℕ → ℚ)
    (hreadable : ∀ d, c.net.sent[index]? = some d → d.vectorClock.contains "clocks" = false) :
    (c.step rt (.deliver node index times)).Ok := by
  cases hd : c.net.sent[index]? with
  | none =>
      have hsame : c.step rt (.deliver node index times) = c := by
        simp only [step, Network.step, hd]
      rw [hsame]
      exact h
  | some d =>
      have hstamp : c.toHistory.sent[index]? = some d.rawStamp := by
        show (c.net.sent.map Delta.rawStamp)[index]? = _
        rw [List.getElem?_map, hd]
        rfl
      set b := ((c.net.bridges node).applyRemoteDelta rt d times).1 with hb
      have hstep : c.step rt (.deliver node index times) =
          { c with
            net := { c.net.setBridge node b with
              received := fun n => if n = node then c.net.received n ++ [d] else c.net.received n }
            known := if (c.net.bridges node).rejectsAsStale d then c.known
              else c.learn node index } := by
        simp only [step, Network.step, hd]
        rfl
      have hpeer : StateSyncBridge.peerClock d = some ⟨d.vectorClock⟩ := by
        have hpos : 0 < (⟨d.vectorClock⟩ : CompactVectorClock).get d.sourceNode :=
          h.history.causal.sent_pos d.rawStamp (List.mem_of_getElem? hstamp)
        have hne : ¬ d.vectorClock.entries.isEmpty = true := by
          intro hempty
          have hzero := CompactVectorClock.get_of_not_mem_keys (c := ⟨d.vectorClock⟩)
            (k := d.sourceNode) (by
              rw [PyDict.keys, List.isEmpty_iff.mp hempty]
              exact List.not_mem_nil)
          omega
        rw [StateSyncBridge.peerClock, if_neg hne, CompactVectorClock.modelValidate,
          hreadable d hd]
        rfl
      rw [hstep]
      refine ⟨?_, fun n => ?_⟩
      · by_cases hstale : (c.net.bridges node).rejectsAsStale d = true
        · have hbsame : b = c.net.bridges node := by
            rw [hb, StateSyncBridge.applyRemoteDelta, if_pos hstale]
          rw [if_pos hstale]
          have hclock : ∀ n, (if n = node then b else c.net.bridges n) = c.net.bridges n := by
            intro n
            split_ifs with hn
            · rw [hbsame, hn]
            · rfl
          have hsame : (⟨fun n => (if n = node then b else c.net.bridges n).clock.get,
              c.net.sent.map Delta.rawStamp, c.known, c.parents⟩ : History String) =
                c.toHistory := by
            simp only [hclock]
            rfl
          show History.Ok ⟨fun n => (if n = node then b else c.net.bridges n).clock.get,
            c.net.sent.map Delta.rawStamp, c.known, c.parents⟩
          rw [hsame]
          exact h.history
        · have hbclock : b.clock.get = tickClock node fun k =>
              max ((c.net.bridges node).clock.get k) (d.rawStamp.vector k) := by
            rw [hb, Network.clock_applyRemoteDelta, if_neg hstale, hpeer, h.nodeId]
            exact Network.get_receive_eq_tickClock _ _ _
          rw [if_neg hstale]
          have hreceive : (⟨fun n => (if n = node then b else c.net.bridges n).clock.get,
              c.net.sent.map Delta.rawStamp, c.learn node index, c.parents⟩ : History String) =
                c.toHistory.receive node index d.rawStamp := by
            rw [History.receive, History.mk.injEq]
            refine ⟨?_, rfl, rfl, rfl⟩
            funext n
            split_ifs
            · exact hbclock
            · rfl
          show History.Ok ⟨fun n => (if n = node then b else c.net.bridges n).clock.get,
            c.net.sent.map Delta.rawStamp, c.learn node index, c.parents⟩
          rw [hreceive]
          exact History.ok_receive h.history node hstamp
      · show (if n = node then b else c.net.bridges n).nodeId = n
        split_ifs with hn
        · rw [hb, Network.nodeId_applyRemoteDelta, hn]
          exact h.nodeId node
        · exact h.nodeId n

/-- No delivered delta carries a counter under the name `clocks`: its receiver reads its clock. -/
def ClocksReadable (rt : Runtime) (stores : String → VerifiedKVStore) (actions : List NetAction) :
    Prop :=
  ∀ before node index times after, actions = before ++ .deliver node index times :: after →
    ∀ d, ((Network.init stores).run rt before).sent[index]? = some d →
      d.vectorClock.contains "clocks" = false

lemma ok_run {stores : String → VerifiedKVStore} {actions : List NetAction}
    (hreadable : ClocksReadable rt stores actions) : ((init stores).run rt actions).Ok := by
  induction actions using List.reverseRecOn with
  | nil => exact ok_init stores
  | append_singleton before a ih =>
      have hbefore : ((init stores).run rt before).Ok := by
        refine ih fun earlier node index times after heq d hd => ?_
        exact hreadable earlier node index times (after ++ [a]) (by rw [heq]; simp) d hd
      have hlast : (init stores).run rt (before ++ [a]) = ((init stores).run rt before).step rt a := by
        rw [run, List.foldl_append]
        rfl
      rw [hlast]
      cases a with
      | localCall node call => exact ok_localCall hbefore node call
      | exportBatch node sinceSeq limit => exact ok_exportBatch hbefore node sinceSeq limit
      | deliver node index times =>
          refine ok_deliver hbefore node index times fun d hd => ?_
          rw [net_run] at hd
          exact hreadable before node index times [] rfl d hd

/-- **Vector clocks characterise causality.** In a run in which no delivered delta carries a counter
under the name `clocks`, the clock of one delta happens before that of another exactly if its export
causally precedes the other's. -/
theorem happensBefore_iff_causallyPrecedes (rt : Runtime) (stores : String → VerifiedKVStore)
    (actions : List NetAction) (hreadable : ClocksReadable rt stores actions) :
    let c := (init stores).run rt actions
    ∀ i j d d', c.net.sent[i]? = some d → c.net.sent[j]? = some d' →
      ((⟨d.vectorClock⟩ : CompactVectorClock).happensBefore ⟨d'.vectorClock⟩ = true ↔
        c.CausallyPrecedes i j) := by
  intro c i j d d' hi hj
  have hok := (ok_run hreadable).history
  have hstamp : ∀ {k : ℕ} {e : Delta}, c.net.sent[k]? = some e →
      c.toHistory.sent[k]? = some e.rawStamp := by
    intro k e he
    show (c.net.sent.map Delta.rawStamp)[k]? = _
    rw [List.getElem?_map, he]
    rfl
  rw [CompactVectorClock.happensBefore_iff]
  exact hok.le_iff_precedes (hstamp hi) (hstamp hj)

lemma sent_prefix_run (net : Network) (actions : List NetAction) :
    net.sent <+: (net.run rt actions).sent := by
  induction actions generalizing net with
  | nil => exact List.prefix_rfl
  | cons a as ih =>
      have hstep : net.sent <+: (net.step rt a).sent := by
        cases a with
        | localCall node call => exact List.prefix_rfl
        | exportBatch node sinceSeq limit => exact List.prefix_append _ _
        | deliver node index times =>
            simp only [Network.step]
            cases net.sent[index]? <;> exact List.prefix_rfl
      exact hstep.trans (ih (net.step rt a))

/-- If all deltas of the run are readable, those that are delivered are. -/
lemma clocksReadable_of_forall {stores : String → VerifiedKVStore} {actions : List NetAction}
    (h : ∀ d ∈ ((Network.init stores).run rt actions).sent,
      d.vectorClock.contains "clocks" = false) : ClocksReadable rt stores actions := by
  intro before node index times after heq d hd
  have hrun : (Network.init stores).run rt actions =
      ((Network.init stores).run rt before).run rt (.deliver node index times :: after) := by
    rw [heq, Network.run, List.foldl_append]
    rfl
  have hprefix := @sent_prefix_run rt ((Network.init stores).run rt before)
    (.deliver node index times :: after)
  rw [← hrun] at hprefix
  exact h d (List.IsPrefix.subset hprefix (List.mem_of_getElem? hd))

/-- Two bridges export, and one of them processes the other's delta in between. -/
def exchange (first second : String) : List NetAction :=
  [.exportBatch first 0 200, .exportBatch second 0 200, .deliver second 0 fun _ => 2,
    .exportBatch second 0 200]

/-- The clocks of an exchange. -/
theorem happensBefore_iff_of_exchange :
    let c := (init fun _ => .init).run Runtime.sample (exchange "a" "b")
    ∀ i j d d', c.net.sent[i]? = some d → c.net.sent[j]? = some d' →
      ((⟨d.vectorClock⟩ : CompactVectorClock).happensBefore ⟨d'.vectorClock⟩ = true ↔
        c.CausallyPrecedes i j) :=
  happensBefore_iff_causallyPrecedes Runtime.sample (fun _ => .init) (exchange "a" "b")
    (clocksReadable_of_forall (by decide))

/-- **A node called `clocks` leaves no trace.** The receiver processes its delta without reading the
clock, so the delta that the receiver exports afterwards is not seen to follow it. -/
theorem causality_lost_of_clocks :
    ¬ ∀ (rt : Runtime) (stores : String → VerifiedKVStore) (actions : List NetAction),
      let c := (init stores).run rt actions
      ∀ i j d d', c.net.sent[i]? = some d → c.net.sent[j]? = some d' →
        ((⟨d.vectorClock⟩ : CompactVectorClock).happensBefore ⟨d'.vectorClock⟩ = true ↔
          c.CausallyPrecedes i j) := by
  intro h
  set c := (init fun _ => .init).run Runtime.sample (exchange "clocks" "b") with hc
  have hfirst : ∃ d, c.net.sent[0]? = some d := Option.isSome_iff_exists.mp (by decide)
  have hlast : ∃ d, c.net.sent[2]? = some d := Option.isSome_iff_exists.mp (by decide)
  obtain ⟨d, hd⟩ := hfirst
  obtain ⟨d', hd'⟩ := hlast
  have hprecedes : c.CausallyPrecedes 0 2 := by
    refine Relation.TransGen.single ⟨[1, 0], ?_, by decide⟩
    decide
  have hbefore := (h Runtime.sample (fun _ => .init) (exchange "clocks" "b") 0 2 d d' hd hd').mpr
    hprecedes
  have hnot : ((c.net.sent[0]?).bind fun d => (c.net.sent[2]?).map fun d' =>
      (⟨d.vectorClock⟩ : CompactVectorClock).happensBefore ⟨d'.vectorClock⟩) = some false := by
    decide
  rw [hd, hd', Option.bind_some, Option.map_some, hbefore] at hnot
  exact absurd hnot (by decide)

end Chronicle

end AtlasMemory
