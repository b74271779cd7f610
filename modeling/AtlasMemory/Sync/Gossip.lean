import AtlasMemory.L2Semantic.LogGrowth
import AtlasMemory.Sync.Bridge

/-!
# The sending side of the gossip protocol

The model of `GossipProtocol` over a bridge: a sync request for a peer carries the audit rows
beyond the peer's cursor, and the cursor moves to the end of the batch when the request is built,
before it is signed, encrypted and sent.

What the environment decides is an input of a step: whether signing, encryption and the transport
raise, and whether a request that was handed over arrives.  The system remembers the deltas that
arrived at each peer, and `NoneSkipped` asks that they cover everything below the cursor.  The
theorem is `noneSkipped_of_keepsUp`; its conditions are the ways in which a cursor can get ahead.
-/

namespace AtlasMemory

/-! ## Requests -/

/-- `SyncDelta` around the delta of a bridge. -/
structure AuditSyncDelta where
  sourceNode : String
  vectorClock : CompactVectorClock
  payload : Delta

/-- The envelope of a sync request; the cipher text is represented by what it decrypts to. -/
structure Envelope where
  sourceNode : String
  targetNode : String
  aad : String
  ciphertext : AuditSyncDelta
  signatureHex : Option String

/-- `GossipProtocol` with a bridge. -/
structure GossipProtocol where
  localNodeId : String
  bridge : StateSyncBridge
  hasTransport : Bool
  peerCursors : PyDict String ℤ

namespace GossipProtocol

def init (bridge : StateSyncBridge) (localNodeId : String) (hasTransport : Bool) :
    GossipProtocol :=
  ⟨localNodeId, bridge, hasTransport, ∅⟩

/-- Where the next request for a peer resumes. -/
def resumeSeq (g : GossipProtocol) (target : String) (sinceSeq : Option ℤ) : ℤ :=
  sinceSeq.getD (g.peerCursors.getD target 0)

def batchLimit : ℤ := 200

/-- The text of the own clock, which authenticates the request. -/
def clockText (clock : CompactVectorClock) : String :=
  (Json.obj (clock.clocks.entries.map fun e => (e.1, .number (.ofInt e.2)))).dumpsSorted

/-- `create_sync_request`.  The signature is empty without an identity. -/
def createSyncRequest (g : GossipProtocol) (target : String) (sinceSeq : Option ℤ)
    (signing : Except PyError String) (encryption : Except PyError Unit) :
    GossipProtocol × Except PyError Envelope :=
  let (bridge, auditDelta) :=
    g.bridge.exportDeltaFromAudit (g.resumeSeq target sinceSeq) batchLimit
  let g' := { g with bridge, peerCursors := g.peerCursors.set target auditDelta.maxSeq }
  match signing with
  | .error err => (g', .error err)
  | .ok signature =>
    match encryption with
    | .error err => (g', .error err)
    | .ok () => (g', .ok
        { sourceNode := g.localNodeId
          targetNode := target
          aad := clockText bridge.clock
          ciphertext := ⟨g.localNodeId, bridge.clock, auditDelta⟩
          signatureHex := if signature = "" then none else some signature })

/-- `send_sync`: on success what was handed to the transport. -/
def sendSync (g : GossipProtocol) (target : String) (signing : Except PyError String)
    (encryption sending : Except PyError Unit) : GossipProtocol × Except PyError Envelope :=
  if g.hasTransport then
    match g.createSyncRequest target none signing encryption with
    | (g', .error err) => (g', .error err)
    | (g', .ok envelope) => (g', sending.map fun () => envelope)
  else (g, .error ⟨.runtimeError, "Cannot send sync: no GossipTransport configured"⟩)

/-! ### What a request does -/

/-- The delta of a request, with the bridge that exported it. -/
def exported (g : GossipProtocol) (target : String) (sinceSeq : Option ℤ) :
    StateSyncBridge × Delta :=
  g.bridge.exportDeltaFromAudit (g.resumeSeq target sinceSeq) batchLimit

/-- The protocol after a request, whatever becomes of it. -/
def advance (g : GossipProtocol) (target : String) (sinceSeq : Option ℤ) : GossipProtocol :=
  { g with
    bridge := (g.exported target sinceSeq).1
    peerCursors := g.peerCursors.set target (g.exported target sinceSeq).2.maxSeq }

/-- The result of a request is an envelope with the exported delta for the target. -/
def Carries (g : GossipProtocol) (target : String) (sinceSeq : Option ℤ)
    (result : GossipProtocol × Except PyError Envelope) : Prop :=
  ∃ envelope, result.2 = .ok envelope ∧ envelope.targetNode = target ∧
    envelope.ciphertext.payload = (g.exported target sinceSeq).2

lemma fst_createSyncRequest (g : GossipProtocol) (target : String) (sinceSeq : Option ℤ)
    (signing : Except PyError String) (encryption : Except PyError Unit) :
    (g.createSyncRequest target sinceSeq signing encryption).1 = g.advance target sinceSeq := by
  unfold createSyncRequest
  cases signing with
  | error err => rfl
  | ok signature => cases encryption <;> rfl

lemma carries_createSyncRequest (g : GossipProtocol) {target : String} {sinceSeq : Option ℤ}
    {signing : Except PyError String} {encryption : Except PyError Unit}
    (h : (do let _ ← signing; encryption) = .ok ()) :
    g.Carries target sinceSeq (g.createSyncRequest target sinceSeq signing encryption) := by
  cases signing with
  | error err => cases h
  | ok signature =>
      have hencryption : encryption = .ok () := h
      rw [hencryption]
      exact ⟨_, rfl, rfl, rfl⟩

lemma fst_sendSync (g : GossipProtocol) (hg : g.hasTransport = true) (target : String)
    (signing : Except PyError String) (encryption sending : Except PyError Unit) :
    (g.sendSync target signing encryption sending).1 = g.advance target none := by
  rw [sendSync, if_pos hg, ← g.fst_createSyncRequest target none signing encryption]
  obtain ⟨g', result⟩ := g.createSyncRequest target none signing encryption
  cases result <;> rfl

lemma carries_sendSync (g : GossipProtocol) (hg : g.hasTransport = true) {target : String}
    {signing : Except PyError String} {encryption sending : Except PyError Unit}
    (h : (do let _ ← signing; encryption; sending) = .ok ()) :
    g.Carries target none (g.sendSync target signing encryption sending) := by
  have hcreate : (do let _ ← signing; encryption) = .ok () ∧ sending = .ok () := by
    cases signing with
    | error err => cases h
    | ok signature =>
        cases encryption with
        | error err => cases h
        | ok _ => exact ⟨rfl, h⟩
  obtain ⟨envelope, hok, htarget, hpayload⟩ :=
    @carries_createSyncRequest g target none signing encryption hcreate.1
  refine ⟨envelope, ?_, htarget, hpayload⟩
  rw [sendSync, if_pos hg, hcreate.2]
  generalize g.createSyncRequest target none signing encryption = result at hok
  obtain ⟨g', outcome⟩ := result
  have houtcome : outcome = .ok envelope := hok
  rw [houtcome]
  rfl

end GossipProtocol

/-! ## The system -/

/-- A protocol and the deltas that arrived at its peers. -/
structure GossipSystem where
  protocol : GossipProtocol
  arrived : List (String × Delta)

/-- A step.  Between requests the store is written locally, or deltas of peers are applied to it. -/
inductive GossipAction
  | storeCall (c : KvCall)
  | applyRemoteDelta (d : Delta) (times : ℕ → ℚ)
  | createSyncRequest (target : String) (sinceSeq : Option ℤ) (signing : Except PyError String)
      (encryption : Except PyError Unit) (arrives : Bool)
  | sendSync (target : String) (signing : Except PyError String)
      (encryption sending : Except PyError Unit) (arrives : Bool)

namespace GossipSystem

def init (nodeId : String) (hasTransport : Bool) : GossipSystem :=
  ⟨.init (.init .init nodeId) nodeId hasTransport, []⟩

/-- The result of a request: it is remembered when it arrives. -/
def request (s : GossipSystem) (result : GossipProtocol × Except PyError Envelope)
    (arrives : Bool) : GossipSystem :=
  match result with
  | (g, .ok envelope) =>
    if arrives then ⟨g, (envelope.targetNode, envelope.ciphertext.payload) :: s.arrived⟩
    else ⟨g, s.arrived⟩
  | (g, .error _) => ⟨g, s.arrived⟩

def step (rt : Runtime) (s : GossipSystem) : GossipAction → GossipSystem
  | .storeCall c =>
    { s with protocol := { s.protocol with bridge := s.protocol.bridge.localCall rt c } }
  | .applyRemoteDelta d times =>
    { s with protocol := { s.protocol with
        bridge := (s.protocol.bridge.applyRemoteDelta rt d times).1 } }
  | .createSyncRequest target sinceSeq signing encryption arrives =>
    s.request (s.protocol.createSyncRequest target sinceSeq signing encryption) arrives
  | .sendSync target signing encryption sending arrives =>
    s.request (s.protocol.sendSync target signing encryption sending) arrives

def run (rt : Runtime) (s : GossipSystem) (actions : List GossipAction) : GossipSystem :=
  actions.foldl (step rt) s

def rows (s : GossipSystem) : List AuditRow := s.protocol.bridge.kv.db.auditLog.rows

/-- The mutation record is one of this row. -/
def Records (m : Mutation) (r : AuditRow) : Prop :=
  m.seq = r.seq ∧ m.key = r.key ∧ m.timestamp = some r.timestamp

/-- A delta with the row arrived at the peer. -/
def Received (s : GossipSystem) (peer : String) (r : AuditRow) : Prop :=
  ∃ d, (peer, d) ∈ s.arrived ∧ ∃ m ∈ d.mutations, Records m r

/-- **No entry is skipped**: every row up to the cursor of a peer arrived there. -/
def NoneSkipped (s : GossipSystem) : Prop :=
  ∀ peer cursor, s.protocol.peerCursors.get? peer = some cursor →
    ∀ r ∈ s.rows, r.seq ≤ cursor → s.Received peer r

/-! ## When the cursors keep up -/

def batch (s : GossipSystem) (target : String) (sinceSeq : Option ℤ) : List AuditRow :=
  s.protocol.bridge.queryAuditRows (s.protocol.resumeSeq target sinceSeq)
    (StateSyncBridge.safeLimit GossipProtocol.batchLimit)

/-- A request that carries a row which the peer does not have is neither stopped on the way nor
dropped. -/
def Delivered (s : GossipSystem) (target : String) (sinceSeq : Option ℤ)
    (outcome : Except PyError Unit) (arrives : Bool) : Prop :=
  (outcome = .ok () ∧ arrives = true) ∨ ∀ r ∈ s.batch target sinceSeq, s.Received target r

/-- The condition on a step.  A rollback keeps the log as long as every cursor; a request resumes,
if it is told where, after rows of the log that have all arrived; and it is delivered unless it
brings nothing new. -/
def KeepsUp (rt : Runtime) (s : GossipSystem) : GossipAction → Prop
  | .storeCall (.rollbackSavepoint name) =>
    ∀ peer cursor, s.protocol.peerCursors.get? peer = some cursor →
      cursor ≤ ((s.step rt (.storeCall (.rollbackSavepoint name))).rows.length : ℤ)
  | .storeCall _ => True
  | .applyRemoteDelta _ _ => True
  | .createSyncRequest target sinceSeq signing encryption arrives =>
    (∀ n, sinceSeq = some n →
      n ≤ (s.rows.length : ℤ) ∧ ∀ r ∈ s.rows, r.seq ≤ n → s.Received target r) ∧
    s.Delivered target sinceSeq (do let _ ← signing; encryption) arrives
  | .sendSync target signing encryption sending arrives =>
    s.protocol.hasTransport = true →
      s.Delivered target none (do let _ ← signing; encryption; sending) arrives

/-- Every step of a run meets the condition. -/
def AllKeepUp (rt : Runtime) : GossipSystem → List GossipAction → Prop
  | _, [] => True
  | s, a :: as => s.KeepsUp rt a ∧ AllKeepUp rt (s.step rt a) as

/-! ## The invariant -/

/-- The invariant: no cursor is beyond the log, and no row below a cursor is missing. -/
structure Ok (s : GossipSystem) : Prop where
  growth : GrowthOk s.protocol.bridge.kv
  cursor_le : ∀ peer cursor, s.protocol.peerCursors.get? peer = some cursor →
    cursor ≤ (s.rows.length : ℤ)
  noneSkipped : s.NoneSkipped

lemma ok_init (nodeId : String) (hasTransport : Bool) : Ok (init nodeId hasTransport) :=
  ⟨growthOk_init, nofun, nofun⟩

/-- Whether a row arrived depends on its identity only. -/
lemma received_of_identity_eq {s : GossipSystem} {peer : String} {r r' : AuditRow}
    (h : r'.identity = r.identity) (hr : s.Received peer r') : s.Received peer r := by
  obtain ⟨d, hd, m, hm, hseq, hkey, htime⟩ := hr
  simp only [AuditRow.identity, Prod.mk.injEq] at h
  obtain ⟨hs, hk, ht⟩ := h
  exact ⟨d, hd, m, hm, hseq.trans hs, hkey.trans hk, by rw [htime, ht]⟩

/-- Between requests the log may change as long as it stays beyond the cursors and the numbers
that it has already keep their rows. -/
lemma ok_setBridge {s : GossipSystem} (h : Ok s) {b : StateSyncBridge} (hgrowth : GrowthOk b.kv)
    (hcursor : ∀ peer cursor, s.protocol.peerCursors.get? peer = some cursor →
      cursor ≤ (b.kv.db.auditLog.rows.length : ℤ))
    (hrows : ∀ r ∈ b.kv.db.auditLog.rows, r.seq ≤ (s.rows.length : ℤ) →
      ∃ r' ∈ s.rows, r'.identity = r.identity) :
    Ok { s with protocol := { s.protocol with bridge := b } } where
  growth := hgrowth
  cursor_le := hcursor
  noneSkipped peer cursor hget r hr hle := by
    obtain ⟨r', hr', hsame⟩ := hrows r hr (hle.trans (h.cursor_le peer cursor hget))
    have hseq : r'.seq = r.seq := congrArg Prod.fst hsame
    exact received_of_identity_eq hsame (h.noneSkipped peer cursor hget r' hr' (hseq ▸ hle))

lemma ok_of_grows {s : GossipSystem} (h : Ok s) {b : StateSyncBridge} (hgrowth : GrowthOk b.kv)
    (hgrows : Grows s.protocol.bridge.kv.db b.kv.db) :
    Ok { s with protocol := { s.protocol with bridge := b } } := by
  refine ok_setBridge h hgrowth (fun peer cursor hget => ?_) fun r hr hle =>
    exists_identity_of_grows hgrows hgrowth.numbered.1 hr hle
  have hle := h.cursor_le peer cursor hget
  have hlen := length_le_of_grows hgrows
  change cursor ≤ (s.protocol.bridge.kv.db.auditLog.rows.length : ℤ) at hle
  omega

/-- A request whose new rows arrived keeps the invariant. -/
lemma ok_advance {s s' : GossipSystem} (h : Ok s) {target : String} {sinceSeq : Option ℤ}
    (hle : s.protocol.resumeSeq target sinceSeq ≤ (s.rows.length : ℤ))
    (hbefore : ∀ r ∈ s.rows, r.seq ≤ s.protocol.resumeSeq target sinceSeq → s.Received target r)
    (hprotocol : s'.protocol = s.protocol.advance target sinceSeq)
    (hsub : s.arrived ⊆ s'.arrived)
    (hbatch : ∀ r ∈ s.batch target sinceSeq,
      s.Received target r ∨ (target, (s.protocol.exported target sinceSeq).2) ∈ s'.arrived) :
    Ok s' := by
  have hmono : ∀ peer r, s.Received peer r → s'.Received peer r :=
    fun peer r ⟨d, hd, hm⟩ => ⟨d, hsub hd, hm⟩
  have hrows : s'.rows = s.rows := by
    rw [rows, hprotocol]
    rfl
  have hget : ∀ peer, s'.protocol.peerCursors.get? peer =
      if target = peer then some (s.protocol.exported target sinceSeq).2.maxSeq
      else s.protocol.peerCursors.get? peer := by
    intro peer
    rw [hprotocol]
    exact PyDict.get?_set _ _ _ _
  refine ⟨?_, fun peer cursor hcursor => ?_, fun peer cursor hcursor r hr hseq => ?_⟩
  · rw [hprotocol]
    exact h.growth
  · rw [hget] at hcursor
    rw [hrows]
    split_ifs at hcursor with hpeer
    · rcases StateSyncBridge.le_maxSeqOf_iff.mp (Option.some.inj hcursor).ge with hres | ⟨r, hr, hres⟩
      · exact hres.trans hle
      · exact hres.trans (seq_le_length h.growth.numbered.1
          (StateSyncBridge.mem_rows_of_mem_queryAuditRows hr))
    · exact h.cursor_le peer cursor hcursor
  · rw [hget] at hcursor
    rw [hrows] at hr
    split_ifs at hcursor with hpeer
    · subst hpeer
      rcases StateSyncBridge.le_maxSeqOf_iff.mp (hseq.trans (Option.some.inj hcursor).ge) with
        hres | ⟨r', hr', hres⟩
      · exact hmono _ _ (hbefore r hr hres)
      · by_cases hold : r.seq ≤ s.protocol.resumeSeq target sinceSeq
        · exact hmono _ _ (hbefore r hr hold)
        · have hmem : r ∈ s.batch target sinceSeq :=
            StateSyncBridge.mem_queryAuditRows_of_le hr (not_le.mp hold) hr' hres
          rcases hbatch r hmem with hreceived | hnew
          · exact hmono _ _ hreceived
          · exact ⟨_, hnew, r.toMutation, List.mem_map_of_mem hmem, rfl, rfl, rfl⟩
    · exact hmono _ _ (h.noneSkipped peer cursor hcursor r hr hseq)

lemma request_spec (s : GossipSystem) (result : GossipProtocol × Except PyError Envelope)
    (arrives : Bool) :
    (s.request result arrives).protocol = result.1 ∧
    s.arrived ⊆ (s.request result arrives).arrived ∧
    ∀ envelope, result.2 = .ok envelope → arrives = true →
      (envelope.targetNode, envelope.ciphertext.payload) ∈ (s.request result arrives).arrived := by
  obtain ⟨g, outcome⟩ := result
  cases outcome with
  | error err => exact ⟨rfl, fun _ h => h, nofun⟩
  | ok envelope =>
      cases arrives with
      | false => exact ⟨rfl, fun _ h => h, nofun⟩
      | true =>
          refine ⟨rfl, List.subset_cons_self _ _, fun envelope' heq _ => ?_⟩
          rw [← Except.ok.inj heq]
          exact List.mem_cons_self

/-- A request, created or sent, keeps the invariant when it is delivered. -/
lemma ok_request {s : GossipSystem} (h : Ok s) {target : String} {sinceSeq : Option ℤ}
    {result : GossipProtocol × Except PyError Envelope} {outcome : Except PyError Unit}
    {arrives : Bool} (hresult : result.1 = s.protocol.advance target sinceSeq)
    (hcarries : outcome = .ok () → s.protocol.Carries target sinceSeq result)
    (hresume : s.protocol.resumeSeq target sinceSeq ≤ (s.rows.length : ℤ) ∧
      ∀ r ∈ s.rows, r.seq ≤ s.protocol.resumeSeq target sinceSeq → s.Received target r)
    (hdelivered : s.Delivered target sinceSeq outcome arrives) : Ok (s.request result arrives) := by
  obtain ⟨hprotocol, hsub, hin⟩ := request_spec s result arrives
  refine ok_advance h hresume.1 hresume.2 (hprotocol.trans hresult) hsub fun r hr => ?_
  rcases hdelivered with ⟨houtcome, harrives⟩ | hold
  · obtain ⟨envelope, hok, htarget, hpayload⟩ := hcarries houtcome
    have hmem := hin envelope hok harrives
    rw [htarget, hpayload] at hmem
    exact Or.inr hmem
  · exact Or.inl (hold r hr)

/-- A request that starts where the last one ended resumes after rows that have arrived. -/
lemma ok_resume {s : GossipSystem} (h : Ok s) (target : String) :
    s.protocol.resumeSeq target none ≤ (s.rows.length : ℤ) ∧
      ∀ r ∈ s.rows, r.seq ≤ s.protocol.resumeSeq target none → s.Received target r := by
  have hresume : s.protocol.resumeSeq target none =
      (s.protocol.peerCursors.get? target).getD 0 := rfl
  rw [hresume]
  cases hget : s.protocol.peerCursors.get? target with
  | none =>
      refine ⟨Int.natCast_nonneg _, fun r hr hle => ?_⟩
      have hpos := seq_pos h.growth.numbered.1 hr
      exact absurd hle (not_le.mpr hpos)
  | some cursor => exact ⟨h.cursor_le target cursor hget, h.noneSkipped target cursor hget⟩

/-- To the store, the application of a delta is a sequence of writes and deletions. -/
lemma exists_run_applyRemoteDelta (rt : Runtime) (b : StateSyncBridge) (d : Delta)
    (times : ℕ → ℚ) :
    ∃ calls : List KvCall, (∀ c ∈ calls, ReplicaCall c) ∧
      (b.applyRemoteDelta rt d times).1.kv = b.kv.run rt calls := by
  unfold StateSyncBridge.applyRemoteDelta
  split_ifs
  · exact ⟨[], by simp, rfl⟩
  · exact exists_run_applyMutations rt d.sourceNode b.kv d.mutations times

/-- **Step lemma.** -/
lemma ok_step {s : GossipSystem} (rt : Runtime) (h : Ok s) {a : GossipAction}
    (ha : s.KeepsUp rt a) : Ok (s.step rt a) := by
  cases a with
  | storeCall c =>
      have hgrowth : GrowthOk (s.protocol.bridge.kv.call rt c) := growthOk_call h.growth c
      by_cases hroll : ∃ name, c = .rollbackSavepoint name
      · obtain ⟨name, rfl⟩ := hroll
        have hgrows := @grows_of_rollback rt _ h.growth name
        exact ok_setBridge h (b := s.protocol.bridge.localCall rt (.rollbackSavepoint name))
          hgrowth ha fun r hr _ => exists_identity_of_mem hgrows hr
      · exact ok_of_grows h (b := s.protocol.bridge.localCall rt c) hgrowth
          (grows_call h.growth fun name hc => hroll ⟨name, hc⟩)
  | applyRemoteDelta d times =>
      obtain ⟨calls, hcalls, hrun⟩ := exists_run_applyRemoteDelta rt s.protocol.bridge d times
      have hforward : ∀ c ∈ calls, ∀ name, c ≠ .rollbackSavepoint name := by
        intro c hc name hname
        have hreplica := hcalls c hc
        rw [hname] at hreplica
        exact hreplica
      have hgrowth := @growthOk_run rt _ h.growth calls
      have hgrows := @grows_run rt _ h.growth calls hforward
      rw [← hrun] at hgrowth hgrows
      exact ok_of_grows h hgrowth hgrows
  | createSyncRequest target sinceSeq signing encryption arrives =>
      obtain ⟨hexplicit, hdelivered⟩ := ha
      refine ok_request h (s.protocol.fst_createSyncRequest target sinceSeq signing encryption)
        s.protocol.carries_createSyncRequest ?_ hdelivered
      cases sinceSeq with
      | none => exact ok_resume h target
      | some n => exact hexplicit n rfl
  | sendSync target signing encryption sending arrives =>
      by_cases htransport : s.protocol.hasTransport = true
      · exact ok_request h (s.protocol.fst_sendSync htransport target signing encryption sending)
          (s.protocol.carries_sendSync htransport) (ok_resume h target) (ha htransport)
      · -- without a transport nothing happens
        have hnothing : s.step rt (.sendSync target signing encryption sending arrives) = s := by
          simp [step, GossipProtocol.sendSync, htransport, request]
        rw [hnothing]
        exact h

/-- **Run lemma.** -/
lemma ok_run {s : GossipSystem} (rt : Runtime) (h : Ok s) {actions : List GossipAction}
    (hactions : AllKeepUp rt s actions) : Ok (s.run rt actions) := by
  induction actions generalizing s with
  | nil => exact h
  | cons a as ih => exact ih (ok_step rt h hactions.1) hactions.2

/-! ## No entry is skipped -/

/-- **No entry is skipped** in a run in which every request with new rows is delivered, explicit
starting points do not skip rows, and rollbacks do not cut the log below a cursor. -/
theorem noneSkipped_of_keepsUp (rt : Runtime) (nodeId : String) (hasTransport : Bool)
    (actions : List GossipAction) (h : AllKeepUp rt (init nodeId hasTransport) actions) :
    NoneSkipped ((init nodeId hasTransport).run rt actions) :=
  (ok_run rt (ok_init nodeId hasTransport) h).noneSkipped

/-- A write, and a request that arrives. -/
theorem noneSkipped_of_arrival :
    NoneSkipped ((init "a" true).run Runtime.sample
      [.storeCall (.setSync { key := "k", value := .bool true } 1),
        .sendSync "b" (.ok "") (.ok ()) (.ok ()) true]) :=
  noneSkipped_of_keepsUp Runtime.sample "a" true _
    ⟨trivial, fun _ => Or.inl ⟨rfl, rfl⟩, trivial⟩

def transportDown : PyError := ⟨.runtimeError, "transport is down"⟩

/-- **A failed send skips its rows.** The cursor has moved although nothing arrived. -/
theorem skipped_by_failed_send :
    ¬ ∀ (rt : Runtime) (nodeId : String) (hasTransport : Bool) (actions : List GossipAction),
      NoneSkipped ((init nodeId hasTransport).run rt actions) := by
  intro h
  set s := (init "a" true).run Runtime.sample
    [.storeCall (.setSync { key := "k", value := .bool true } 1),
      .sendSync "b" (.ok "") (.ok ()) (.error transportDown) true] with hs
  have hcursor : s.protocol.peerCursors.get? "b" = some 1 := by decide
  have hrow : s.rows.map AuditRow.seq = [1] := by decide
  obtain ⟨r, hr, hseq⟩ := List.mem_map.mp (hrow ▸ List.mem_singleton_self 1)
  obtain ⟨d, hd, -⟩ := h Runtime.sample "a" true _ "b" 1 hcursor r hr hseq.le
  exact absurd hd List.not_mem_nil

end GossipSystem

end AtlasMemory
