import AtlasMemory.Foundations.JsonRoundTrip
import AtlasMemory.L2Semantic.LogGrowth
import AtlasMemory.Sync.Replay

/-!
# Shipping a log

A store ships its whole audit log to an empty one, in consecutive batches that are applied in order.
The receiver replays the rows under the potential gate (`Replay`), while the sender's table holds
what was written last, so the two agree on a variable exactly if its last write passes the gate:
`log_shipped`.

The argument has three parts.  The batches are taken one after the other and together are the log;
the replay of a log, looked up under one key, is an arbitration among the rows of that key; and the
rows of a key that is written by `set_sync` only are its writes, whatever calls come in between.
-/

namespace AtlasMemory

open ReplicaTable

variable {rt : Runtime}

/-! ## Batches -/

/-- One batch: the limit of the export, and the readings of the receiver's clock. -/
structure Shipment where
  limit : ℤ
  times : ℕ → ℚ

/-- The two bridges, and the sequence number up to which the log was exported. -/
structure Shipping where
  sender : StateSyncBridge
  receiver : StateSyncBridge
  cursor : ℤ

namespace Shipping

def shipBatch (rt : Runtime) (p : Shipping) (s : Shipment) : Shipping :=
  let (sender, d) := p.sender.exportDeltaFromAudit p.cursor s.limit
  ⟨sender, (p.receiver.applyRemoteDelta rt d s.times).1, d.maxSeq⟩

def run (rt : Runtime) (p : Shipping) (shipments : List Shipment) : Shipping :=
  shipments.foldl (shipBatch rt) p

/-- The number of rows that the batches have room for. -/
def room (shipments : List Shipment) : ℕ :=
  (shipments.map fun s => StateSyncBridge.safeLimit s.limit).sum

end Shipping

/-- The receiver of a log, in consecutive batches from the first row on: a store that was empty. -/
def shipLog (rt : Runtime) (source : VerifiedKVStore) (sender receiver : String)
    (shipments : List Shipment) : VerifiedKVStore :=
  (Shipping.run rt ⟨.init source sender, .init .init receiver, 0⟩ shipments).receiver.kv

/-- In a numbered log, the rows after `n` are those at the positions from `n` on. -/
lemma queryAuditRows_of_numbered {b : StateSyncBridge} (h : Numbered b.kv.db.auditLog) (n limit : ℕ) :
    b.queryAuditRows n limit = (b.kv.db.auditLog.rows.drop n).take limit := by
  rw [StateSyncBridge.queryAuditRows]
  congr 1
  set rows := b.kv.db.auditLog.rows with hrows
  have hseq : ∀ (i : ℕ) (hi : i < rows.length), rows[i].seq = (i : ℤ) + 1 :=
    fun i hi => seq_getElem h hi
  have hbefore : (rows.take n).filter (fun r => decide ((n : ℤ) < r.seq)) = [] := by
    refine List.filter_eq_nil_iff.mpr fun r hr => ?_
    obtain ⟨i, hi, rfl⟩ := List.mem_take_iff_getElem.mp hr
    rw [hseq i (by omega)]
    simp only [decide_eq_true_eq]
    omega
  have hafter : (rows.drop n).filter (fun r => decide ((n : ℤ) < r.seq)) = rows.drop n := by
    refine List.filter_eq_self.mpr fun r hr => ?_
    obtain ⟨i, hi, rfl⟩ := List.mem_drop_iff_getElem.mp hr
    rw [hseq (n + i) (by omega)]
    simp only [decide_eq_true_eq]
    omega
  calc rows.filter (fun r => decide ((n : ℤ) < r.seq))
      = (rows.take n ++ rows.drop n).filter (fun r => decide ((n : ℤ) < r.seq)) := by
        rw [List.take_append_drop]
    _ = rows.drop n := by rw [List.filter_append, hbefore, hafter, List.nil_append]

lemma maxSeqOf_batch {log : AuditLog} (h : Numbered log) {n : ℕ} (hn : n ≤ log.rows.length)
    (limit : ℕ) : StateSyncBridge.maxSeqOf n ((log.rows.drop n).take limit) =
      (min (n + limit) log.rows.length : ℕ) := by
  have hseq : ∀ r ∈ (log.rows.drop n).take limit,
      r.seq ≤ (min (n + limit) log.rows.length : ℕ) := by
    intro r hr
    obtain ⟨i, hi, rfl⟩ := List.mem_take_iff_getElem.mp hr
    rw [List.getElem_drop, seq_getElem h (by simp at hi; omega)]
    simp at hi
    omega
  refine le_antisymm ?_ (StateSyncBridge.le_maxSeqOf_iff.mpr ?_)
  · rcases StateSyncBridge.le_maxSeqOf_iff.mp (le_refl (StateSyncBridge.maxSeqOf n
      ((log.rows.drop n).take limit))) with hle | ⟨r, hr, hle⟩
    · omega
    · exact hle.trans (hseq r hr)
  · by_cases hgrow : n < min (n + limit) log.rows.length
    · -- the batch has a last row
      have hi : min (n + limit) log.rows.length - 1 - n < ((log.rows.drop n).take limit).length := by
        simp
        omega
      refine Or.inr ⟨_, List.getElem_mem hi, ?_⟩
      rw [List.getElem_take, List.getElem_drop, seq_getElem h (by omega)]
      omega
    · exact Or.inl (by omega)

namespace Shipping

/-- The receiver is in step with the first `n` rows of the log. -/
structure InStep (rt : Runtime) (source : VerifiedKVStore) (p : Shipping) (n : ℕ) : Prop where
  kv : p.sender.kv = source
  cursor : p.cursor = n
  le_length : n ≤ source.db.auditLog.rows.length
  view : p.receiver.kv.db.stateVariables.view rt =
    (source.db.auditLog.rows.take n).foldl replay ∅
  nodes : p.receiver.nodeId ≠ p.sender.nodeId
  nonneg : 0 ≤ p.sender.clock.get p.sender.nodeId
  behind : p.receiver.clock.get p.sender.nodeId ≤ p.sender.clock.get p.sender.nodeId

lemma peerClock_exportDeltaFromAudit (b : StateSyncBridge) (sinceSeq limit : ℤ) :
    StateSyncBridge.peerClock (b.exportDeltaFromAudit sinceSeq limit).2 =
      some (CompactVectorClock.modelValidate (b.clock.increment b.nodeId).clocks) := by
  have hget : (b.clock.increment b.nodeId).clocks.get? b.nodeId =
      some (b.clock.get b.nodeId + 1) := PyDict.get?_set_self _ _ _
  have hmem := PyDict.mem_entries_iff.mpr hget
  have hne : (b.clock.increment b.nodeId).clocks.entries.isEmpty = false := by
    rw [List.isEmpty_eq_false_iff]
    exact List.ne_nil_of_mem hmem
  show (if (b.clock.increment b.nodeId).clocks.entries.isEmpty then none
    else some _ : Option CompactVectorClock) = _
  rw [hne]
  rfl

/-- The export of a node that the receiver knows less of is not stale. -/
lemma rejectsAsStale_exportDeltaFromAudit {a b : StateSyncBridge}
    (h : b.clock.get a.nodeId ≤ a.clock.get a.nodeId) (sinceSeq limit : ℤ) :
    b.rejectsAsStale (a.exportDeltaFromAudit sinceSeq limit).2 = false := by
  rw [StateSyncBridge.rejectsAsStale, peerClock_exportDeltaFromAudit]
  show StateSyncBridge.isStale b.clock _ = false
  unfold CompactVectorClock.modelValidate StateSyncBridge.isStale
  split_ifs with hquirk
  · rfl
  · have hget : (a.clock.increment a.nodeId).clocks.get? a.nodeId =
        some (a.clock.get a.nodeId + 1) := PyDict.get?_set_self _ _ _
    have hbeyond : ¬ a.clock.get a.nodeId + 1 ≤ b.clock.get a.nodeId := by omega
    rw [Bool.and_eq_false_iff]
    refine Or.inr (List.all_eq_false.mpr ⟨_, PyDict.mem_entries_iff.mpr hget, ?_⟩)
    simpa using hbeyond

/-- **One batch.** -/
lemma inStep_shipBatch {source : VerifiedKVStore} (hnumbered : Numbered source.db.auditLog)
    {p : Shipping} {n : ℕ} (h : InStep rt source p n) (s : Shipment) :
    InStep rt source (p.shipBatch rt s)
      (min (n + StateSyncBridge.safeLimit s.limit) source.db.auditLog.rows.length) := by
  set limit := StateSyncBridge.safeLimit s.limit with hlimit
  set rows := source.db.auditLog.rows with hrows
  set d := (p.sender.exportDeltaFromAudit p.cursor s.limit).2 with hd
  have hquery : p.sender.queryAuditRows p.cursor limit = (rows.drop n).take limit := by
    rw [h.cursor, queryAuditRows_of_numbered (h.kv ▸ hnumbered), h.kv]
  have hfresh : p.receiver.rejectsAsStale d = false :=
    rejectsAsStale_exportDeltaFromAudit h.behind _ _
  have hmutations : d.mutations = ((rows.drop n).take limit).map AuditRow.toMutation :=
    congrArg (List.map AuditRow.toMutation) hquery
  have hpeer : StateSyncBridge.peerClock d =
      some (CompactVectorClock.modelValidate (p.sender.clock.increment p.sender.nodeId).clocks) :=
    peerClock_exportDeltaFromAudit _ _ _
  have happly : (p.receiver.applyRemoteDelta rt d s.times).1 =
      { p.receiver with
        kv := (applyMutations rt d.sourceNode p.receiver.kv d.mutations s.times).1
        clock := p.receiver.clock.receive (CompactVectorClock.modelValidate
          (p.sender.clock.increment p.sender.nodeId).clocks) p.receiver.nodeId } := by
    rw [StateSyncBridge.applyRemoteDelta, hfresh, hpeer]
    rfl
  have hcounter : (p.sender.clock.increment p.sender.nodeId).get p.sender.nodeId =
      p.sender.clock.get p.sender.nodeId + 1 := by
    rw [CompactVectorClock.get_increment, if_pos rfl]
  have hnonneg := h.nonneg
  have hbehind := h.behind
  refine ⟨h.kv, ?_, min_le_right _ _, ?_, ?_, ?_, ?_⟩
  · show StateSyncBridge.maxSeqOf p.cursor (p.sender.queryAuditRows p.cursor limit) = _
    rw [hquery, h.cursor]
    exact maxSeqOf_batch hnumbered h.le_length limit
  · have htake : rows.take (min (n + limit) rows.length) =
        rows.take n ++ (rows.drop n).take limit := by
      rw [← List.take_add, List.take_eq_take_iff]
      omega
    show (p.receiver.applyRemoteDelta rt d s.times).1.kv.db.stateVariables.view rt = _
    rw [happly, htake, List.foldl_append, ← h.view, hmutations]
    exact view_applyMutations d.sourceNode p.receiver.kv _ s.times
  · show (p.receiver.applyRemoteDelta rt d s.times).1.nodeId ≠ p.sender.nodeId
    rw [happly]
    exact h.nodes
  · show 0 ≤ (p.sender.clock.increment p.sender.nodeId).get p.sender.nodeId
    omega
  · show (p.receiver.applyRemoteDelta rt d s.times).1.clock.get p.sender.nodeId ≤
      (p.sender.clock.increment p.sender.nodeId).get p.sender.nodeId
    have hread : (CompactVectorClock.modelValidate
        (p.sender.clock.increment p.sender.nodeId).clocks).get p.sender.nodeId ≤
          p.sender.clock.get p.sender.nodeId + 1 := by
      unfold CompactVectorClock.modelValidate
      split_ifs
      · show (0 : ℤ) ≤ _
        omega
      · exact hcounter.le
    rw [happly, hcounter]
    show (p.receiver.clock.receive _ p.receiver.nodeId).get p.sender.nodeId ≤ _
    rw [CompactVectorClock.get_receive, if_neg h.nodes]
    omega

/-- **Consecutive batches.** -/
lemma inStep_run {source : VerifiedKVStore} (hnumbered : Numbered source.db.auditLog)
    {p : Shipping} {n : ℕ} (h : InStep rt source p n) (shipments : List Shipment) :
    InStep rt source (p.run rt shipments)
      (min (n + room shipments) source.db.auditLog.rows.length) := by
  induction shipments generalizing p n with
  | nil =>
      have hsame : min (n + room []) source.db.auditLog.rows.length = n := by
        have hle := h.le_length
        simp only [room, List.map_nil, List.sum_nil]
        omega
      rw [hsame]
      exact h
  | cons s ss ih =>
      have hrest := ih (inStep_shipBatch hnumbered h s)
      have hsum : min (min (n + StateSyncBridge.safeLimit s.limit)
          source.db.auditLog.rows.length + room ss) source.db.auditLog.rows.length =
            min (n + room (s :: ss)) source.db.auditLog.rows.length := by
        simp only [room, List.map_cons, List.sum_cons]
        omega
      rw [hsum] at hrest
      exact hrest

end Shipping

lemma view_shipLog {source : VerifiedKVStore} (hnumbered : Numbered source.db.auditLog)
    {sender receiver : String} (hnodes : sender ≠ receiver) {shipments : List Shipment}
    (hroom : source.db.auditLog.rows.length ≤ Shipping.room shipments) :
    (shipLog rt source sender receiver shipments).db.stateVariables.view rt =
      source.db.auditLog.rows.foldl replay ∅ := by
  have hinit : Shipping.InStep rt source ⟨.init source sender, .init .init receiver, 0⟩ 0 := by
    refine ⟨rfl, rfl, Nat.zero_le _, rfl, hnodes.symm, ?_, ?_⟩
    · exact (CompactVectorClock.get_single_self sender 0).ge
    · show (CompactVectorClock.single receiver 0).get sender ≤
        (CompactVectorClock.single sender 0).get sender
      rw [CompactVectorClock.get_single_of_ne 0 hnodes.symm, CompactVectorClock.get_single_self]
  have hview := (Shipping.inStep_run hnumbered hinit shipments).view
  rw [Nat.zero_add, min_eq_right hroom, List.take_length] at hview
  exact hview

/-! ## The replay under one key -/

namespace ReplicaTable

/-- What a row does to the replica under its key. -/
def settle (current : Option Replica) (r : AuditRow) : Option Replica :=
  if current.any (outweighs · (exportedConfidence r)) then current
  else if r.toMutation.isDeleted then none
  else some (replicaOf r)

lemma get?_replay_of_ne (t : ReplicaTable) {r : AuditRow} {k : String}
    (h : r.toMutation.appliedKey ≠ k) : (t.replay r).get? k = t.get? k := by
  rw [replay]
  split_ifs
  · rfl
  · rfl
  · exact PyDict.get?_erase_of_ne t h
  · exact PyDict.get?_set_of_ne t _ h

lemma get?_replay_self {t : ReplicaTable} {r : AuditRow} {k : String} (hk : k ≠ "")
    (hkey : r.toMutation.appliedKey = k) (hlookup : t.lookup k = t.get? k) :
    (t.replay r).get? k = settle (t.get? k) r := by
  rw [replay, settle, hkey, hlookup, if_neg hk]
  split_ifs
  · rfl
  · exact PyDict.get?_erase_self t k
  · exact PyDict.get?_set_self t k _

/-- A table in which no other key agrees with `k` up to case is looked up exactly. -/
lemma lookup_eq_get? {t : ReplicaTable} {k : String}
    (h : ∀ key ∈ t.keys, SqlText.lower key = SqlText.lower k → key = k) :
    t.lookup k = t.get? k := by
  rw [lookup]
  cases hget : t.get? k with
  | some replica => rfl
  | none =>
      have habsent := PyDict.get?_eq_none_iff.mp hget
      have hnone : (t.entries.find? fun e => decide (SqlText.lower e.1 = SqlText.lower k)) =
          none := by
        refine List.find?_eq_none.mpr fun e he hcase => habsent ?_
        have hmem : e.1 ∈ t.keys := List.mem_map_of_mem he
        exact h e.1 hmem (of_decide_eq_true hcase) ▸ hmem
      show Option.map Prod.snd (t.entries.find? _) = none
      rw [hnone]
      rfl

lemma mem_keys_replay {t : ReplicaTable} {r : AuditRow} {key : String}
    (h : key ∈ (t.replay r).keys) : key ∈ t.keys ∨ key = r.toMutation.appliedKey := by
  by_cases hkey : r.toMutation.appliedKey = key
  · exact Or.inr hkey.symm
  · rw [PyDict.mem_keys_iff, get?_replay_of_ne t hkey] at h
    exact Or.inl (PyDict.mem_keys_iff.mpr h)

/-- **The replay under one key** is an arbitration among the rows of the key, if no other key of the
rows agrees with it up to case. -/
lemma get?_foldl_replay {k : String} (hk : k ≠ "") {rows : List AuditRow} {t : ReplicaTable}
    (hkeys : ∀ key ∈ t.keys, SqlText.lower key = SqlText.lower k → key = k)
    (hrows : ∀ r ∈ rows, SqlText.lower r.toMutation.appliedKey = SqlText.lower k →
      r.toMutation.appliedKey = k) :
    (rows.foldl replay t).get? k =
      (rows.filter fun r => decide (r.toMutation.appliedKey = k)).foldl settle (t.get? k) := by
  induction rows generalizing t with
  | nil => rfl
  | cons r rs ih =>
      obtain ⟨hr, hrs⟩ := List.forall_mem_cons.mp hrows
      have hnext : ∀ key ∈ (t.replay r).keys, SqlText.lower key = SqlText.lower k → key = k := by
        intro key hmem hcase
        rcases mem_keys_replay hmem with hold | rfl
        · exact hkeys key hold hcase
        · exact hr hcase
      rw [List.foldl_cons, ih hnext hrs]
      by_cases hkey : r.toMutation.appliedKey = k
      · rw [List.filter_cons_of_pos (by simpa using hkey), List.foldl_cons,
          get?_replay_self hk hkey (lookup_eq_get? hkeys)]
      · rw [List.filter_cons_of_neg (by simpa using hkey), get?_replay_of_ne t hkey]

end ReplicaTable

/-! ## The writes of a variable -/

/-- The call writes the variable `k`. -/
def KvCall.writeOf (k : String) : KvCall → Option SetArgs
  | .setSync a _ => if a.key = k then some a else none
  | _ => none

/-- The writes of the variable `k`, in order. -/
def writesOf (k : String) (calls : List KvCall) : List SetArgs := calls.filterMap (·.writeOf k)

/-- A write that is logged as one: its objects have distinct names, and neither its value nor its
reason stands for a deletion. -/
structure PlainWrite (w : SetArgs) : Prop where
  distinct : Json.Distinct w.value
  value : w.value ≠ .str deletedMarker
  reason : w.reason ≠ "delete" ∧ w.reason ≠ "agent_delete"

/-- The call is one of the four kinds, and touches the variable `k` and its rows only by a plain
write. -/
def PlainFor (k : String) (db : Db) : KvCall → Prop
  | .setSync a _ => a.key = k → PlainWrite a
  | .appendAuditLog entry _ => entry.key.getD "" ≠ k
  | .recordSleepCheckpoint a _ => a.checkpointId ≠ k
  | .redactAuditEntry seq _ _ _ _ => ∀ r ∈ db.auditLog.rows, r.seq = seq → r.key ≠ k
  | _ => False

/-- The row records the write. -/
structure Records (r : AuditRow) (w : SetArgs) : Prop where
  newValue : r.newValue = some w.value.dumps
  confidence : r.confidence = some (.finite (PyFloat.clampUnit w.confidence))
  reason : r.reason = some w.reason

def AuditLog.rowsOf (log : AuditLog) (k : String) : List AuditRow :=
  log.rows.filter fun r => decide (r.key = k)

/-- The value and the confidence that a write stores. -/
def SetArgs.content (w : SetArgs) : String × ℚ := (w.value.dumps, PyFloat.clampUnit w.confidence)

/-- The value and the confidence of a variable. -/
def StateTable.content (t : StateTable) (k : String) : Option (String × ℚ) :=
  (t.get? k).map fun row => (row.value, row.confidence)

/-- The log and the table of a store in which the variable `k` was written as `writes` says. -/
structure Recorded (k : String) (db : Db) (writes : List SetArgs) : Prop where
  numbered : Numbered db.auditLog
  rows : List.Forall₂ Records (db.auditLog.rowsOf k) writes
  content : db.stateVariables.content k = writes.getLast?.map SetArgs.content

lemma rowsOf_of_rows_eq {log log' : AuditLog} {row : AuditRow} (h : log'.rows = log.rows ++ [row])
    (k : String) : log'.rowsOf k = log.rowsOf k ++ if row.key = k then [row] else [] := by
  rw [AuditLog.rowsOf, AuditLog.rowsOf, h, List.filter_append, List.filter_singleton]
  by_cases hkey : row.key = k <;> simp [hkey]

/-- An append under another key leaves the rows of a key alone. -/
lemma rowsOf_append_of_ne {db : Db} (h : Numbered db.auditLog) {e : NewEntry} {k : String}
    (hkey : e.key ≠ k) : (db.append rt e).1.auditLog.rowsOf k = db.auditLog.rowsOf k := by
  rw [Db.append]
  rcases @append_cases rt db.auditLog h e with ⟨-, herr⟩ | ⟨stored, log', -, hok, hrows⟩
  · rw [herr]
  · rw [hok]
    have hrow : (appendedRow rt db.auditLog e stored).key ≠ k := hkey
    show log'.rowsOf k = _
    rw [rowsOf_of_rows_eq hrows, if_neg hrow, List.append_nil]

/-- A new content of a row of another key leaves the rows of a key alone. -/
lemma rowsOf_setNewValue_of_ne {log : AuditLog} {seq : ℤ} {k : String}
    (h : ∀ r ∈ log.rows, r.seq = seq → r.key ≠ k) (v : Option String) :
    (log.setNewValue seq v).rowsOf k = log.rowsOf k := by
  rw [AuditLog.rowsOf, AuditLog.rowsOf, AuditLog.setNewValue, AuditLog.mapRows, List.filter_map]
  have hkeys : ((fun r : AuditRow => decide (r.key = k)) ∘ fun r =>
      if r.seq = seq then { r with newValue := v } else r) = fun r => decide (r.key = k) := by
    funext r
    by_cases hr : r.seq = seq <;> simp [hr]
  rw [hkeys]
  refine (List.map_congr_left fun r hr => ?_).trans (List.map_id _)
  obtain ⟨hmem, hkey⟩ := List.mem_filter.mp hr
  exact if_neg fun hseq => h r hmem hseq (of_decide_eq_true hkey)

lemma recorded_setSync {k : String} {db : Db} {writes : List SetArgs} (h : Recorded k db writes)
    {a : SetArgs} (hkey : a.key = k) (now : ℚ) :
    Recorded k (db.setSync rt a now).1 (writes ++ [a]) := by
  obtain ⟨db', hlog, happend⟩ := @setSync_eq_append rt db a now
  have hrows : (db.setSync rt a now).1.auditLog.rows =
      db.auditLog.rows ++ [appendedRow rt db.auditLog (a.entry rt now) (.finite now)] := by
    rw [happend, ← hlog]
    exact rows_append db' (hlog ▸ h.numbered) rfl
  refine ⟨numbered_of_rows_eq h.numbered hrows, ?_, ?_⟩
  · rw [rowsOf_of_rows_eq hrows, if_pos (show (appendedRow rt db.auditLog (a.entry rt now)
      (.finite now)).key = k from hkey)]
    exact List.rel_append h.rows (.cons ⟨rfl, rfl, rfl⟩ .nil)
  · rw [StateTable.content, Db.stateVariables_setSync, hkey, StateTable.get?_setState_self,
      List.getLast?_concat]
    rfl

/-- A call that leaves the variable and its rows alone. -/
lemma recorded_of_eq {k : String} {db db' : Db} {writes : List SetArgs} (h : Recorded k db writes)
    (hnumbered : Numbered db'.auditLog) (hrows : db'.auditLog.rowsOf k = db.auditLog.rowsOf k)
    (hcontent : db'.stateVariables.content k = db.stateVariables.content k) :
    Recorded k db' writes :=
  ⟨hnumbered, hrows ▸ h.rows, hcontent.trans h.content⟩

/-- **One call.** -/
lemma recorded_dbAfter {k : String} {db : Db} {writes : List SetArgs} (h : Recorded k db writes)
    {c : KvCall} (hc : PlainFor k db c) :
    Recorded k (VerifiedKVStore.dbAfter rt db c) (writes ++ (c.writeOf k).toList) := by
  have hnumbered := @numbered_dbAfter rt db h.numbered c
  cases c with
  | setSync a now =>
      by_cases hkey : a.key = k
      · have hwrite : (KvCall.setSync a now).writeOf k = some a := if_pos hkey
        rw [hwrite]
        exact recorded_setSync h hkey now
      · have hwrite : (KvCall.setSync a now).writeOf k = none := if_neg hkey
        rw [hwrite, Option.toList_none, List.append_nil]
        obtain ⟨db', hlog, happend⟩ := @setSync_eq_append rt db a now
        refine recorded_of_eq h hnumbered ?_ ?_
        · rw [VerifiedKVStore.dbAfter, happend,
            rowsOf_append_of_ne (hlog ▸ h.numbered) (show (a.entry rt now).key ≠ k from hkey), hlog]
        · rw [VerifiedKVStore.dbAfter, StateTable.content, Db.stateVariables_setSync,
            StateTable.get?_setState_of_ne _ hkey]
          rfl
  | appendAuditLog entry now =>
      show Recorded k _ (writes ++ [])
      rw [List.append_nil]
      refine recorded_of_eq h hnumbered ?_ ?_
      · rw [VerifiedKVStore.dbAfter, appendAuditLog_eq]
        cases hconv : entry.toNewEntry rt now with
        | error err => rfl
        | ok e => exact rowsOf_append_of_ne h.numbered ((key_of_toNewEntry hconv).trans_ne hc)
      · rw [VerifiedKVStore.dbAfter, appendAuditLog_eq]
        cases entry.toNewEntry rt now with
        | error err => rfl
        | ok e => exact congrArg (StateTable.content · k) (Db.stateVariables_append rt db e)
  | recordSleepCheckpoint a now =>
      show Recorded k _ (writes ++ [])
      rw [List.append_nil]
      rcases @recordSleepCheckpoint_cases rt db a now with hsame | ⟨table, happend⟩
      · show Recorded k (db.recordSleepCheckpoint rt a now).1 writes
        rw [hsame]
        exact h
      · refine recorded_of_eq h hnumbered ?_ ?_
        · rw [VerifiedKVStore.dbAfter, happend]
          exact @rowsOf_append_of_ne rt { db with checkpoints := table } h.numbered _ k hc
        · rw [VerifiedKVStore.dbAfter, happend, Db.stateVariables_append]
  | redactAuditEntry seq reason redactedValue today now =>
      show Recorded k _ (writes ++ [])
      rw [List.append_nil]
      refine recorded_of_eq h hnumbered ?_ rfl
      rcases redactAuditEntry_log db.auditLog db.redactions seq reason redactedValue today now with
        heq | ⟨marker, heq⟩
      · exact congrArg (AuditLog.rowsOf · k) heq
      · exact (congrArg (AuditLog.rowsOf · k) heq).trans (rowsOf_setNewValue_of_ne hc marker)
  | _ => exact hc.elim

/-- **A run.** -/
lemma recorded_run {k : String} {s : VerifiedKVStore} {writes : List SetArgs}
    (h : Recorded k s.db writes) {calls : List KvCall}
    (hcalls : VerifiedKVStore.AllSteps rt (PlainFor k) s calls) :
    Recorded k (s.run rt calls).db (writes ++ writesOf k calls) := by
  induction calls generalizing s writes with
  | nil =>
      rw [writesOf, List.filterMap_nil, List.append_nil]
      exact h
  | cons c cs ih =>
      obtain ⟨hc, hcs⟩ := hcalls
      have hdb : (s.call rt c).db = VerifiedKVStore.dbAfter rt s.db c :=
        VerifiedKVStore.db_call fun name hname => by
          rw [hname] at hc
          exact hc
      have hstep := @recorded_dbAfter rt k s.db writes h c hc
      rw [← hdb] at hstep
      have hrest := ih hstep hcs
      have hwrites : writesOf k (c :: cs) = (c.writeOf k).toList ++ writesOf k cs := by
        rw [writesOf, List.filterMap_cons]
        cases c.writeOf k <;> rfl
      rw [VerifiedKVStore.run_cons, hwrites, ← List.append_assoc]
      exact hrest

lemma plainWrite_of_mem {k : String} {s : VerifiedKVStore} {calls : List KvCall}
    (hcalls : VerifiedKVStore.AllSteps rt (PlainFor k) s calls) {w : SetArgs}
    (hw : w ∈ writesOf k calls) : PlainWrite w := by
  induction calls generalizing s with
  | nil => exact absurd hw List.not_mem_nil
  | cons c cs ih =>
      obtain ⟨hc, hcs⟩ := hcalls
      obtain ⟨c', hc', hwrite⟩ := List.mem_filterMap.mp hw
      rcases List.mem_cons.mp hc' with rfl | hrest
      · cases c' with
        | setSync a now =>
            by_cases hkey : a.key = k
            · have hsome : (KvCall.setSync a now).writeOf k = some a := if_pos hkey
              rw [hsome] at hwrite
              exact Option.some.inj hwrite ▸ hc hkey
            · have hnone : (KvCall.setSync a now).writeOf k = none := if_neg hkey
              rw [hnone] at hwrite
              cases hwrite
        | _ => cases hwrite
      · exact ih hcs (List.mem_filterMap.mpr ⟨c', hrest, hwrite⟩)

/-! ## The arbitration among the writes -/

/-- The gate drops a write after another one. -/
def drops (current w : SetArgs) : Bool :=
  decide (PyFloat.clampUnit w.confidence < PyFloat.clampUnit current.confidence - lambdaTolerance)

/-- The write that stands after a further one. -/
def arbitrate (current : Option SetArgs) (w : SetArgs) : Option SetArgs :=
  if current.any (drops · w) then current else some w

/-- The last write that the gate lets through. -/
def lastLetThrough (writes : List SetArgs) : Option SetArgs := writes.foldl arbitrate none

/-- The gate lets the last write through: its confidence is not below that of the last write let
through before it, up to the tolerance. -/
def LastPasses (writes : List SetArgs) : Prop :=
  ∀ before w, writes = before ++ [w] → ∀ current, lastLetThrough before = some current →
    drops current w = false

def SetArgs.replica (w : SetArgs) : Replica :=
  ⟨w.value.dumps, PyFloat.clampUnit w.confidence, .finite (PyFloat.clampUnit w.confidence)⟩

lemma isDeleted_of_records {r : AuditRow} {w : SetArgs} (hr : Records r w) (hw : PlainWrite w) :
    r.toMutation.isDeleted = false := by
  have hback := Json.loads_dumps hw.distinct
  have hjson : w.value.dumps ≠ deletedMarkerJson := by
    intro heq
    rw [heq] at hback
    have hmarker : (Json.str deletedMarker).dumps = deletedMarkerJson := by decide +kernel
    have hread := Json.loads_dumps (v := .str deletedMarker) trivial
    rw [hmarker] at hread
    exact hw.value (Option.some.inj (hback.symm.trans hread))
  have hbare : w.value.dumps ≠ deletedMarker := by
    intro heq
    rw [heq] at hback
    have hnone : Json.loads (PyText.ofString deletedMarker) = none := by decide +kernel
    rw [hnone] at hback
    cases hback
  simp [Mutation.isDeleted, AuditRow.toMutation, hr.newValue, hr.reason, hjson, hbare, hw.reason]

lemma replicaOf_of_records {r : AuditRow} {w : SetArgs} (hr : Records r w) (hw : PlainWrite w) :
    replicaOf r = w.replica := by
  have hvalue : r.toMutation.decodedValue = w.value := by
    rw [Mutation.decodedValue, show r.toMutation.value = _ from hr.newValue]
    show (Json.loads (PyText.ofString w.value.dumps)).getD _ = w.value
    rw [Json.loads_dumps hw.distinct]
    rfl
  have hconfidence : exportedConfidence r = .finite (PyFloat.clampUnit w.confidence) := by
    rw [exportedConfidence, hr.confidence]
    rfl
  rw [replicaOf, hvalue, hconfidence, PyFloat.clampUnit_finite_of_mem
    (PyFloat.clampUnit_nonneg _) (PyFloat.clampUnit_le_one _)]
  rfl

lemma settle_of_records {r : AuditRow} {w : SetArgs} (hr : Records r w) (hw : PlainWrite w)
    (current : Option SetArgs) :
    settle (current.map SetArgs.replica) r = (arbitrate current w).map SetArgs.replica := by
  have hconfidence : exportedConfidence r = .finite (PyFloat.clampUnit w.confidence) := by
    rw [exportedConfidence, hr.confidence]
    rfl
  have hgate : (current.map SetArgs.replica).any (outweighs · (exportedConfidence r)) =
      current.any (drops · w) := by
    rw [hconfidence, Option.any_map]
    rfl
  rw [settle, arbitrate, hgate, isDeleted_of_records hr hw, replicaOf_of_records hr hw]
  split_ifs
  · rfl
  · exact absurd ‹False› not_false
  · rfl

lemma foldl_settle_of_records {rows : List AuditRow} {writes : List SetArgs}
    (h : List.Forall₂ Records rows writes) (hwrites : ∀ w ∈ writes, PlainWrite w)
    (current : Option SetArgs) :
    rows.foldl settle (current.map SetArgs.replica) =
      (writes.foldl arbitrate current).map SetArgs.replica := by
  induction h generalizing current with
  | nil => rfl
  | cons hr hrest ih =>
      obtain ⟨hw, hws⟩ := List.forall_mem_cons.mp hwrites
      rw [List.foldl_cons, List.foldl_cons, settle_of_records hr hw, ih hws]

lemma isSome_lastLetThrough (writes : List SetArgs) :
    (lastLetThrough writes).isSome = (writes.getLast?).isSome := by
  induction writes using List.reverseRecOn with
  | nil => rfl
  | append_singleton before w ih =>
      rw [lastLetThrough, List.foldl_concat, ← lastLetThrough, arbitrate, List.getLast?_concat]
      cases lastLetThrough before with
      | none => rfl
      | some current =>
          split_ifs <;> rfl

/-- The last write stands exactly if the gate lets it through: one that is dropped has another
confidence than the one that stands. -/
lemma content_lastLetThrough_iff (writes : List SetArgs) :
    (lastLetThrough writes).map SetArgs.content = writes.getLast?.map SetArgs.content ↔
      LastPasses writes := by
  rcases List.eq_nil_or_concat' writes with rfl | ⟨before, w, rfl⟩
  · refine iff_of_true rfl fun before w hnil => ?_
    exact absurd hnil (by simp)
  · have hlast : LastPasses (before ++ [w]) ↔
        ∀ current, lastLetThrough before = some current → drops current w = false := by
      constructor
      · exact fun h => h before w rfl
      · intro h before' w' heq
        obtain ⟨rfl, hw⟩ := List.append_inj' heq rfl
        rw [← List.singleton_injective hw]
        exact h
    rw [hlast, lastLetThrough, List.foldl_concat, ← lastLetThrough, arbitrate,
      List.getLast?_concat]
    cases hbefore : lastLetThrough before with
    | none => simp
    | some current =>
        simp only [Option.any_some, Option.some.injEq, forall_eq']
        by_cases hdrops : drops current w = true
        · have hlt := of_decide_eq_true hdrops
          have hne : current.content ≠ w.content := by
            intro heq
            have hconfidence := congrArg Prod.snd heq
            simp only [SetArgs.content] at hconfidence
            have htol : (0 : ℚ) < lambdaTolerance := by norm_num [lambdaTolerance]
            linarith
          rw [if_pos hdrops]
          simp [hne, hdrops]
        · rw [if_neg hdrops]
          simpa using hdrops

/-! ## The receiver's variable -/

/-- The key is shipped as it stands, and no other key of the log agrees with it up to surrounding
white space and case. -/
structure ShippedKey (k : String) (log : AuditLog) : Prop where
  ne_empty : k ≠ ""
  stripped : PyString.strip k = k
  alone : ∀ r ∈ log.rows, SqlText.lower (PyString.strip r.key) = SqlText.lower k → r.key = k

lemma filter_appliedKey {k : String} {log : AuditLog} (h : ShippedKey k log) :
    (log.rows.filter fun r => decide (r.toMutation.appliedKey = k)) = log.rowsOf k := by
  refine List.filter_congr fun r hr => ?_
  have hiff : r.toMutation.appliedKey = k ↔ r.key = k := by
    constructor
    · intro hkey
      exact h.alone r hr (congrArg SqlText.lower hkey)
    · intro hkey
      show PyString.strip r.key = k
      rw [hkey, h.stripped]
  simp only [hiff]

/-- The receiver's variable is the last write that the gate lets through. -/
lemma content_shipLog {k : String} {source : VerifiedKVStore} {writes : List SetArgs}
    (hrecorded : Recorded k source.db writes) (hwrites : ∀ w ∈ writes, PlainWrite w)
    (hkey : ShippedKey k source.db.auditLog) {sender receiver : String} (hnodes : sender ≠ receiver)
    {shipments : List Shipment}
    (hroom : source.db.auditLog.rows.length ≤ Shipping.room shipments) :
    (shipLog rt source sender receiver shipments).db.stateVariables.content k =
      (lastLetThrough writes).map SetArgs.content := by
  set target := (shipLog rt source sender receiver shipments).db.stateVariables with htarget
  have hview : target.view rt = source.db.auditLog.rows.foldl replay ∅ :=
    view_shipLog hrecorded.numbered hnodes hroom
  have hreplica : (target.view rt).get? k = (lastLetThrough writes).map SetArgs.replica := by
    rw [hview, get?_foldl_replay hkey.ne_empty (t := ∅) nofun
      (fun r hr hcase => ?_), filter_appliedKey hkey]
    · exact foldl_settle_of_records hrecorded.rows hwrites none
    · show PyString.strip r.key = k
      rw [hkey.alone r hr hcase, hkey.stripped]
  rw [StateTable.view, PyDict.get?_mapValues] at hreplica
  have hcontent := congrArg (Option.map fun r : Replica => (r.value, r.confidence)) hreplica
  rw [Option.map_map, Option.map_map] at hcontent
  exact hcontent

/-- **Shipping a log.** Whatever the source did under other keys, and in whatever batches its log is
shipped, a variable that was written by plain writes only exists at the receiver exactly if it
exists at the source, its value and confidence there are those of the last write that the gate lets
through, and they are the source's exactly if the gate lets the last write through. -/
theorem log_shipped (rt : Runtime) (calls : List KvCall) (k sender receiver : String)
    (shipments : List Shipment) :
    let source := VerifiedKVStore.init.run rt calls
    let target := shipLog rt source sender receiver shipments
    VerifiedKVStore.AllSteps rt (PlainFor k) .init calls →
    ShippedKey k source.db.auditLog →
    sender ≠ receiver →
    source.db.auditLog.rows.length ≤ Shipping.room shipments →
    (target.db.stateVariables.contains k = source.db.stateVariables.contains k) ∧
    (target.db.stateVariables.content k =
      (lastLetThrough (writesOf k calls)).map SetArgs.content) ∧
    (target.db.stateVariables.content k = source.db.stateVariables.content k ↔
      LastPasses (writesOf k calls)) := by
  intro source target hcalls hkey hnodes hroom
  have hempty : Recorded k VerifiedKVStore.init.db [] := ⟨numbered_empty, .nil, rfl⟩
  have hrecorded : Recorded k source.db (writesOf k calls) := by
    have hrun := recorded_run hempty hcalls
    rwa [List.nil_append] at hrun
  have htarget : target.db.stateVariables.content k =
      (lastLetThrough (writesOf k calls)).map SetArgs.content :=
    content_shipLog hrecorded (fun w hw => plainWrite_of_mem hcalls hw) hkey hnodes hroom
  have hcontains : ∀ t : StateTable, t.contains k = (t.content k).isSome := by
    intro t
    rw [StateTable.content, Option.isSome_map]
    rfl
  refine ⟨?_, htarget, ?_⟩
  · rw [hcontains, hcontains, htarget, hrecorded.content, Option.isSome_map, Option.isSome_map,
      isSome_lastLetThrough]
  · rw [htarget, hrecorded.content]
    exact content_lastLetThrough_iff _

def KvCall.write (key : String) (value : Json) (confidence : ℚ) (reason : String) : KvCall :=
  .setSync { key, value, confidence := some (.finite confidence), reason } 1

/-- A history in which all kinds of calls come between two writes of a variable. -/
def mixedCalls : List KvCall :=
  [.write "k" (.bool true) (1 / 2) "update",
    .recordSleepCheckpoint { checkpointId := "night", lastProcessedStepId := 7 } 1,
    .write "j" (.bool true) 1 "update",
    .appendAuditLog ⟨.missing, some "note", .given (.str "v"), none, .missing, none⟩ 1,
    .write "k" (.bool false) (9 / 10) "update",
    .redactAuditEntry 3 "GDPR" none "2026-01-01" 2]

/-- The variable of a mixed history, shipped in three batches. -/
theorem log_shipped_mixedCalls :
    let source := VerifiedKVStore.init.run Runtime.sample mixedCalls
    let target := shipLog Runtime.sample source "a" "b" (List.replicate 3 ⟨2, fun _ => 9⟩)
    (target.db.stateVariables.contains "k" = source.db.stateVariables.contains "k") ∧
    (target.db.stateVariables.content "k" =
      (lastLetThrough (writesOf "k" mixedCalls)).map SetArgs.content) ∧
    (target.db.stateVariables.content "k" = source.db.stateVariables.content "k" ↔
      LastPasses (writesOf "k" mixedCalls)) :=
  log_shipped Runtime.sample mixedCalls "k" "a" "b" (List.replicate 3 ⟨2, fun _ => 9⟩)
    ⟨fun _ => ⟨trivial, nofun, by decide⟩, show "night" ≠ "k" by decide,
      fun h => absurd h (by decide), show "note" ≠ "k" by decide,
      fun _ => ⟨trivial, nofun, by decide⟩,
      show ∀ r ∈ (VerifiedKVStore.init.run Runtime.sample (mixedCalls.take 5)).db.auditLog.rows,
        r.seq = 3 → r.key ≠ "k" by decide +kernel, trivial⟩
    ⟨by decide, by decide +kernel, by decide +kernel⟩ (by decide) (by decide +kernel)

/-- A call of the four kinds, with a confidence between zero and one and another reason than the
one for a deletion. -/
def LoggedCall : KvCall → Prop
  | .setSync a _ => (match a.confidence with
      | some (.finite x) => 0 ≤ x ∧ x ≤ 1
      | _ => False) ∧ a.reason ≠ "delete"
  | .appendAuditLog _ _ | .recordSleepCheckpoint _ _ | .redactAuditEntry _ _ _ _ _ => True
  | _ => False

/-- The receiver of the log of the history gets the sender's variables. -/
def ShipsFaithfully (rt : Runtime) (calls : List KvCall) : Prop :=
  (∀ c ∈ calls, LoggedCall c) →
    ∀ (sender receiver : String) (shipments : List Shipment) (k : String), sender ≠ receiver →
      (VerifiedKVStore.init.run rt calls).db.auditLog.rows.length ≤ Shipping.room shipments →
      (shipLog rt (VerifiedKVStore.init.run rt calls) sender receiver
        shipments).db.stateVariables.content k =
          (VerifiedKVStore.init.run rt calls).db.stateVariables.content k

/-- A history is not shipped faithfully if one batch gives another variable. -/
lemma not_shipsFaithfully {calls : List KvCall} (hcalls : ∀ c ∈ calls, LoggedCall c) (k : String)
    (hroom : (VerifiedKVStore.init.run Runtime.sample calls).db.auditLog.rows.length ≤ 200)
    (hdiffers : (shipLog Runtime.sample (VerifiedKVStore.init.run Runtime.sample calls) "a" "b"
      [⟨200, fun _ => 9⟩]).db.stateVariables.content k ≠
        (VerifiedKVStore.init.run Runtime.sample calls).db.stateVariables.content k) :
    ¬ ShipsFaithfully Runtime.sample calls :=
  fun hships => hdiffers (hships hcalls "a" "b" [⟨200, fun _ => 9⟩] k (by decide) hroom)

/-- **Shipping a log does not copy the table.** A write of lower confidence is dropped by the gate,
a checkpoint, an appended entry and a redacted row become variables, and a write is changed, dropped
or taken for a deletion if its key has white space around it, is empty or agrees with another key up
to case, if its value is the deletion marker or has a name twice, or if its reason is an agent's
deletion. -/
theorem log_shipping_diverges :
    ¬ ShipsFaithfully Runtime.sample
      [.write "k" (.bool true) 1 "update", .write "k" (.bool false) (1 / 2) "update"] ∧
    ¬ ShipsFaithfully Runtime.sample
      [.recordSleepCheckpoint { checkpointId := "k", lastProcessedStepId := 7 } 1] ∧
    ¬ ShipsFaithfully Runtime.sample
      [.appendAuditLog ⟨.missing, some "k", .given (.str "v"), none, .missing, none⟩ 1] ∧
    ¬ ShipsFaithfully Runtime.sample
      [.write "k" (.bool true) 1 "update", .redactAuditEntry 1 "GDPR" none "2026-01-01" 2] ∧
    ¬ ShipsFaithfully Runtime.sample [.write " k" (.bool true) 1 "update"] ∧
    ¬ ShipsFaithfully Runtime.sample [.write "" (.bool true) 1 "update"] ∧
    ¬ ShipsFaithfully Runtime.sample
      [.write "K" (.bool true) 1 "update", .write "k" (.bool true) (1 / 2) "update"] ∧
    ¬ ShipsFaithfully Runtime.sample [.write "k" (.str deletedMarker) 1 "update"] ∧
    ¬ ShipsFaithfully Runtime.sample
      [.write "k" (.obj [("a", .null), ("a", .bool true)]) 1 "update"] ∧
    ¬ ShipsFaithfully Runtime.sample [.write "k" (.bool true) 1 "agent_delete"] := by
  have hwrite : ∀ (key : String) (value : Json) {confidence : ℚ} {reason : String},
      0 ≤ confidence ∧ confidence ≤ 1 → reason ≠ "delete" →
        LoggedCall (.write key value confidence reason) := fun _ _ _ _ h hr => ⟨h, hr⟩
  refine ⟨not_shipsFaithfully ?_ "k" (by decide +kernel) (by decide +kernel),
    not_shipsFaithfully ?_ "k" (by decide +kernel) (by decide +kernel),
    not_shipsFaithfully ?_ "k" (by decide +kernel) (by decide +kernel),
    not_shipsFaithfully ?_ "k" (by decide +kernel) (by decide +kernel),
    not_shipsFaithfully ?_ " k" (by decide +kernel) (by decide +kernel),
    not_shipsFaithfully ?_ "" (by decide +kernel) (by decide +kernel),
    not_shipsFaithfully ?_ "k" (by decide +kernel) (by decide +kernel),
    not_shipsFaithfully ?_ "k" (by decide +kernel) (by decide +kernel),
    not_shipsFaithfully ?_ "k" (by decide +kernel) (by decide +kernel),
    not_shipsFaithfully ?_ "k" (by decide +kernel) (by decide +kernel)⟩
  all_goals simp only [List.forall_mem_cons, List.not_mem_nil, false_imp_iff, implies_true, and_true]
  · exact ⟨hwrite _ _ (by norm_num) (by decide), hwrite _ _ (by norm_num) (by decide)⟩
  · trivial
  · trivial
  · exact ⟨hwrite _ _ (by norm_num) (by decide), trivial⟩
  · exact hwrite _ _ (by norm_num) (by decide)
  · exact hwrite _ _ (by norm_num) (by decide)
  · exact ⟨hwrite _ _ (by norm_num) (by decide), hwrite _ _ (by norm_num) (by decide)⟩
  · exact hwrite _ _ (by norm_num) (by decide)
  · exact hwrite _ _ (by norm_num) (by decide)
  · exact hwrite _ _ (by norm_num) (by decide)

end AtlasMemory
