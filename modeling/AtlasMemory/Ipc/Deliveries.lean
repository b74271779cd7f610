import AtlasMemory.Hermes.DaemonBootstrap

/-!
# How often the daemon executes a request

Every attempt of the client leaves one receipt, and nothing else it does leaves any.  So a request
is executed once for each attempt at most, and the number of attempts follows from the two places
that try again: a second attempt inside one call after a pooled connection has failed, and a second
call after a transport error.  Neither place knows whether the daemon had read the frame when the
attempt failed: a reply that is late, cut short or an error leaves the request executed, and the
next attempt executes it again.
-/

namespace AtlasMemory

/-- How often the daemon has read a complete frame of a method. -/
def World.executions (method : String) (w : World) : ℕ :=
  w.receipts.countP fun r => r.complete && r.request.method = method

lemma World.executions_congr {method : String} {w w' : World} (h : w'.receipts = w.receipts) :
    w'.executions method = w.executions method := by
  rw [World.executions, World.executions, h]

@[simp] lemma World.executions_next (method : String) (w : World) :
    w.next.executions method = w.executions method := rfl

namespace SyncUDSConnectionPool

variable {env : Environment}

lemma acquireFrom_receipts (now : ℚ) (pool : List (ℕ × ℚ)) (w : World) :
    (acquireFrom env now w pool).2.receipts = w.receipts := by
  induction pool generalizing w with
  | nil =>
    unfold acquireFrom connect
    split <;> rfl
  | cons entry pool ih =>
    by_cases hage : now - entry.2 < maxLifetime
    · by_cases hquiet : env.quiet w.call = true
      · by_cases hset : env.setTimeout w.next.call = true
        · simp [acquireFrom, isAlive, hage, hquiet, hset]
        · simp [acquireFrom, isAlive, hage, hquiet, hset, ih]
      · simp [acquireFrom, isAlive, hage, hquiet, ih]
    · simp [acquireFrom, hage, ih]

@[simp] lemma acquire_executions (method : String) (w : World) :
    (acquire env w).2.executions method = w.executions method :=
  World.executions_congr (acquireFrom_receipts _ _ _)

@[simp] lemma release_executions (method : String) (s : ℕ) (w : World) :
    (release env s w).executions method = w.executions method := by
  apply World.executions_congr
  by_cases hquiet : env.quiet w.call = true
  · by_cases hroom : w.pool.length < maxIdle
    · simp [release, isAlive, hquiet, hroom]
    · simp [release, isAlive, hquiet, hroom]
  · simp [release, isAlive, hquiet]

end SyncUDSConnectionPool

namespace UdsClient

variable {rt : Runtime} {env : Environment} {socketPath : String}

/-! ## One attempt leaves one receipt -/

lemma recv_receipts (n : ℕ) (w : World) : (recv env n w).2.receipts = w.receipts := by
  unfold recv
  split <;> rfl

lemma recvPayload_receipts (respLen n : ℕ) (received : List UInt8) (w : World) :
    (recvPayload env respLen n received w).2.receipts = w.receipts := by
  induction n generalizing received w with
  | zero => rfl
  | succ n ih =>
    simp only [recvPayload]
    have hrecv := @recv_receipts env (min 4096 (respLen - received.length)) w
    split_ifs
    · split
      · next heq => simpa [heq] using hrecv
      · next heq => simpa [heq] using hrecv
      · next heq =>
        rw [ih]
        simpa [heq] using hrecv
    · rfl

lemma readReply_receipts (w : World) : (readReply rt env w).2.receipts = w.receipts := by
  have hrecv := @recv_receipts env 4 w
  unfold readReply
  split
  · next heq => simpa [heq] using hrecv
  · next header w₁ heq =>
    have hheader : w₁.receipts = w.receipts := by simpa [heq] using hrecv
    have hpayload := @recvPayload_receipts env (unpackLength header)
      (unpackLength header) [] w₁
    split_ifs
    · exact hheader
    · simp only
      split
      · next heq' => simpa [heq', hheader] using hpayload
      · next heq' =>
        split_ifs <;> simpa [heq', hheader] using hpayload

lemma executeOverSocket_receipts (req : RpcRequest) (frame : List UInt8) (s : ℕ) (w : World) :
    ∃ bytes, (executeOverSocket rt env req frame s w).2.receipts =
      w.receipts ++ [⟨req, s, bytes⟩] := by
  have hsend : ∃ bytes, (sendall env req frame s w).2.receipts =
      w.receipts ++ [⟨req, s, bytes⟩] := ⟨_, rfl⟩
  obtain ⟨bytes, hsend⟩ := hsend
  refine ⟨bytes, ?_⟩
  unfold executeOverSocket
  split
  · next heq => simpa [heq] using hsend
  · next heq => simpa [heq, readReply_receipts] using hsend

/-- What one attempt can add to the executions of a method. -/
def copies (req : RpcRequest) (method : String) : ℕ := if req.method = method then 1 else 0

/-- From `w` to `w'` the executions of a method grow by `n` at most. -/
def Grows (method : String) (n : ℕ) (w w' : World) : Prop :=
  w.executions method ≤ w'.executions method ∧
    w'.executions method ≤ w.executions method + n

lemma grows_executeOverSocket (method : String) (req : RpcRequest) (frame : List UInt8)
    (s : ℕ) (w : World) :
    Grows method (copies req method) w (executeOverSocket rt env req frame s w).2 := by
  obtain ⟨bytes, hreceipts⟩ := @executeOverSocket_receipts rt env req frame s w
  unfold Grows
  rw [World.executions, World.executions, hreceipts, List.countP_append]
  refine ⟨Nat.le_add_right _ _, Nat.add_le_add_left ?_ _⟩
  by_cases h : req.method = method
  · rw [copies, if_pos h]
    exact List.countP_le_length
  · simp [copies, h]

/-! ## One call -/

lemma grows_lastAttempt (method : String) (req : RpcRequest) (frame : List UInt8) (w : World) :
    Grows method (copies req method) w (lastAttempt rt env req frame w).2 := by
  have hacquire := @SyncUDSConnectionPool.acquire_executions env method w
  rcases hconn : SyncUDSConnectionPool.acquire env w with ⟨e | ⟨s, fromPool⟩, w₁⟩
  · simp only [hconn] at hacquire
    simp only [lastAttempt, hconn, Grows]
    omega
  · simp only [hconn] at hacquire
    have hexecute := @grows_executeOverSocket rt env method req frame s w₁
    rcases hrun : executeOverSocket rt env req frame s w₁ with ⟨e | result, w₂⟩
    · simp only [hrun, Grows] at hexecute
      simp only [lastAttempt, hconn, hrun, Grows]
      omega
    · simp only [hrun, Grows] at hexecute
      simp only [lastAttempt, hconn, hrun, Grows, SyncUDSConnectionPool.release_executions]
      omega

/-- The first attempt of a call ran over a connection from the pool and ended in an `OSError` or in
a reply that was cut short. -/
def FailsOverPooled (rt : Runtime) (env : Environment) (req : RpcRequest) (w : World) : Prop :=
  ∃ frame s w₁ e, req.frame = some frame ∧
    SyncUDSConnectionPool.acquire env w.next = (.ok (s, true), w₁) ∧
    (executeOverSocket rt env req frame s w₁).1 = .error e ∧
    ((∃ text, e = .osError text) ∨ ∃ detail, e = .transport .shortRead detail)

lemma staleInPool_iff (fromPool : Bool) (e : ClientError) :
    staleInPool fromPool e = true ↔ fromPool = true ∧
      ((∃ text, e = .osError text) ∨ ∃ detail, e = .transport .shortRead detail) := by
  cases e <;> simp [staleInPool]

/-- A call makes one attempt, and a second one only after the first has failed over a connection
from the pool. -/
lemma grows_sendUdsRequestSync_cases (method : String) (req : RpcRequest) (w : World) :
    Grows method (copies req method) w (sendUdsRequestSync rt env socketPath req w).2 ∨
      (FailsOverPooled rt env req w ∧
        Grows method (2 * copies req method) w
          (sendUdsRequestSync rt env socketPath req w).2) := by
  by_cases hpath : env.pathExists w.call = true
  · rcases hframe : req.frame with _ | frame
    · left
      simp [sendUdsRequestSync, hpath, hframe, Grows]
    · have hacquire := @SyncUDSConnectionPool.acquire_executions env method w.next
      rw [World.executions_next] at hacquire
      rcases hconn : SyncUDSConnectionPool.acquire env w.next with ⟨e | ⟨s, fromPool⟩, w₁⟩
      · left
        simp only [hconn] at hacquire
        simp only [sendUdsRequestSync, hpath, hframe, hconn, if_true, Grows]
        omega
      · simp only [hconn] at hacquire
        have hexecute := @grows_executeOverSocket rt env method req frame s w₁
        rcases hrun : executeOverSocket rt env req frame s w₁ with ⟨e | result, w₂⟩
        · simp only [hrun, Grows] at hexecute
          by_cases hstale : staleInPool fromPool e = true
          · right
            obtain ⟨rfl, hfault⟩ := (staleInPool_iff fromPool e).mp hstale
            refine ⟨⟨frame, s, w₁, e, hframe, hconn, by rw [hrun], hfault⟩, ?_⟩
            have hlast := @grows_lastAttempt rt env method req frame w₂
            simp only [Grows] at hlast
            simp only [sendUdsRequestSync, hpath, hframe, hconn, hrun, hstale, if_true, Grows]
            omega
          · left
            simp only [sendUdsRequestSync, hpath, hframe, hconn, hrun, if_neg hstale, if_true,
              Grows]
            omega
        · left
          simp only [hrun, Grows] at hexecute
          simp only [sendUdsRequestSync, hpath, hframe, hconn, hrun, if_true, Grows,
            SyncUDSConnectionPool.release_executions]
          omega
  · left
    simp [sendUdsRequestSync, hpath, Grows]

lemma grows_sendUdsRequestSync (method : String) (req : RpcRequest) (w : World) :
    Grows method (2 * copies req method) w (sendUdsRequestSync rt env socketPath req w).2 := by
  rcases @grows_sendUdsRequestSync_cases rt env socketPath method req w with h | ⟨-, h⟩
  · unfold Grows at h ⊢
    omega
  · exact h

end UdsClient

namespace DaemonBootstrap

open UdsClient

variable {rt : Runtime} {env : Environment} {socketPath : String}

/-- The requests that change the daemon's stores. -/
def mutatingMethods : List String :=
  ["set", "task_feedback", "trajectory/ingest", "session/end", "sync_turn"]

/-! ## The bootstrap executes nothing but `get_stats` -/

lemma copies_getStats {method : String} (h : method ∈ mutatingMethods) :
    copies getStats method = 0 := by
  have hne : getStats.method ≠ method := by
    rintro rfl
    exact absurd h (by decide)
  exact if_neg hne

lemma probe_executions {method : String} (h : method ∈ mutatingMethods) (w : World) :
    (probe rt env socketPath w).2.executions method = w.executions method := by
  have hsend := @grows_sendUdsRequestSync rt env socketPath method getStats w
  rw [copies_getStats h] at hsend
  have hworld : (probe rt env socketPath w).2 =
      (sendUdsRequestSync rt env socketPath getStats w).2 := by
    unfold probe
    split <;> simp [*]
  rw [hworld]
  exact Nat.le_antisymm hsend.2 hsend.1

lemma pollReady_executions {method : String} (h : method ∈ mutatingMethods) (n : ℕ) (w : World) :
    (pollReady rt env socketPath n w).2.executions method = w.executions method := by
  induction n generalizing w with
  | zero => rfl
  | succ n ih =>
    have hprobe := @probe_executions rt env socketPath _ h w.next
    by_cases hpath : env.pathExists w.call = true
    · rcases hlook : probe rt env socketPath w.next with ⟨e | (_ | _), w₁⟩ <;>
        simp only [hlook] at hprobe
      · simp only [pollReady, hpath, hlook, if_true]
        rw [ih, hprobe, World.executions_next]
      · simp only [pollReady, hpath, hlook, if_true]
        rw [ih, hprobe, World.executions_next]
      · simp only [pollReady, hpath, hlook, if_true]
        rw [hprobe, World.executions_next]
    · simp [pollReady, hpath, ih]

lemma recheck_executions {method : String} (h : method ∈ mutatingMethods)
    (initialRpcFailed : Bool) (w : World) :
    (recheck rt env socketPath initialRpcFailed w).2.executions method = w.executions method := by
  have hprobe := @probe_executions rt env socketPath _ h w.next
  unfold recheck
  split
  · rcases hlook : probe rt env socketPath w.next with ⟨e | ready, w₁⟩ <;>
      simpa only [hlook, World.executions_next] using hprobe
  · rfl

lemma respawn_executions {method : String} (h : method ∈ mutatingMethods)
    (initialRpcFailed : Bool) (w : World) :
    (respawn rt env socketPath initialRpcFailed w).2.executions method = w.executions method := by
  by_cases hskip : env.spawnSkipped w.call = true
  · simp [respawn, hskip]
  · rcases hlock : env.lockFault w.next.call with _ | text
    · have hrecheck := @recheck_executions rt env socketPath _ h
        initialRpcFailed w.next.next
      simp only [World.executions_next] at hrecheck
      rcases hcheck : recheck rt env socketPath initialRpcFailed w.next.next with ⟨ready, w₁⟩
      simp only [hcheck] at hrecheck
      have hpoll := @pollReady_executions rt env socketPath _ h
        (env.polls w₁.call) w₁.next
      rw [World.executions_next, hrecheck] at hpoll
      rcases ready with _ | _
      · by_cases hspawn : env.spawn w₁.call = true
        · simpa [respawn, hskip, hlock, hcheck, hspawn] using hpoll
        · simpa [respawn, hskip, hlock, hcheck, hspawn] using hrecheck
      · simpa [respawn, hskip, hlock, hcheck] using hrecheck
    · simp [respawn, hskip, hlock]

lemma ensureDaemonProcessRunning_executions {method : String} (h : method ∈ mutatingMethods)
    (w : World) :
    (ensureDaemonProcessRunning rt env socketPath w).2.executions method =
      w.executions method := by
  have hprobe := @probe_executions rt env socketPath _ h w.next
  by_cases hpath : env.pathExists w.call = true
  · rcases hlook : probe rt env socketPath w.next with ⟨e | (_ | _), w₁⟩ <;>
      simp only [hlook, World.executions_next] at hprobe
    · by_cases halive : env.pidAlive w₁.call = true
      · simp [ensureDaemonProcessRunning, hpath, hlook, halive, hprobe]
      · simp [ensureDaemonProcessRunning, hpath, hlook, halive, respawn_executions h, hprobe]
    · simp [ensureDaemonProcessRunning, hpath, hlook, respawn_executions h, hprobe]
    · simp [ensureDaemonProcessRunning, hpath, hlook, hprobe]
  · simp [ensureDaemonProcessRunning, hpath, respawn_executions h]

/-! ## The retrying call -/

/-- The state in which the retrying call makes its first call; `none` if the daemon could not be
brought up. -/
def beforeFirstCall (rt : Runtime) (env : Environment) (socketPath : String) (w : World) :
    Option World :=
  if env.pathExists w.call then some w.next
  else match ensureDaemonProcessRunning rt env socketPath w.next with
    | (.ok true, w) => some w
    | _ => none

lemma executions_beforeFirstCall {method : String} (h : method ∈ mutatingMethods) {w w₀ : World}
    (hfirst : beforeFirstCall rt env socketPath w = some w₀) :
    w₀.executions method = w.executions method := by
  have hensure := @ensureDaemonProcessRunning_executions rt env socketPath _ h w.next
  unfold beforeFirstCall at hfirst
  split at hfirst
  · rw [← Option.some.inj hfirst, World.executions_next]
  · split at hfirst
    · next heq =>
      rw [← Option.some.inj hfirst]
      simpa only [heq, World.executions_next] using hensure
    · exact absurd hfirst (by simp)

lemma callUdsWithRetry_of_some {req : RpcRequest} {w w₀ : World}
    (hfirst : beforeFirstCall rt env socketPath w = some w₀) :
    callUdsWithRetry rt env socketPath req w = callTwice rt env socketPath req w₀ := by
  unfold beforeFirstCall at hfirst
  unfold callUdsWithRetry
  split at hfirst
  · next hpath => rw [if_pos hpath, Option.some.inj hfirst]
  · next hpath =>
    rw [if_neg hpath]
    split at hfirst
    · next heq => simp only [heq, Option.some.inj hfirst]
    · exact absurd hfirst (by simp)

lemma callUdsWithRetry_executions_of_none {method : String} (h : method ∈ mutatingMethods)
    {req : RpcRequest} {w : World} (hfirst : beforeFirstCall rt env socketPath w = none) :
    (callUdsWithRetry rt env socketPath req w).2.executions method = w.executions method := by
  have hensure := @ensureDaemonProcessRunning_executions rt env socketPath _ h w.next
  unfold beforeFirstCall at hfirst
  unfold callUdsWithRetry
  split at hfirst
  · exact absurd hfirst (by simp)
  · next hpath =>
    rw [if_neg hpath]
    rcases hboot : ensureDaemonProcessRunning rt env socketPath w.next with ⟨e | (_ | _), w₁⟩
    · simpa only [hboot, World.executions_next] using hensure
    · simpa only [hboot, World.executions_next] using hensure
    · simp [hboot] at hfirst

/-- The world after the second call is the one of `send_uds_request_sync`. -/
lemma retryCall_world (req : RpcRequest) (w : World) :
    (retryCall rt env socketPath req w).2 = (sendUdsRequestSync rt env socketPath req w).2 := by
  unfold retryCall
  split <;> simp [*]

/-- Without a transport error of the first call there is no second one. -/
lemma callTwice_world_of_no_transport {req : RpcRequest} {w : World}
    (h : ∀ reason detail,
      (sendUdsRequestSync rt env socketPath req w).1 ≠ .error (.transport reason detail)) :
    (callTwice rt env socketPath req w).2 = (sendUdsRequestSync rt env socketPath req w).2 := by
  unfold callTwice
  split
  · next heq => rw [heq]
  · next reason detail w₁ heq => exact absurd (congrArg Prod.fst heq) (h reason detail)
  · next heq => rw [heq]

lemma grows_callTwice {method : String} (h : method ∈ mutatingMethods) (req : RpcRequest)
    (w : World) :
    Grows method (4 * copies req method) w (callTwice rt env socketPath req w).2 := by
  have hfirst := @grows_sendUdsRequestSync rt env socketPath method req w
  by_cases htransport : ∀ reason detail,
      (sendUdsRequestSync rt env socketPath req w).1 ≠ .error (.transport reason detail)
  · rw [callTwice_world_of_no_transport htransport]
    unfold Grows at hfirst ⊢
    omega
  · push Not at htransport
    obtain ⟨reason, detail, herror⟩ := htransport
    obtain ⟨w₁, hsend⟩ : ∃ w₁, sendUdsRequestSync rt env socketPath req w =
        (.error (.transport reason detail), w₁) := ⟨_, Prod.ext herror rfl⟩
    have hensure := @ensureDaemonProcessRunning_executions rt env socketPath _ h w₁
    rcases hboot : ensureDaemonProcessRunning rt env socketPath w₁ with ⟨e | (_ | _), w₂⟩
    · simp only [hsend, hboot, Grows] at hfirst hensure
      simp only [callTwice, hsend, hboot, Grows]
      omega
    · simp only [hsend, hboot, Grows] at hfirst hensure
      simp only [callTwice, hsend, hboot, Grows]
      omega
    · have hsecond := @grows_sendUdsRequestSync rt env socketPath method req w₂
      simp only [hsend, hboot, Grows] at hfirst hensure hsecond
      simp only [callTwice, hsend, hboot, Grows, retryCall_world]
      omega

/-- A request that changes the daemon's stores is executed again only where an attempt before has
failed: one call executes it once at most, unless its attempt ran over a connection from the pool
and ended in an `OSError` or a reply that was cut short, and twice in any case; the retrying call
executes it once at most, unless that happens to its first call or the first call raises a
transport error, and four times in any case. -/
theorem resent_only_after_failure (rt : Runtime) (env : Environment) (socketPath : String)
    {req : RpcRequest} (hreq : req.method ∈ mutatingMethods) (w : World) :
    ((sendUdsRequestSync rt env socketPath req w).2.executions req.method ≤
        w.executions req.method + 2 ∧
      (¬FailsOverPooled rt env req w →
        (sendUdsRequestSync rt env socketPath req w).2.executions req.method ≤
          w.executions req.method + 1)) ∧
    ((callUdsWithRetry rt env socketPath req w).2.executions req.method ≤
        w.executions req.method + 4 ∧
      (beforeFirstCall rt env socketPath w = none →
        (callUdsWithRetry rt env socketPath req w).2.executions req.method =
          w.executions req.method) ∧
      ∀ w₀, beforeFirstCall rt env socketPath w = some w₀ → ¬FailsOverPooled rt env req w₀ →
        (∀ reason detail,
          (sendUdsRequestSync rt env socketPath req w₀).1 ≠ .error (.transport reason detail)) →
        (callUdsWithRetry rt env socketPath req w).2.executions req.method ≤
          w.executions req.method + 1) := by
  have hcopies : copies req req.method = 1 := if_pos rfl
  have hsend (w : World) := @grows_sendUdsRequestSync_cases rt env socketPath req.method req w
  have honce (w : World) (hnot : ¬FailsOverPooled rt env req w) :
      (sendUdsRequestSync rt env socketPath req w).2.executions req.method ≤
        w.executions req.method + 1 := by
    rcases hsend w with hgrows | ⟨hfails, -⟩
    · rw [hcopies] at hgrows
      exact hgrows.2
    · exact absurd hfails hnot
  refine ⟨⟨?_, honce w⟩, ?_, callUdsWithRetry_executions_of_none hreq, ?_⟩
  · have hgrows := @grows_sendUdsRequestSync rt env socketPath req.method req w
    rw [hcopies] at hgrows
    exact hgrows.2
  · rcases hfirst : beforeFirstCall rt env socketPath w with _ | w₀
    · rw [callUdsWithRetry_executions_of_none hreq hfirst]
      omega
    · have hgrows := @grows_callTwice rt env socketPath _ hreq req w₀
      rw [hcopies, Grows, executions_beforeFirstCall hreq hfirst] at hgrows
      rw [callUdsWithRetry_of_some hfirst]
      exact hgrows.2
  · intro w₀ hfirst hnot htransport
    rw [callUdsWithRetry_of_some hfirst, callTwice_world_of_no_transport htransport,
      ← executions_beforeFirstCall hreq hfirst]
    exact honce w₀ hnot

/-- A daemon that reads every frame and answers late: every connection is made, every frame goes
out, and every reply times out. -/
def lateReplies : Environment where
  pathExists _ := true
  monotonic _ := 0
  quiet _ := true
  setTimeout _ := true
  connect n := .ok n
  sendall _ := ⟨none, 0, 100000⟩
  recv _ := .error "timed out"
  decodeError _ := ""
  pidAlive _ := true
  spawnSkipped _ := false
  lockFault _ := none
  socketChanged _ := false
  spawn _ := true
  polls _ := 0

def oneIdle : World := ⟨0, [(0, 0)], []⟩

def taskFeedback : RpcRequest :=
  ⟨"task_feedback", [("key", .str "k"), ("task_success", .bool true)]⟩

theorem resent_only_after_failure_late :
    (sendUdsRequestSync .sample lateReplies "s" taskFeedback oneIdle).2.executions
        "task_feedback" ≤ 2 :=
  (@resent_only_after_failure .sample lateReplies "s" taskFeedback (by decide) oneIdle).1.1

/-- The daemon executes one feedback twice for one call and three times for one retrying call. -/
theorem late_reply_executes_again :
    (sendUdsRequestSync .sample lateReplies "s" taskFeedback oneIdle).2.executions
        "task_feedback" = 2 ∧
      (callUdsWithRetry .sample lateReplies "s" taskFeedback oneIdle).2.executions
        "task_feedback" = 3 := by
  decide +kernel

end DaemonBootstrap

end AtlasMemory
