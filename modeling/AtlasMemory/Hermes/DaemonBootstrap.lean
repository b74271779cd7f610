import AtlasMemory.Ipc.UdsClient

/-!
# Bootstrap of the daemon and the retrying call

A provider's call of the daemon: the daemon is brought up when its socket is missing, and a call
that ends in a transport error is made once more after the daemon has been found, or made,
running.  The bootstrap asks the daemon for `get_stats` and sends nothing else; its lock, the stale
socket file and the new process are the environment's.
-/

namespace AtlasMemory

namespace DaemonBootstrap

open UdsClient

/-- The request with which the bootstrap looks whether the daemon answers. -/
def getStats : RpcRequest := ⟨"get_stats", []⟩

/-- `v is not None`. -/
def isNotNone : Json → Bool
  | .null => false
  | _ => true

/-- One look at the daemon: whether it gave statistics, or the exception. -/
def probe (rt : Runtime) (env : Environment) (socketPath : String) (w : World) :
    Except ClientError Bool × World :=
  match sendUdsRequestSync rt env socketPath getStats w with
  | (.ok stats, w) => (.ok (isNotNone stats), w)
  | (.error e, w) => (.error e, w)

/-- The loop that waits for the new daemon. -/
def pollReady (rt : Runtime) (env : Environment) (socketPath : String) :
    ℕ → World → Bool × World
  | 0, w => (false, w)
  | n + 1, w =>
    if env.pathExists w.call then
      match probe rt env socketPath w.next with
      | (.ok true, w) => (true, w)
      | (_, w) => pollReady rt env socketPath n w
    else pollReady rt env socketPath n w.next

/-- The look under the lock of the bootstrap: has another process started the daemon in the
meantime? -/
def recheck (rt : Runtime) (env : Environment) (socketPath : String) (initialRpcFailed : Bool)
    (w : World) : Bool × World :=
  if env.pathExists w.call &&
      (env.socketChanged w.call || !initialRpcFailed || env.pidAlive w.call) then
    match probe rt env socketPath w.next with
    | (.ok ready, w) => (ready, w)
    | (.error _, w) => (false, w)
  else (false, w.next)

/-- The part of `ensure_daemon_process_running` after its fast path, from the guard of a test run
to the end; `initialRpcFailed` is what the fast path left. -/
def respawn (rt : Runtime) (env : Environment) (socketPath : String) (initialRpcFailed : Bool)
    (w : World) : Except ClientError Bool × World :=
  if env.spawnSkipped w.call then (.ok false, w.next)
  else match env.lockFault w.next.call with
    | some text => (.error (.osError text), w.next.next)
    | none =>
      match recheck rt env socketPath initialRpcFailed w.next.next with
      | (true, w) => (.ok true, w)
      | (false, w) =>
        if env.spawn w.call then
          match pollReady rt env socketPath (env.polls w.call) w.next with
          | (ready, w) => (.ok ready, w)
        else (.ok false, w.next)

/-- `ensure_daemon_process_running`. -/
def ensureDaemonProcessRunning (rt : Runtime) (env : Environment) (socketPath : String)
    (w : World) : Except ClientError Bool × World :=
  if env.pathExists w.call then
    match probe rt env socketPath w.next with
    | (.ok true, w) => (.ok true, w)
    | (.ok false, w) => respawn rt env socketPath true w
    | (.error _, w) =>
      if env.pidAlive w.call then (.ok true, w.next)
      else respawn rt env socketPath true w.next
  else respawn rt env socketPath false w.next

/-- The second call of `call_uds_with_retry`, after the bootstrap. -/
def retryCall (rt : Runtime) (env : Environment) (socketPath : String) (req : RpcRequest)
    (w : World) : Except ClientError (Option Json) × World :=
  match sendUdsRequestSync rt env socketPath req w with
  | (.ok result, w) => (.ok (some result), w)
  | (.error (.transport _ _), w) => (.ok none, w)
  | (.error e, w) => (.error e, w)

/-- The calls of `call_uds_with_retry` once the socket is there. -/
def callTwice (rt : Runtime) (env : Environment) (socketPath : String) (req : RpcRequest)
    (w : World) : Except ClientError (Option Json) × World :=
  match sendUdsRequestSync rt env socketPath req w with
  | (.ok result, w) => (.ok (some result), w)
  | (.error (.transport _ _), w) =>
    match ensureDaemonProcessRunning rt env socketPath w with
    | (.ok true, w) => retryCall rt env socketPath req w
    | (.ok false, w) => (.ok none, w)
    | (.error e, w) => (.error e, w)
  | (.error e, w) => (.error e, w)

/-- `call_uds_with_retry`. -/
def callUdsWithRetry (rt : Runtime) (env : Environment) (socketPath : String) (req : RpcRequest)
    (w : World) : Except ClientError (Option Json) × World :=
  if env.pathExists w.call then callTwice rt env socketPath req w.next
  else match ensureDaemonProcessRunning rt env socketPath w.next with
    | (.ok true, w) => callTwice rt env socketPath req w
    | (.ok false, w) => (.ok none, w)
    | (.error e, w) => (.error e, w)

end DaemonBootstrap

end AtlasMemory
