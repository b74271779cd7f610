import AtlasMemory.Foundations.JsonParse
import AtlasMemory.Runtime

/-!
# The synchronous client of the daemon's socket

One request of the synchronous client: a connection from the pool or a new one, the frame of the
request, the reply read in pieces of any size, and the second attempt after a pooled connection
has failed.  Everything beyond the client is an `Environment`, which answers the `n`-th system
call in any way it likes: which connections it refuses, how much of a frame goes out before a
fault, how much of it the daemon reads, and what the reply looks like.  The clock of the pool is
the environment's too.

The idle connections are those of one socket path, the one released last first.  What the daemon
reads is written down as a list of receipts; a request is executed when its whole frame has been
read.
-/

namespace AtlasMemory

/-- A request of the daemon. -/
structure RpcRequest where
  method : String
  params : List (String × Json)

namespace RpcRequest

/-- The bytes of `json.dumps(req).encode("utf-8")`. -/
def payload (req : RpcRequest) : List UInt8 :=
  (Json.dumps (.obj [("jsonrpc", .str "2.0"), ("method", .str req.method),
    ("params", .obj req.params), ("id", .number ⟨"1", by decide⟩)])).toUTF8.data.toList

/-- `struct.pack(">I", n)`; `none` when it raises. -/
def packLength (n : ℕ) : Option (List UInt8) :=
  if n < 2 ^ 32 then
    some [.ofNat (n / 2 ^ 24), .ofNat (n / 2 ^ 16), .ofNat (n / 2 ^ 8), .ofNat n]
  else none

/-- `header + payload_bytes`; `none` when the length does not fit. -/
def frame (req : RpcRequest) : Option (List UInt8) :=
  (packLength req.payload.length).map fun header => header ++ req.payload

end RpcRequest

/-- `AtlasTransportError.reason`. -/
inductive TransportReason
  | socketMissing
  | ioError
  | shortRead
  | rpcError
  deriving DecidableEq

/-- What a step of the client can raise. -/
inductive ClientError
  /-- `OSError` with its subclasses: a refused connection, a broken pipe, a reset, a timeout. -/
  | osError (text : String)
  /-- `AtlasTransportError`. -/
  | transport (reason : TransportReason) (detail : String)
  /-- Any other exception. -/
  | other (text : String)
  deriving DecidableEq

/-- What happens to a frame that is sent. -/
structure Sending where
  /-- The exception of `sendall`, if it raises. -/
  fault : Option String
  /-- The bytes that went out before the fault. -/
  sent : ℕ
  /-- The bytes that the daemon reads. -/
  read : ℕ

/-- The answers to the system calls, by the number of the call. -/
structure Environment where
  /-- `os.path.exists(socket_path)`. -/
  pathExists : ℕ → Bool
  /-- `time.monotonic()`. -/
  monotonic : ℕ → ℚ
  /-- Whether `select` finds an idle connection quiet. -/
  quiet : ℕ → Bool
  /-- Whether `settimeout` succeeds on a pooled connection. -/
  setTimeout : ℕ → Bool
  /-- `connect`: the number of the new connection or the text of the `OSError`. -/
  connect : ℕ → Except String ℕ
  sendall : ℕ → Sending
  /-- What there is to be received, or the text of the `OSError`. -/
  recv : ℕ → Except String (List UInt8)
  /-- The text of the exception with which the decoding of a reply fails. -/
  decodeError : List UInt8 → String
  /-- Whether the process of the daemon is found alive. -/
  pidAlive : ℕ → Bool
  /-- Whether a spawn is ruled out, as it is in a test run. -/
  spawnSkipped : ℕ → Bool
  /-- Opening the lock file of the bootstrap: the text of the `OSError`, if it raises. -/
  lockFault : ℕ → Option String
  /-- Whether the socket file is another one than at the start of the bootstrap. -/
  socketChanged : ℕ → Bool
  /-- Whether `Popen` succeeds. -/
  spawn : ℕ → Bool
  /-- How often the loop that waits for the new daemon runs before its deadline. -/
  polls : ℕ → ℕ

/-- What the daemon has read of one frame. -/
structure Receipt where
  request : RpcRequest
  /-- The connection. -/
  connection : ℕ
  /-- The bytes read. -/
  bytes : List UInt8

/-- Whether the daemon has the complete frame and thus executes the request. -/
def Receipt.complete (r : Receipt) : Bool := r.request.frame = some r.bytes

/-- The client process, and what the daemon has read. -/
structure World where
  /-- The number of the next system call. -/
  call : ℕ
  /-- The idle connections with the times of their release. -/
  pool : List (ℕ × ℚ)
  receipts : List Receipt

namespace World

def next (w : World) : World := { w with call := w.call + 1 }

@[simp] lemma next_receipts (w : World) : w.next.receipts = w.receipts := rfl

@[simp] lemma next_pool (w : World) : w.next.pool = w.pool := rfl

end World

namespace SyncUDSConnectionPool

/-- `max_idle`. -/
def maxIdle : ℕ := 8

/-- `max_lifetime`. -/
def maxLifetime : ℚ := 300

/-- `_is_alive`. -/
def isAlive (env : Environment) (w : World) : Bool × World := (env.quiet w.call, w.next)

def connect (env : Environment) (w : World) : Except ClientError (ℕ × Bool) × World :=
  match env.connect w.call with
  | .ok s => (.ok (s, false), w.next)
  | .error text => (.error (.osError text), w.next)

/-- The loop of `acquire` over the idle connections. -/
def acquireFrom (env : Environment) (now : ℚ) (w : World) :
    List (ℕ × ℚ) → Except ClientError (ℕ × Bool) × World
  | [] => connect env { w with pool := [] }
  | (s, createdAt) :: pool =>
    if now - createdAt < maxLifetime then
      let (alive, w) := isAlive env w
      if alive then
        if env.setTimeout w.call then (.ok (s, true), { w.next with pool })
        else acquireFrom env now w.next pool
      else acquireFrom env now w pool
    else acquireFrom env now w pool

/-- `acquire`: a connection, and whether it comes from the pool. -/
def acquire (env : Environment) (w : World) : Except ClientError (ℕ × Bool) × World :=
  acquireFrom env (env.monotonic w.call) w.next w.pool

/-- `release`. -/
def release (env : Environment) (s : ℕ) (w : World) : World :=
  let (alive, w) := isAlive env w
  if alive then
    if w.pool.length < maxIdle then
      { w.next with pool := (s, env.monotonic w.call) :: w.pool }
    else w
  else w

end SyncUDSConnectionPool

namespace UdsClient

/-! ## One attempt -/

/-- `s.sendall(frame)`. -/
def sendall (env : Environment) (req : RpcRequest) (frame : List UInt8) (s : ℕ) (w : World) :
    Option ClientError × World :=
  let sending := env.sendall w.call
  let out := match sending.fault with
    | none => frame
    | some _ => (frame.take sending.sent).take (frame.length - 1)
  (sending.fault.map .osError,
    { w.next with receipts := w.receipts ++ [⟨req, s, out.take sending.read⟩] })

/-- `s.recv(n)`. -/
def recv (env : Environment) (n : ℕ) (w : World) : Except ClientError (List UInt8) × World :=
  match env.recv w.call with
  | .ok bytes => (.ok (bytes.take n), w.next)
  | .error text => (.error (.osError text), w.next)

/-- `struct.unpack(">I", bytes)`. -/
def unpackLength (bytes : List UInt8) : ℕ := bytes.foldl (fun n b => 256 * n + b.toNat) 0

/-- The loop that collects the reply, up to `respLen` bytes or the end of the stream.  Every turn
receives a byte, so `respLen` turns are enough. -/
def recvPayload (env : Environment) (respLen : ℕ) :
    ℕ → List UInt8 → World → Except ClientError (List UInt8) × World
  | 0, received, w => (.ok received, w)
  | n + 1, received, w =>
    if received.length < respLen then
      match recv env (min 4096 (respLen - received.length)) w with
      | (.error e, w) => (.error e, w)
      | (.ok [], w) => (.ok received, w)
      | (.ok chunk, w) => recvPayload env respLen n (received ++ chunk) w
    else (.ok received, w)

/-- Whether `int(v)` raises an exception that the client does not catch: the one of an infinite
floating point number. -/
def intOverflows (rt : Runtime) : Json → Bool
  | .infinity | .negInfinity => true
  | .number n =>
    n.text.any (fun c => c = '.' || c = 'e' || c = 'E') &&
      (rt.parseFloat n.text = some .posInf || rt.parseFloat n.text = some .negInf)
  | _ => false

/-- `json.loads(data.decode("utf-8"))`; `none` when it raises. -/
def decode (data : List UInt8) : Option Json :=
  (String.fromUTF8? ⟨data.toArray⟩).bind fun text => Json.loads (PyText.ofString text)

/-- What the reply says: the member `result`, or the error.  A reply that is no dictionary raises,
whichever of the lookups it gets to. -/
def replyResult (rt : Runtime) (env : Environment) (data : List UInt8) :
    Except ClientError Json :=
  match decode data with
  | some (.obj members) =>
    match PyDict.find "error" members with
    | some error =>
      if rt.truthy error then
        match error with
        | .obj fields =>
          if intOverflows rt ((PyDict.find "code" fields).getD .null) then
            .error (.other "cannot convert float infinity to integer")
          else .error (.transport .rpcError (rt.pyStr error))
        | _ => .error (.transport .rpcError (rt.pyStr error))
      else .ok ((PyDict.find "result" members).getD .null)
    | none => .ok ((PyDict.find "result" members).getD .null)
  | some _ | none => .error (.other (env.decodeError data))

/-- The part of `_execute_over_socket` that reads the reply. -/
def readReply (rt : Runtime) (env : Environment) (w : World) : Except ClientError Json × World :=
  match recv env 4 w with
  | (.error e, w) => (.error e, w)
  | (.ok header, w) =>
    if header.length < 4 then
      (.error (.transport .shortRead
        s!"Incomplete header: expected 4 bytes, received {header.length}"), w)
    else
      let respLen := unpackLength header
      match recvPayload env respLen respLen [] w with
      | (.error e, w) => (.error e, w)
      | (.ok data, w) =>
        if data.length < respLen then
          (.error (.transport .shortRead
            s!"Incomplete payload: expected {respLen} bytes, received {data.length}"), w)
        else (replyResult rt env data, w)

/-- `_execute_over_socket`. -/
def executeOverSocket (rt : Runtime) (env : Environment) (req : RpcRequest) (frame : List UInt8)
    (s : ℕ) (w : World) : Except ClientError Json × World :=
  match sendall env req frame s w with
  | (some e, w) => (.error e, w)
  | (none, w) => readReply rt env w

/-! ## One call -/

/-- Whether a failed attempt is taken for a stale pooled connection. -/
def staleInPool (fromPool : Bool) : ClientError → Bool
  | .osError _ => fromPool
  | .transport reason _ => fromPool && reason = .shortRead
  | .other _ => false

/-- What leaves `send_uds_request_sync` for an exception of an attempt. -/
def asTransportError : ClientError → ClientError
  | .transport reason detail => .transport reason detail
  | .osError text | .other text => .transport .ioError text

/-- An attempt without another one behind it. -/
def lastAttempt (rt : Runtime) (env : Environment) (req : RpcRequest) (frame : List UInt8)
    (w : World) : Except ClientError Json × World :=
  match SyncUDSConnectionPool.acquire env w with
  | (.error e, w) => (.error (asTransportError e), w)
  | (.ok (s, _), w) =>
    match executeOverSocket rt env req frame s w with
    | (.error e, w) => (.error (asTransportError e), w)
    | (.ok result, w) => (.ok result, SyncUDSConnectionPool.release env s w)

/-- `send_uds_request_sync`. -/
def sendUdsRequestSync (rt : Runtime) (env : Environment) (socketPath : String)
    (req : RpcRequest) (w : World) : Except ClientError Json × World :=
  if env.pathExists w.call then
    match req.frame with
    | none => (.error (.other "'I' format requires 0 <= number <= 4294967295"), w.next)
    | some frame =>
      match SyncUDSConnectionPool.acquire env w.next with
      | (.error e, w) => (.error (asTransportError e), w)
      | (.ok (s, fromPool), w) =>
        match executeOverSocket rt env req frame s w with
        | (.ok result, w) => (.ok result, SyncUDSConnectionPool.release env s w)
        | (.error e, w) =>
          -- the connection was stale in the pool: once more over another one
          if staleInPool fromPool e then lastAttempt rt env req frame w
          else (.error (asTransportError e), w)
  else
    (.error (.transport .socketMissing
      s!"UDS socket file does not exist: {socketPath}"), w.next)

end UdsClient

end AtlasMemory
