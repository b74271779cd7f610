import AtlasMemory.Ipc.UdsClient
import AtlasMemory.Server.MemoryRequests

/-!
# Tool calls

The model of `handle_tool_call` of the memory provider: a tool is first tried with the daemon, by a
handler that turns every transport failure into a reply of its own, and a reply with the status of a
failure is replaced by what the engine of the own process answers.

The daemon's requests to set, to delete and to verify are those of its controller, the other ones
arbitrary.  The engine's stores do not fail; what a tool adds to the trajectory of the engine, and
the consolidation that it leaves to the background, are left out.  The write path of the engine has
no method `write_sync`, and its store no methods `delete` and `verify_audit_chain`; the record that
its store returns is a dictionary, which has no attributes.
-/

namespace AtlasMemory

/-- The tools. -/
inductive Tool
  | recall
  | remember
  | whatIf
  | activeSensing
  | stats
  | get
  | delete
  | taskFeedback
  | verifyChain
  | sleepSync
  | commitObservation
  deriving DecidableEq

namespace Tool

/-- The name under which a handler is registered. -/
def name : Tool → String
  | .recall => "atlas_recall"
  | .remember => "atlas_remember"
  | .whatIf => "atlas_what_if"
  | .activeSensing => "atlas_active_sensing"
  | .stats => "atlas_stats"
  | .get => "atlas_get"
  | .delete => "atlas_delete"
  | .taskFeedback => "atlas_task_feedback"
  | .verifyChain => "atlas_verify_chain"
  | .sleepSync => "atlas_sleep_sync"
  | .commitObservation => "commit_observation"

/-- `as_dict`, in its order. -/
def all : List Tool :=
  [.recall, .remember, .whatIf, .activeSensing, .stats, .get, .delete, .taskFeedback, .verifyChain,
    .sleepSync, .commitObservation]

/-- `handlers.get(tool_name)`. -/
def ofName (toolName : String) : Option Tool := all.find? fun t => decide (t.name = toolName)

end Tool

/-- A reply as the dictionary that it is. -/
abbrev ToolReply := PyDict String Json

namespace ToolReply

/-- `reply[name] is True`. -/
def reports (reply : ToolReply) (name : String) : Prop := reply.get? name = some (.bool true)

/-- `reply["status"] == status`. -/
def hasStatus (reply : ToolReply) (status : String) : Prop :=
  reply.get? "status" = some (.str status)

def status (reply : ToolReply) : Option String :=
  match reply.get? "status" with
  | some (.str s) => some s
  | _ => none

end ToolReply

def jsonNat (n : ℕ) : Json := .number (.ofInt n)

/-! ## The daemon -/

/-- The reply of the daemon to a set request. -/
def PersistReply.toReply : PersistReply → ToolReply
  | .failed error =>
    PyDict.ofEntries [("status", .str "error"), ("error", .str error), ("persisted", .bool false)]
  | .response r =>
    let base : ToolReply := PyDict.ofEntries [("status", .str r.status), ("key", .str r.key),
      ("persisted", .bool r.persisted), ("is_belief_revision", .bool r.isBeliefRevision),
      ("edges_added", jsonNat r.edgesAdded)]
    setIf (setIf (setIf (setIf (setIf (setIf base "action" (r.action.map .str))
      "warning" (r.warning.map .str)) "reason" (r.reason.map .str))
      "superseded_key" (r.supersededKey.map .str)) "revision_count" r.revisionCount)
      "conflict_details" (r.conflictDetails.map fun d => .obj d.entries)

/-- The reply of the daemon to a delete request. -/
def DeleteReply.toReply (r : DeleteReply) : ToolReply :=
  let base : ToolReply := PyDict.ofEntries [("status", .str r.status), ("key", .str r.key),
    ("deleted", .bool r.deleted), ("found", .bool r.found)]
  setIf (setIf (setIf base "reason" (r.reason.map .str)) "message" (r.message.map .str))
    "vector_points_deleted" (r.vectorPointsDeleted.map jsonNat)

/-- The reply of the daemon to a verification. -/
def MemoryController.VerifyReply.toReply (r : VerifyReply) : ToolReply :=
  let base : ToolReply := PyDict.ofEntries [("status", .str r.status), ("valid", .bool r.valid),
    ("checked_entries", jsonNat r.checkedEntries), ("tampered", .bool r.tampered)]
  setIf (setIf (setIf base "message" (r.message.map .str))
    "tampered_seq" (r.tamperedSeq.map fun n => .number (.ofInt n)))
    "broken_seq" (r.tamperedSeq.map fun n => .number (.ofInt n))

/-- A daemon: its controller, its other handlers, which give a dictionary or another value, and the
readings of its clock. -/
structure MemoryDaemon (ρ : Type) where
  env : ControllerEnv ρ
  other : RpcRequest → Stores ρ → Stores ρ × Except PyError (Option ToolReply)
  times : RequestTimes
  deletedAt : ℚ

/-- What becomes of a request: it is answered, or it is lost with a reason, executed or not. -/
inductive Link
  | connected
  | failed (reason : TransportReason) (executed : Bool)

namespace MemoryDaemon

variable {ρ : Type} (d : MemoryDaemon ρ)

/-- The handler of a method on the parameters; a delete request has a text as its key. -/
def dispatch (req : RpcRequest) (s : Stores ρ) : Stores ρ × Except PyError (Option ToolReply) :=
  let params : PyDict String Json := PyDict.ofEntries req.params
  if req.method = "set" then
    let (s', result) := MemoryController.handleSet d.env s params d.times
    (s', result.map fun r => some r.toReply)
  else if req.method = "delete" then
    match params.get? "key" with
    | some (.str key) =>
      let (kv, vectors, result) := MemoryController.handleDelete d.env.path.rt d.env.vectors
        d.env.path.rawText key d.deletedAt s.kv s.vectors
      ({ s with kv := kv, vectors := vectors }, result.map fun r => some r.toReply)
    | _ => (s, .error ⟨.valueError, "Key is required for delete"⟩)
  else if req.method = "verify_audit_log" then
    let (s', r) := MemoryController.handleVerifyAuditLog d.env s params
    (s', .ok (some r.toReply))
  else d.other req s

/-- `send_uds_request_sync`: an exception of a handler comes back as an error of the protocol. -/
def sendUdsRequest (link : Link) (req : RpcRequest) (s : Stores ρ) :
    Stores ρ × Except TransportReason (Option ToolReply) :=
  match link with
  | .failed reason executed => (if executed then (d.dispatch req s).1 else s, .error reason)
  | .connected =>
    match d.dispatch req s with
    | (s', .ok r) => (s', .ok r)
    | (s', .error _) => (s', .error .rpcError)

end MemoryDaemon

/-! ## The handlers -/

/-- What the provider uses beside the daemon. -/
structure ProviderEnv where
  rt : Runtime
  /-- `int(v)`; `none` when it raises. -/
  toInt : Json → Option ℤ
  /-- `s.lower()`. -/
  lower : String → String
  /-- `str(record)` of the record of a key and a value with this confidence, reason and session. -/
  recordText : String → String → PyFloat → String → String → String
  /-- The text of a record names its fields, so it is not the value itself. -/
  recordText_ne : ∀ key val conf reason sid, recordText key val conf reason sid ≠ val
  /-- `str(state)` of what the store returns for a row. -/
  stateText : String → StateRow → String
  /-- The rows that a page of the store gives. -/
  page : StateTable → List (String × StateRow)
  /-- What the other memory recalls for a query, a session and a limit. -/
  recallRecords : String → String → ℤ → List Json
  /-- The uncertainty of a mental transition. -/
  uncertainty : String → String → ℤ → PyFloat
  hasOrchestrator : Bool
  sessionId : String

namespace AtlasProvider

open MemoryController (firstOf isTruthy textOr)

variable (env : ProviderEnv)

/-- `args.get(name, default)`. -/
def argOr (args : PyDict String Json) (name : String) (default : Json) : Json :=
  (args.get? name).getD default

/-- `float(v)`, with its exception. -/
def floatArg (v : Json) : Except PyError PyFloat :=
  match env.rt.floatOfJson v with
  | some x => .ok x
  | none => .error ⟨.valueError, "could not convert to float"⟩

/-- `int(v)`, with its exception. -/
def intArg (v : Json) : Except PyError ℤ :=
  match env.toInt v with
  | some n => .ok n
  | none => .error ⟨.valueError, "invalid literal for int()"⟩

/-- `str(args.get("key", "")).strip()`. -/
def keyArg (args : PyDict String Json) : String :=
  PyString.strip (env.rt.pyStr (argOr args "key" (.str "")))

/-- The items of these names that the arguments have. -/
def itemsOf (args : PyDict String Json) (names : List String) : List (String × Json) :=
  names.filterMap fun name => (args.get? name).map fun v => (name, v)

/-- `HERMES_DEFAULT_SESSION`. -/
def defaultSession : Json := .str HotBuffer.defaultSession

def sentValue (args : PyDict String Json) : Json :=
  (firstOf env.rt [args.get? "value", args.get? "object",
    some (argOr args "content" (.str ""))]).getD .null

/-- The request that a handler sends; it may raise before it does. -/
def request (tool : Tool) (args : PyDict String Json) : Except PyError RpcRequest :=
  let rt := env.rt
  let item (name : String) := args.get? name
  let anyOf (names : List String) (default : Json) : Json :=
    (firstOf rt (names.map item ++ [some default])).getD .null
  let named (name second : String) : Json := (firstOf rt [item name,
    some (argOr args second (.str ""))]).getD .null
  match tool with
  | .recall =>
    let rawLimit := (env.toInt (argOr args "limit" (jsonNat 15))).getD 15
    .ok ⟨"prefetch", [("query", argOr args "query" (.str "")),
      ("session_id", argOr args "session_id" defaultSession),
      ("limit", .number (.ofInt (max 1 (min rawLimit 100)))),
      ("force", argOr args "force" (.bool false))]⟩
  | .remember =>
    (floatArg env (argOr args "confidence" (rt.jsonFloat (.finite 1)))).map fun conf =>
      ⟨"set", [("key", (firstOf rt [item "key", item "subject",
          some (argOr args "name" (.str ""))]).getD .null),
        ("value", sentValue env args),
        ("confidence", rt.jsonFloat conf),
        ("reason", argOr args "reason" (.str "agent_explicit")),
        ("session_id", anyOf ["session_id"] defaultSession)] ++
          itemsOf args ["outcome", "task_success"]⟩
  | .commitObservation =>
    (floatArg env (argOr args "confidence" (rt.jsonFloat (.finite 1)))).map fun conf =>
      ⟨"commit_observation", [("subject", argOr args "subject" (argOr args "key" (.str ""))),
        ("predicate", argOr args "predicate" (.str "observation")),
        ("object", .str (rt.pyStr (argOr args "object" (argOr args "value" (.str ""))))),
        ("confidence", rt.jsonFloat conf),
        ("session_id", argOr args "session_id" defaultSession),
        ("task_success", argOr args "task_success" (.bool false))] ++ itemsOf args ["outcome"]⟩
  | .whatIf =>
    (intArg env (argOr args "depth" (jsonNat 2))).map fun depth =>
      ⟨"what_if", [("entity", named "entity" "target"),
        ("action", argOr args "action" (.str "simulate")), ("depth", .number (.ofInt depth))]⟩
  | .activeSensing =>
    .ok ⟨"active_sensing", [("target_entity", named "probe" "target_entity"),
      ("expected_value", argOr args "expected_value" (.str "")),
      ("observed_value", argOr args "observed_value" (.str ""))] ++
        (((item "tolerance").bind rt.floatOfJson).map fun x =>
          ("tolerance", rt.jsonFloat x)).toList⟩
  | .stats => .ok ⟨"get_stats", []⟩
  | .get => .ok ⟨"get", [("key", .str (keyArg env args))]⟩
  | .delete =>
    let reason := argOr args "reason" (.str "agent_delete")
    .ok ⟨"delete", ("key", .str (keyArg env args)) ::
      if rt.truthy reason then [("reason", reason)] else []⟩
  | .taskFeedback =>
    let delta := (rt.floatOfJson (argOr args "delta" (rt.jsonFloat (.finite (5 / 100))))).getD
      (.finite (5 / 100))
    .ok ⟨"task_feedback", [("key", .str (keyArg env args)),
      ("task_success", .bool (rt.truthy (argOr args "task_success" (.bool true)))),
      ("delta", rt.jsonFloat delta)]⟩
  | .verifyChain =>
    .ok ⟨"verify_audit_log", [("heal", .bool (rt.truthy (argOr args "heal" (.bool false)))),
      ("deep", .bool (rt.truthy (argOr args "deep" (.bool false))))]⟩
  | .sleepSync =>
    .ok ⟨"trigger_sleep_consolidation",
      (((item "skills_dir").filter rt.truthy).map fun v =>
        ("skills_dir", Json.str (rt.pyStr v))).toList ++
      (((item "min_frequency").bind env.toInt).map fun n =>
        ("min_frequency", Json.number (.ofInt n))).toList⟩

/-- `AtlasTransportError.reason`. -/
def reasonText : TransportReason → String
  | .socketMissing => "socket_missing"
  | .ioError => "io_error"
  | .shortRead => "short_read"
  | .rpcError => "rpc_error"

/-- What a handler returns when there is no answer, or one that is no dictionary. -/
def unanswered (tool : Tool) (args : PyDict String Json) (reason : Option TransportReason) :
    ToolReply :=
  let rt := env.rt
  let key := Json.str (keyArg env args)
  let taskSuccess := Json.bool (rt.truthy (argOr args "task_success" (.bool true)))
  let base : List (String × Json) := match tool with
    | .recall => [("records", .arr []), ("count", jsonNat 0), ("status", .str "daemon_offline")]
    | .remember => [("status", .str "error"), ("persisted", .bool false)]
    | .commitObservation => [("status", .str "error"), ("committed", .bool false)]
    | .whatIf => [("status", .str "error"), ("causal_paths", .arr [])]
    | .activeSensing => [("status", .str "error"), ("has_error", .bool false)]
    | .stats => [("status", .str "error"), ("serving", .bool false)]
    | .get => [("status", .str "error"), ("key", key), ("state", .null)]
    | .delete =>
      [("status", .str "error"), ("key", key), ("deleted", .bool false), ("found", .bool false)]
    | .taskFeedback => [("status", .str "error"), ("key", key),
      ("confidence", rt.jsonFloat (.finite 0)), ("task_success", taskSuccess)]
    | .verifyChain =>
      [("status", .str "error"), ("valid", .bool false), ("checked_entries", jsonNat 0)]
    | .sleepSync => [("status", .str "error"), ("consolidated_records", jsonNat 0),
      ("pruned_stale_facts", jsonNat 0), ("baked_sops_count", jsonNat 0), ("baked_sops", .arr [])]
  setIf (PyDict.ofEntries base) "transport_reason" (reason.map fun r => .str (reasonText r))

/-- The reply of a handler to what came back. -/
def handlerReply (tool : Tool) (args : PyDict String Json) :
    Except TransportReason (Option ToolReply) → ToolReply
  | .ok (some reply) => reply
  | .ok none => unanswered env tool args none
  | .error reason => unanswered env tool args (some reason)

/-! ## The engine of the own process -/

variable {ρ : Type}

/-- A reply of the engine with these items. -/
def okReply (items : List (String × Json)) : ToolReply :=
  PyDict.ofEntries (("status", .str "ok") :: items ++ [("mode", .str "in_process")])

/-- The reply to a delete call for a protected key. -/
def protectedReply (key pre : String) : ToolReply :=
  PyDict.ofEntries [("status", .str "rejected"), ("key", .str key), ("deleted", .bool false),
    ("found", .bool false), ("reason", .str "protected_key"),
    ("message", .str s!"Key '{key}' is protected (prefix '{pre}'). Use soft tombstone or explicit ADR override."),
    ("mode", .str "in_process")]

def sessionArg (args : PyDict String Json) : String :=
  if isTruthy env.rt (args.get? "session_id") then textOr env.rt "" (args.get? "session_id")
  else if env.sessionId = "" then HotBuffer.defaultSession else env.sessionId

/-- The record of a remember call for the store of the engine; its validation raises when the
confidence is not between zero and one. -/
def rememberArgs (args : PyDict String Json) (key val : String) (conf : PyFloat) :
    Except PyError SetArgs :=
  if conf.ge (.finite 0) && (PyFloat.finite 1).ge conf then
    let reason := env.rt.pyStr (argOr args "reason" (.str "agent_explicit"))
    .ok { key := key, value := .str (env.recordText key val conf reason (sessionArg env args)) }
  else .error ⟨.valueError, "1 validation error for MemoryRecord"⟩

/-- What the recall finds among the rows of the store. -/
def matchingStates (query : String) (t : StateTable) : List Json :=
  ((env.page t).filter fun e => PyString.hasInfix (env.lower query) (env.lower e.1)).map fun e =>
    .obj [("subject", .str e.1), ("predicate", .str "state_value"),
      ("object", .str (env.stateText e.1 e.2)), ("confidence", env.rt.jsonFloat (.finite 1))]

/-- `lst[:n]` for a number that is not negative. -/
def firstRecords (n : ℤ) (records : List Json) : List Json := records.take (max 0 n).toNat

/-- `str(a or b or "")` of the arguments of these names. -/
def firstText (args : PyDict String Json) (names : List String) : String :=
  textOr env.rt "" (firstOf env.rt (names.map args.get? ++ [some (.str "")]))

/-- `_handle_in_process_tool_call`: the engine afterwards, if there is one, and the reply. -/
def inProcess (tool : Tool) (args : PyDict String Json) (engine : Option (Stores ρ)) (now : ℚ)
    (transportReason : Option Json) : Option (Stores ρ) × Except PyError ToolReply :=
  let rt := env.rt
  let text (name : String) (default : String) : String := rt.pyStr (argOr args name (.str default))
  match tool with
  | .get =>
    let key := keyArg env args
    let state : Option Json := engine.bind fun e =>
      (e.kv.db.stateVariables.lookup key).map fun r => .str (env.stateText r.1 r.2)
    (engine, .ok (okReply [("key", .str key), ("found", .bool state.isSome),
      ("state", state.getD .null)]))
  | .delete =>
    let key := keyArg env args
    match DeleteGuard.isDeleteProtected key with
    | some pre => (engine, .ok (protectedReply key pre))
    | none =>
      let found := engine.any fun e => (e.kv.db.stateVariables.lookup key).isSome
      (engine, .ok (okReply [("key", .str key), ("deleted", .bool true), ("found", .bool found)]))
  | .stats =>
    let records := (engine.map fun e => e.kv.db.stateVariables.size).getD 0
    (engine, .ok (okReply [("serving", .bool false), ("kv_records", jsonNat records),
      ("has_graph", .bool engine.isSome), ("has_orchestrator", .bool env.hasOrchestrator)]))
  | .remember =>
    let key := PyString.strip (firstText env args ["key", "subject"])
    let val := PyString.strip (firstText env args ["value", "object"])
    match floatArg env (argOr args "confidence" (rt.jsonFloat (.finite 1))) with
    | .error err => (engine, .error err)
    | .ok conf =>
      let reply := okReply [("key", .str key), ("value", .str val), ("persisted", .bool true)]
      match engine with
      | none => (none, .ok reply)
      | some e =>
        match rememberArgs env args key val conf with
        | .error err => (some e, .error err)
        | .ok a => (some { e with kv := e.kv.call rt (.setSync a now) }, .ok reply)
  | .recall =>
    let query := text "query" ""
    match intArg env (argOr args "limit" (jsonNat 15)) with
    | .error err => (engine, .error err)
    | .ok limit =>
      let states := (engine.map fun e => matchingStates env query e.kv.db.stateVariables).getD []
      let records := firstRecords limit
        (env.recallRecords query (sessionArg env args) limit ++ states)
      (engine, .ok (okReply [("records", .arr records), ("count", jsonNat records.length)]))
  | .whatIf =>
    let entity := firstText env args ["entity", "target"]
    let action := text "action" "simulate"
    match intArg env (argOr args "depth" (jsonNat 2)) with
    | .error err => (engine, .error err)
    | .ok depth =>
      let path := Json.obj [("entity", .str entity), ("action", .str action),
        ("depth", .number (.ofInt depth))]
      let uncertainty :=
        if engine.isSome then env.uncertainty entity action depth else .finite 0
      (engine, .ok (okReply [("entity", .str entity), ("action", .str action),
        ("causal_paths", .arr [path]), ("uncertainty", rt.jsonFloat uncertainty)]))
  | .activeSensing =>
    let probe := textOr rt "" (firstOf rt [args.get? "probe",
      some (argOr args "target_entity" (.str ""))])
    let expected := text "expected_value" ""
    let hasError := decide (expected ≠ text "observed_value" "") && decide (expected ≠ "")
    (engine, .ok (okReply [("probe", .str probe), ("has_error", .bool hasError),
      ("anomaly_detected", .bool hasError),
      ("prediction_error", rt.jsonFloat (.finite (if hasError then 1 / 2 else 0)))]))
  | .taskFeedback =>
    let key := text "key" ""
    let success := rt.truthy (argOr args "task_success" (.bool true))
    match floatArg env (argOr args "delta" (rt.jsonFloat (.finite (5 / 100)))) with
    | .error err => (engine, .error err)
    | .ok delta =>
      -- the state is a dictionary: its confidence is taken for `1.0`, and the assignment raises
      let found := decide (key ≠ "") &&
        engine.any fun e => (e.kv.db.stateVariables.lookup key).isSome
      let updated : ℚ :=
        if found then PyFloat.clampUnit (some (PyFloat.add (.finite 1)
          (if success then delta else PyFloat.mul (.finite (-1)) delta)))
        else 1
      (engine, .ok (okReply [("key", .str key), ("task_success", .bool success),
        ("updated_confidence", rt.jsonFloat (.finite updated))]))
  | .verifyChain =>
    let entries := (engine.map fun e => e.kv.db.stateVariables.size).getD 0
    (engine, .ok (okReply [("verified", .bool true), ("chain_length", jsonNat entries),
      ("healed", .bool (rt.truthy (argOr args "heal" (.bool false)))),
      ("deep", .bool (rt.truthy (argOr args "deep" (.bool false))))]))
  | .sleepSync =>
    match intArg env (argOr args "min_frequency" (jsonNat 1)) with
    | .error err => (engine, .error err)
    | .ok frequency =>
      let skillsDir := (args.get? "skills_dir").filter rt.truthy
      (engine, .ok (okReply [("consolidated", .bool true),
        ("skills_dir", (skillsDir.map fun v => Json.str (rt.pyStr v)).getD .null),
        ("min_frequency", .number (.ofInt frequency))]))
  | .commitObservation =>
    (engine, .ok (setIf (PyDict.ofEntries [("status", .str "ok"), ("mode", .str "in_process"),
      ("tool", .str tool.name)]) "transport_reason" transportReason))

/-! ## The call -/

/-- Where a reply comes from. -/
inductive Server
  | daemon
  | inProcess
  deriving DecidableEq

/-- What a tool call leaves: the reply, where it comes from, and both stores. -/
structure ToolOutcome (ρ : Type) where
  reply : ToolReply
  server : Server
  vault : Stores ρ
  engine : Option (Stores ρ)

def errorReply (toolName : String) (err : PyError) : ToolReply :=
  PyDict.ofEntries [("status", .str "error"), ("tool", .str toolName), ("error", .str err.message)]

/-- A reply with one of these statuses is replaced. -/
def fallsBack (reply : ToolReply) : Bool :=
  decide (reply.status = some "daemon_offline") || decide (reply.status = some "error")

/-- The outcome of a call that the engine answers. -/
def answerInProcess (tool : Tool) (args : PyDict String Json) (vault : Stores ρ)
    (engine : Option (Stores ρ)) (now : ℚ) (transportReason : Option Json) : ToolOutcome ρ :=
  match inProcess env tool args engine now transportReason with
  | (engine, .ok reply) => ⟨reply, .inProcess, vault, engine⟩
  | (engine, .error err) => ⟨errorReply tool.name err, .inProcess, vault, engine⟩

/-- `handle_tool_call` of a tool that there is. -/
def callTool (d : MemoryDaemon ρ) (link : Link) (tool : Tool) (args : PyDict String Json)
    (vault : Stores ρ) (engine : Option (Stores ρ)) (now : ℚ) : ToolOutcome ρ :=
  match request env tool args with
  | .error err => ⟨errorReply tool.name err, .inProcess, vault, engine⟩
  | .ok req =>
    let (vault, answer) := d.sendUdsRequest link req vault
    let reply := handlerReply env tool args answer
    if fallsBack reply then
      answerInProcess env tool args vault engine now (reply.get? "transport_reason")
    else ⟨reply, .daemon, vault, engine⟩

/-- `handle_tool_call`; `none` when there is no such tool. -/
def handleToolCall (d : MemoryDaemon ρ) (link : Link) (toolName : String) (args : PyDict String Json)
    (vault : Stores ρ) (engine : Option (Stores ρ)) (now : ℚ) : Option (ToolOutcome ρ) :=
  (Tool.ofName toolName).map fun tool => callTool env d link tool args vault engine now

end AtlasProvider

end AtlasMemory
