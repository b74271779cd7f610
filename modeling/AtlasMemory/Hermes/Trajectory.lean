import AtlasMemory.Cognitive.Lexicon
import AtlasMemory.Foundations.JsonParse
import AtlasMemory.Foundations.PyDict
import AtlasMemory.Foundations.SqlText
import AtlasMemory.Foundations.PyText
import AtlasMemory.Runtime

/-!
# The trajectory of a session

The model of `trajectory_extractor.py`: the tool calls of a transcript become steps, each with the
verdict on its result.  The envelope of a result takes its signals from the message, the call
parameters and the text, in this order; the verdict is read off the envelope.

The results are matched to the calls by two mechanisms, by the id of a call and by the position
among all results.  `matchResults` returns the result of each call with its place in the transcript;
`extractTrajectory` makes the steps of them.
-/

namespace AtlasMemory

namespace Trajectory

/-- What `int(v)` does: a `ValueError` or `TypeError` is `refused`, an `OverflowError` is
`overflow`. -/
inductive IntResult
  | value (n : ℤ)
  | refused
  | overflow
  deriving DecidableEq

/-- The library functions that the extractor calls. -/
structure ExtractorEnv where
  rt : Runtime
  /-- `s.lower()`. -/
  lower : String → String
  /-- `int(v)`. -/
  toInt : Json → IntResult
  /-- `_EXIT_CODE_RE.search(text).group(1)`. -/
  exitCodeGroup : String → Option String
  /-- `bool(_TIMED_OUT_RE.search(text))`. -/
  timedOut : String → Bool

/-- `ToolExecutionResult`. -/
structure ToolExecutionResult where
  toolName : String
  output : String
  exitCode : Option ℤ := none
  isError : Option Bool := none
  timedOut : Bool := false
  errorMessage : Option String := none

section Envelope

variable (env : ExtractorEnv)

/-- The exit code of the message, of the parameters or of the text; `none` when the conversion
raises.  The conversion of a matched text is not guarded. -/
def exitCode (text : String) (params rawMsg : PyDict String Json) : Option (Option ℤ) :=
  let guarded (v : Json) : Option (Option ℤ) :=
    match env.toInt v with
    | .value n => some (some n)
    | .refused => some none
    | .overflow => none
  match rawMsg.get? "exit_code" with
  | some v => guarded v
  | none =>
    match params.get? "exit_code" with
    | some v => guarded v
    | none =>
      match env.exitCodeGroup text with
      | some digits =>
        match env.toInt (.str digits) with
        | .value n => some (some n)
        | .refused | .overflow => none
      | none => some none

/-- What the inspection of a JSON payload finds: an error with its message, a success, or
nothing. -/
inductive Payload
  | error (message : String)
  | success
  | silent
  deriving DecidableEq

def inspectPayload (text : String) : Payload :=
  let stripped := PyString.strip text
  if PyString.startsWith stripped "\x7b" then
    match Json.loads (PyText.ofString stripped) with
    | some (.obj obj) =>
      let status := env.lower (((obj.lookup "status").map env.rt.pyStr).getD "")
      if (obj.lookup "error").any env.rt.truthy then
        .error (((obj.lookup "error").map env.rt.pyStr).getD "")
      else if status ∈ ["error", "failed", "failure"] then
        .error (((obj.lookup "status").map env.rt.pyStr).getD "None")
      else if status ∈ ["ok", "success"] then .success
      else .silent
    | _ => .silent
  else .silent

/-- The `is_error` flag of the message. -/
def explicitError (rawMsg : PyDict String Json) : Option Bool :=
  (rawMsg.get? "is_error").map env.rt.truthy

/-- `ToolExecutionResult.from_raw`; `none` when it raises. -/
def fromRaw (text toolName : String) (params rawMsg : PyDict String Json) :
    Option ToolExecutionResult :=
  (exitCode env text params rawMsg).map fun code =>
    { toolName := toolName
      output := text
      exitCode := code
      isError :=
        match explicitError env rawMsg, inspectPayload env text with
        | some flag, _ => some flag
        | none, .error _ => some true
        | none, .success => some false
        | none, .silent => none
      timedOut := env.timedOut text
      errorMessage :=
        match inspectPayload env text with
        | .error message => some message
        | .success | .silent => none }

/-- `_judge_result` on an envelope. -/
def judgeResult (envelope : ToolExecutionResult) : Bool × Option String :=
  let stripped := PyString.strip envelope.output
  if stripped = "" then
    if envelope.isError = some false ∨ envelope.exitCode = some 0 then (true, none)
    else (false, some "no_result")
  else if envelope.isError = some true then
    (false, ([envelope.errorMessage.getD "", String.ofList (stripped.toList.take 200),
      "tool_flagged_error"].find? (· ≠ "")))
  else
    match envelope.exitCode with
    | some code => if code = 0 then (true, none) else (false, some ("exit_code=" ++ toString code))
    | none => if envelope.timedOut then (false, some "timed_out") else (true, none)

/-- `_judge_result` on the text of a result. -/
def verdict (text toolName : String) (params rawMsg : PyDict String Json) :
    Option (Bool × Option String) :=
  (fromRaw env text toolName params rawMsg).map judgeResult

end Envelope

/-! ## Texts and arguments -/

section Extraction

variable (env : ExtractorEnv)

/-- The items of an object as a dictionary. -/
def dictOf (members : List (String × Json)) : PyDict String Json := PyDict.ofEntries members

/-- The first of the members that is not empty. -/
def firstField (members : List (String × Json)) (names : List String) : Option Json :=
  (names.filterMap fun name => members.lookup name).find? env.rt.truthy

/-- `_content_to_text`. -/
def contentToText : Option Json → String
  | none | some .null => ""
  | some (.str s) => s
  | some (.arr parts) =>
    "\n".intercalate (parts.map fun part =>
      match part with
      | .obj members =>
        ((firstField env members ["text", "content"]).map env.rt.pyStr).getD ""
      | part => env.rt.pyStr part)
  | some (.obj members) => (Json.obj members).dumps
  | some content => env.rt.pyStr content

/-- `_parse_arguments`. -/
def parseArguments : Option Json → PyDict String Json
  | some (.obj members) => dictOf members
  | some (.str raw) =>
    match Json.loads (PyText.ofString raw) with
    | some (.obj members) => dictOf members
    | some parsed => dictOf [("_raw", parsed)]
    | none => dictOf [("_raw", .str raw)]
  | _ => ∅

/-! ## Calls and results -/

/-- A result of the transcript: its place, its text and its message. -/
structure ToolResult where
  place : ℕ
  text : String
  message : List (String × Json)

def toolResult? : Json × ℕ → Option ToolResult
  | (.obj message, place) =>
    if message.lookup "role" matches some (.str "tool") then
      some ⟨place, contentToText env (message.lookup "content"), message⟩
    else none
  | _ => none

/-- The results of the transcript in their order. -/
def orderedResults (messages : List Json) : List ToolResult :=
  messages.zipIdx.filterMap (toolResult? env)

/-- The key of a result: its `tool_call_id`, if it has one. -/
def ToolResult.key (result : ToolResult) : Option String :=
  ((result.message.lookup "tool_call_id").filter env.rt.truthy).map env.rt.pyStr

/-- `results_by_id`: a later result replaces an earlier one. -/
def resultsById (messages : List Json) : PyDict String ToolResult :=
  PyDict.ofEntries ((orderedResults env messages).filterMap fun result =>
    (result.key env).map fun key => (key, result))

/-- A tool call with a name; a call without an id has the blank one. -/
structure NamedCall where
  name : String
  id : String
  arguments : Option Json
  strip_id : PyString.strip id = id

def NamedCall.withoutId (call : NamedCall) : Bool := decide (call.id = "")

def namedCall? : Json → Option NamedCall
  | .obj call =>
    let fn := (firstField env call ["function"]).getD (.obj [])
    match fn with
    | .obj fn =>
      let name := PyString.strip (((firstField env fn ["name"]).map env.rt.pyStr).getD "")
      if name = "" then none
      else some ⟨name, PyString.strip (((firstField env call ["id"]).map env.rt.pyStr).getD ""),
        fn.lookup "arguments", PyString.strip_strip _⟩
    | _ => none
  | _ => none

/-- The named calls of the transcript in their order. -/
def namedCalls (messages : List Json) : List NamedCall :=
  messages.flatMap fun
    | .obj message =>
      match message.lookup "role" with
      | some (.str "assistant") =>
        match firstField env message ["tool_calls"] with
        | some (.arr calls) => calls.filterMap (namedCall? env)
        | _ => []
      | _ => []
    | _ => []

/-- The loop over the calls; `pendingNoId` is the number of calls without an id so far. -/
def matchCalls (messages : List Json) : ℕ → List NamedCall → List (NamedCall × Option ToolResult)
  | _, [] => []
  | pendingNoId, call :: calls =>
    if call.withoutId then
      (call, (orderedResults env messages)[pendingNoId]?) ::
        matchCalls messages (pendingNoId + 1) calls
    else (call, (resultsById env messages).get? call.id) :: matchCalls messages pendingNoId calls

/-- Each call with the result that is attributed to it. -/
def matchResults (messages : List Json) : List (NamedCall × Option ToolResult) :=
  matchCalls env messages 0 (namedCalls env messages)

/-- A step of the trajectory. -/
structure Step where
  toolName : String
  parameters : PyDict String Json
  success : Bool
  error : Option String
  sessionId : String

def stepOf (sessionId : String) (call : NamedCall) (result : Option ToolResult) : Option Step :=
  let params := parseArguments call.arguments
  (verdict env ((result.map ToolResult.text).getD "") call.name params
    (dictOf ((result.map ToolResult.message).getD []))).map fun outcome =>
      ⟨call.name, params, outcome.1, outcome.2, sessionId⟩

/-- `extract_trajectory`. -/
def extractTrajectory (messages : List Json) (sessionId : String) : Option (List Step) :=
  (matchResults env messages).mapM fun call => stepOf env sessionId call.1 call.2

end Extraction

/-- Texts that report an exit code in one way only. -/
def ExtractorEnv.sample : ExtractorEnv where
  rt := Runtime.sample
  lower := SqlText.lower
  toInt
    | .str s =>
      if s ≠ "" ∧ s.toList.all isDigit then
        .value (s.toList.foldl (fun n c => 10 * n + (c.toNat - 48)) 0 : ℕ)
      else .refused
    | .bool b => .value (if b then 1 else 0)
    | _ => .refused
  exitCodeGroup text :=
    if PyString.startsWith text "exit code: " then some (String.ofList (text.toList.drop 11))
    else none
  timedOut text := PyString.hasInfix "timed out" text

end Trajectory

end AtlasMemory
