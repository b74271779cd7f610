import AtlasMemory.Ipc.WireModels

/-!
# The dispatcher and the connection

The model of `JSONRPCDispatcher.dispatch` and of the loop of `_handle_client`, over handlers that
keep a state and may raise.  Building a response validates it, so it can raise as well, also where
an exception is being answered; what leaves the dispatcher as an exception ends the connection.
-/

namespace AtlasMemory

/-- What a handler does; `str(exc)` may itself raise. -/
inductive HandlerOutcome (R : Type)
  | result (r : R)
  /-- `ValueError`, `TypeError` or `KeyError`. -/
  | paramError (text : Option PyText)
  /-- Another exception. -/
  | error (text : Option PyText)

/-- A handler over the state of the daemon. -/
abbrev RpcHandler (S R : Type) := S → List (PyText × WireValue) → S × HandlerOutcome R

/-- Why a connection ends. -/
inductive Closed
  | framing
  | invalidResponse
  | exceptionText
  | serialization
  deriving DecidableEq

/-- A dispatcher, with the library of its wire models. -/
structure RpcDispatcher (S R : Type) where
  lib : WireLibrary R
  handlers : String → Option (RpcHandler S R)

namespace RpcDispatcher

variable {S R : Type} (d : RpcDispatcher S R)

/-! ## One request -/

/-- Build a response, which raises on an invalid identifier. -/
def respond (id : WireValue) (body : RpcBody R) :
    Except Closed (Option (JSONRPCResponse R)) :=
  match d.lib.mkResponse id body with
  | some response => .ok (some response)
  | none => .error .invalidResponse

/-- Answer an exception of a handler: its text is taken for the log, then a notification gets no
answer, and the message of the error is validated. -/
def respondError (isNotification : Bool) (id : Option RpcId) (mkError : String → JSONRPCError) :
    Option PyText → Except Closed (Option (JSONRPCResponse R))
  | none => .error .exceptionText
  | some text =>
    if isNotification then .ok none
    else match text.asText with
      | none => .error .invalidResponse
      | some message => d.respond (RpcId.toValue id) (.error (mkError message))

def respondOutcome (isNotification : Bool) (id : Option RpcId) :
    HandlerOutcome R → Except Closed (Option (JSONRPCResponse R))
  | .result r => if isNotification then .ok none else d.respond (RpcId.toValue id) (.result r)
  | .paramError text => d.respondError isNotification id JSONRPCError.invalidParams text
  | .error text => d.respondError isNotification id JSONRPCError.internalError text

/-- `req_raw.get("id")`. -/
def rawId (members : List (PyText × WireValue)) : WireValue :=
  (WireValue.get? members "id").getD .null

/-- `dispatch` of an object. -/
def dispatchObject (s : S) (members : List (PyText × WireValue)) :
    S × Except Closed (Option (JSONRPCResponse R)) :=
  let isNotification := (rawId members).isNull
  match d.lib.validateRequest members with
  | none =>
    (s, if isNotification then .ok none
      else d.respond (rawId members)
        (.error (.invalidRequest (d.lib.validationText members))))
  | some req =>
    match d.handlers req.method with
    | none =>
      (s, if isNotification then .ok none
        else d.respond (RpcId.toValue req.id) (.error (.methodNotFound req.method)))
    | some handler =>
      let (s', outcome) := handler s (req.params.getD [])
      (s', d.respondOutcome isNotification req.id outcome)

section Object

variable {d} {members : List (PyText × WireValue)} {req : JSONRPCRequest}

lemma dispatchObject_of_invalid (s : S) (h : d.lib.validateRequest members = none) :
    d.dispatchObject s members = (s, if (rawId members).isNull then .ok none
      else d.respond (rawId members)
        (.error (.invalidRequest (d.lib.validationText members)))) := by
  rw [dispatchObject, h]

lemma dispatchObject_of_unknown (s : S) (h : d.lib.validateRequest members = some req)
    (hmethod : d.handlers req.method = none) :
    d.dispatchObject s members = (s, if (rawId members).isNull then .ok none
      else d.respond (RpcId.toValue req.id) (.error (.methodNotFound req.method))) := by
  simp only [dispatchObject, h, hmethod]

lemma dispatchObject_of_handled (s : S) {handler : RpcHandler S R}
    (h : d.lib.validateRequest members = some req)
    (hmethod : d.handlers req.method = some handler) :
    d.dispatchObject s members = ((handler s (req.params.getD [])).1,
      d.respondOutcome (rawId members).isNull req.id (handler s (req.params.getD [])).2) := by
  simp only [dispatchObject, h, hmethod]

end Object

/-- `dispatch`. -/
def dispatch (s : S) : WireValue → S × Except Closed (Option (JSONRPCResponse R))
  | .obj members => d.dispatchObject s members
  | _ => (s, d.respond .null (.error (.invalidRequest "Request must be a JSON object")))

/-- The loop over the requests of a batch. -/
def dispatchBatch (s : S) : List WireValue → S × Except Closed (List (JSONRPCResponse R))
  | [] => (s, .ok [])
  | e :: es =>
    match d.dispatch s e with
    | (s', .error fault) => (s', .error fault)
    | (s', .ok response) =>
      match dispatchBatch s' es with
      | (s'', .error fault) => (s'', .error fault)
      | (s'', .ok responses) => (s'', .ok (response.toList ++ responses))

/-! ## The connection -/

/-- A message: the four bytes of its length, and what `json.loads` makes of its payload: a value,
or an exception with a text. -/
structure Frame where
  header : Fin 256 × Fin 256 × Fin 256 × Fin 256
  payload : Except String WireValue

namespace Frame

/-- `struct.unpack(">I", length_bytes)`. -/
def msgLen (f : Frame) : ℕ :=
  ((f.header.1 * 256 + f.header.2.1) * 256 + f.header.2.2.1) * 256 + f.header.2.2.2

/-- The header is ASCII text and starts like a text protocol or like JSON; `OPTIONS` is longer than
the header. -/
def isText (f : Frame) : Bool :=
  let (a, b, c, d) := f.header
  decide (a < 128 ∧ b < 128 ∧ c < 128 ∧ d < 128) &&
    [['G', 'E', 'T'], ['P', 'O', 'S', 'T'], ['H', 'E', 'A', 'D'], ['P', 'U', 'T'], ['\x7b'],
      ['[']].any fun pre =>
      pre.isPrefixOf [Char.ofNat a, Char.ofNat b, Char.ofNat c, Char.ofNat d]

/-- The length is within the ceiling of 16 MB. -/
def WellFramed (f : Frame) : Prop := f.msgLen ≤ 16 * 1024 * 1024

instance (f : Frame) : Decidable f.WellFramed := inferInstanceAs (Decidable (_ ≤ _))

end Frame

/-- Write one response: where it cannot be encoded, it is written with everything escaped. -/
def writeResponse (response : JSONRPCResponse R) : Except Closed (List (JSONRPCResponse R)) :=
  match d.lib.dumpJson response with
  | none => .ok [response]
  | some .unicode => if d.lib.dumps response then .ok [response] else .error .serialization
  | some .other => .error .serialization

/-- Write the responses of a batch as one list, if there are any. -/
def writeBatch (responses : List (JSONRPCResponse R)) :
    Except Closed (List (JSONRPCResponse R)) :=
  if responses = [] then .ok []
  else if responses.all d.lib.dumps then .ok responses
  else .error .serialization

/-- The responses that the loop of `_handle_client` writes for one message. -/
def handleFrame (s : S) (f : Frame) : S × Except Closed (List (JSONRPCResponse R)) :=
  if f.isText then (s, .error .framing)
  else if f.msgLen > 16 * 1024 * 1024 then (s, .error .framing)
  else match f.payload with
    | .error text => (s, d.writeResponse ⟨none, .error (.parseError text)⟩)
    | .ok (.arr []) =>
      (s, d.writeResponse ⟨none, .error (.invalidRequest "Batch cannot be empty")⟩)
    | .ok (.arr (e :: es)) =>
      let (s', responses) := d.dispatchBatch s (e :: es)
      (s', responses.bind d.writeBatch)
    | .ok v =>
      let (s', response) := d.dispatch s v
      (s', response.bind fun
        | none => .ok []
        | some response => d.writeResponse response)

/-- The loop of `_handle_client`: the responses for each message, and whether the connection is
still open. -/
def serve (s : S) : List Frame → List (List (JSONRPCResponse R)) × Bool
  | [] => ([], true)
  | f :: fs =>
    match d.handleFrame s f with
    | (_, .error _) => ([], false)
    | (s', .ok responses) =>
      let (rest, isOpen) := serve s' fs
      (responses :: rest, isOpen)

end RpcDispatcher

end AtlasMemory
