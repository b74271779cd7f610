import AtlasMemory.Foundations.PyFloat
import AtlasMemory.Foundations.PyText

/-!
# The wire models

Requests and responses as `wire_models.py` declares them.  What arrives is any value that the JSON
parser returns, and its texts may hold lone surrogates; a validated request holds ordinary texts
only.  The validation of an identifier and the writing of a response belong to the library of the
models, and are parameters with the behaviour that it documents.
-/

namespace PyText

def asChar : PyChar → Option Char
  | .scalar c => some c
  | .high _ | .low _ => none

/-- The text, where it has no lone surrogate. -/
def asText (t : PyText) : Option String := (t.mapM asChar).map String.ofList

@[simp] lemma asText_ofString (s : String) : asText (ofString s) = some s := by
  have hchars : ∀ cs : List Char, (ofChars cs).mapM asChar = some cs := by
    intro cs
    induction cs with
    | nil => rfl
    | cons c cs ih => simp [asChar, ih]
  rw [asText, ofString, hchars, Option.map_some, String.ofList_toList]

end PyText

namespace AtlasMemory

/-- A value that `json.loads` returns. -/
inductive WireValue
  | null
  | bool (b : Bool)
  | int (n : ℤ)
  | float (x : PyFloat)
  | str (s : PyText)
  | arr (items : List WireValue)
  | obj (members : List (PyText × WireValue))

namespace WireValue

/-- `d.get(name)` of a parsed object: of members with one name the last counts. -/
def get? (members : List (PyText × WireValue)) (name : String) : Option WireValue :=
  (members.reverse.find? fun m => decide (m.1 = PyText.ofString name)).map Prod.snd

/-- Whether the value is `None`. -/
def isNull : WireValue → Bool
  | .null => true
  | _ => false

end WireValue

/-- A validated identifier. -/
inductive RpcId
  | int (n : ℤ)
  | str (s : String)
  deriving DecidableEq

def RpcId.toValue : Option RpcId → WireValue
  | none => .null
  | some (.int n) => .int n
  | some (.str s) => .str (PyText.ofString s)

/-- The identifier equals the value, as JSON compares numbers and texts. -/
def RpcId.Equals : Option RpcId → WireValue → Prop
  | none, .null => True
  | some (.int n), .int m => n = m
  | some (.int n), .float x => x = .finite n ∨ x = .negZero ∧ n = 0
  | some (.str s), .str t => t = PyText.ofString s
  | _, _ => False

/-- A `JSONRPCError`. -/
structure JSONRPCError where
  code : ℤ
  message : String
  deriving DecidableEq

namespace JSONRPCError

/-- `INVALID_REQUEST`. -/
def invalidRequest (message : String) : JSONRPCError := ⟨-32600, "Invalid Request: " ++ message⟩

/-- `METHOD_NOT_FOUND`. -/
def methodNotFound (method : String) : JSONRPCError := ⟨-32601, "Method not found: " ++ method⟩

/-- `INVALID_PARAMS`. -/
def invalidParams (message : String) : JSONRPCError := ⟨-32602, "Invalid params: " ++ message⟩

/-- `INTERNAL_ERROR`. -/
def internalError (message : String) : JSONRPCError := ⟨-32603, "Internal error: " ++ message⟩

/-- `PARSE_ERROR`. -/
def parseError (message : String) : JSONRPCError := ⟨-32700, "Parse error: " ++ message⟩

end JSONRPCError

/-- What a response carries beside its identifier; a result is not validated. -/
inductive RpcBody (R : Type)
  | result (r : R)
  | error (e : JSONRPCError)

/-- A `JSONRPCResponse`. -/
structure JSONRPCResponse (R : Type) where
  id : Option RpcId
  body : RpcBody R

/-- A `JSONRPCRequest`; nothing reads its version. -/
structure JSONRPCRequest where
  method : String
  params : Option (List (PyText × WireValue))
  id : Option RpcId

/-- The ways in which writing a response raises. -/
inductive DumpFault
  | unicode
  | other
  deriving DecidableEq

/-- The library of the wire models. -/
structure WireLibrary (R : Type) where
  /-- The validation of `Optional[Union[int, str]]`; `none` when it raises. -/
  validateId : WireValue → Option (Option RpcId)
  /-- The text of the exception when the validation of a request raises. -/
  validationText : List (PyText × WireValue) → String
  /-- The exception that `model_dump_json().encode("utf-8")` raises, if any. -/
  dumpJson : JSONRPCResponse R → Option DumpFault
  /-- Whether `json.dumps` writes the dumped response. -/
  dumps : JSONRPCResponse R → Bool
  /-- A valid identifier passes as it is. -/
  validateId_toValue : ∀ i, validateId (RpcId.toValue i) = some i
  /-- Responses of integers and texts can be written. -/
  dumpJson_error : ∀ i e, dumpJson ⟨i, .error e⟩ = none
  dumps_error : ∀ i e, dumps ⟨i, .error e⟩ = true

namespace WireLibrary

variable {R : Type} (lib : WireLibrary R)

/-- The validation of a field of type `str`. -/
def validateStr : WireValue → Option String
  | .str s => s.asText
  | _ => none

/-- The validation of `Optional[Dict[str, Any]]`. -/
def validateParams : WireValue → Option (Option (List (PyText × WireValue)))
  | .null => some none
  | .obj members => if members.all fun m => m.1.asText.isSome then some (some members) else none
  | _ => none

/-- `JSONRPCRequest.model_validate`: every field is validated, or has its default. -/
def validateRequest (members : List (PyText × WireValue)) : Option JSONRPCRequest := do
  let _ ← validateStr ((WireValue.get? members "jsonrpc").getD (.str (PyText.ofString "2.0")))
  let method ← (WireValue.get? members "method").bind validateStr
  let params ← validateParams ((WireValue.get? members "params").getD .null)
  let id ← lib.validateId ((WireValue.get? members "id").getD .null)
  return { method, params, id }

/-- The identifier of a valid request is the validated one. -/
lemma validateId_of_validateRequest {members : List (PyText × WireValue)} {req : JSONRPCRequest}
    (h : lib.validateRequest members = some req) :
    lib.validateId ((WireValue.get? members "id").getD .null) = some req.id := by
  simp only [validateRequest, Option.pure_def, Option.bind_eq_bind, Option.bind_eq_some_iff] at h
  obtain ⟨-, -, method, -, params, -, id, hid, hreq⟩ := h
  rw [hid, ← Option.some.inj hreq]

/-- `JSONRPCResponse(id=..., ...)`; the identifier is validated. -/
def mkResponse (id : WireValue) (body : RpcBody R) : Option (JSONRPCResponse R) :=
  (lib.validateId id).map fun i => ⟨i, body⟩

lemma mkResponse_toValue (i : Option RpcId) (body : RpcBody R) :
    lib.mkResponse (RpcId.toValue i) body = some ⟨i, body⟩ := by
  rw [mkResponse, lib.validateId_toValue]
  rfl

/-- A library that validates identifiers as its documentation says, over results that can always be
written: an integral number and a truth value pass as an integer. -/
def sample : WireLibrary Unit where
  validateId
    | .null => some none
    | .int n => some (some (.int n))
    | .bool b => some (some (.int (if b then 1 else 0)))
    | .float (.finite x) => if x.den = 1 then some (some (.int x.num)) else none
    | .float .negZero => some (some (.int 0))
    | .str s => s.asText.map fun t => some (.str t)
    | _ => none
  validationText _ := "validation error for JSONRPCRequest"
  dumpJson _ := none
  dumps _ := true
  validateId_toValue
    | none => rfl
    | some (.int _) => rfl
    | some (.str s) => by simp [RpcId.toValue]
  dumpJson_error _ _ := rfl
  dumps_error _ _ := rfl

end WireLibrary

end AtlasMemory
