import AtlasMemory.Cognitive.CandidateDedup
import AtlasMemory.Server.MemoryRequests

/-!
# The turns of a conversation

The model of `_handle_sync_turn`: the lines of the two sides of a turn that look like statements go
to the write path one by one, each under a key made from its first four words; where there is none,
the first line that is not empty goes.  A write that raises ends the request, and what was recorded
before stays.  The note of the transition, whose exceptions are swallowed, is left out, and a session
that is no text is passed on as its text.

The key keeps of a line only its subject: the first four words with every character but ASCII letters,
digits, the underscore and the colon folded to an underscore.  Neither the rest of the line nor the
session counts.
-/

namespace AtlasMemory

namespace SyncTurn

open MemoryController

/-! ## Lines -/

/-- Whether `str.splitlines` breaks a line at the character. -/
def isLineBreak (c : Char) : Bool :=
  (10 ≤ c.toNat && c.toNat ≤ 13) || (28 ≤ c.toNat && c.toNat ≤ 30) || c.toNat = 133 ||
    c.toNat = 8232 || c.toNat = 8233

/-- `text.splitlines()`, of the reversed part of the line before the position and the text from
it. -/
def splitLines : List Char → List Char → List (List Char)
  | line, [] => if line = [] then [] else [line.reverse]
  | line, '\r' :: '\n' :: cs => line.reverse :: splitLines [] cs
  | line, c :: cs =>
    if isLineBreak c then line.reverse :: splitLines [] cs else splitLines (c :: line) cs

def strippedLines (text : String) : List String :=
  (splitLines [] text.toList).map fun line => PyString.strip (String.ofList line)

/-- `text.split()`. -/
def words (text : String) : List (List Char) := Fingerprint.words text.toList

def qualifies (line : String) : Bool :=
  decide (3 ≤ (words line).length) && !PyString.startsWithAny line ["#", "//", "```", "<"]

/-! ## Keys -/

/-- `[a-zA-Z0-9_:]`. -/
def isKeyChar (c : Char) : Bool :=
  ('a' ≤ c && c ≤ 'z') || ('A' ≤ c && c ≤ 'Z') || ('0' ≤ c && c ≤ '9') || c = '_' || c = ':'

def fold (c : Char) : Char := if isKeyChar c then c else '_'

/-- `clean_subj`. -/
def subject (text : String) : List Char :=
  if words text = [] then "turn_fact".toList
  else PyText.stripList (fun c => decide (c = '_'))
    (([' '].intercalate ((words text).take 4)).map fold)

/-- `turn_key` of a subject: a long one is cut and marked with a digest. -/
def keyOf (rt : Runtime) (subject : List Char) : String :=
  let turnKey := String.ofList ("turn:".toList ++ subject)
  if 120 < turnKey.length then
    String.ofList (turnKey.toList.take 64 ++ '_' :: (rt.hexdigest turnKey).toList.take 16)
  else turnKey

/-! ## Recording -/

/-- A line on its way to the write path. -/
structure TurnLine where
  text : String
  confidence : ℚ
  source : String

/-- A line that was recorded: its session and the response, which names the key of the record. -/
structure Recorded where
  session : Json
  text : String
  response : WriteResponse

/-- The stores, and the lines recorded so far. -/
structure TurnState (ρ : Type) where
  stores : Stores ρ
  recorded : List Recorded := []

/-- What the handler uses: the write path, if there is one. -/
structure TurnEnv (ρ : Type) where
  path : WriteEnv ρ
  hasPath : Bool := true

variable {ρ : Type} (env : TurnEnv ρ)

def turnWrite (session : Json) (line : TurnLine) : WriteRequest ρ where
  key := .str (keyOf env.path.rt (subject line.text))
  value := .str line.text
  confidence := .finite line.confidence
  metadata := some (PyDict.ofEntries [("session_id", session), ("origin", .str "shadow_turn")])
  sourceType := some line.source
  reason := "sync_turn"
  sessionId := match session with
    | .null => none
    | session => some (env.path.rt.pyStr session)

/-- `_record_turn_fact`: without a write path nothing is recorded. -/
def recordTurnFact (clock : ℕ → WriteTimes) (session : Json) (st : TurnState ρ) (line : TurnLine) :
    TurnState ρ × Except PyError Unit :=
  if env.hasPath then
    match WritePath.write env.path st.stores (turnWrite env session line)
        (clock st.recorded.length) with
    | (stores, .ok response) => (⟨stores, st.recorded ++ [⟨session, line.text, response⟩]⟩, .ok ())
    | (stores, .error err) => (⟨stores, st.recorded⟩, .error err)
  else (st, .ok ())

/-- The lines of a segment, up to one that raises. -/
def recordLines (clock : ℕ → WriteTimes) (session : Json) :
    TurnState ρ → List TurnLine → TurnState ρ × Except PyError Unit
  | st, [] => (st, .ok ())
  | st, line :: lines =>
    match recordTurnFact env clock session st line with
    | (st, .ok ()) => recordLines clock session st lines
    | (st, .error err) => (st, .error err)

/-- The lines of a segment that look like statements; only a text has lines. -/
def segmentLines (content : Json) (source : String) (confidence : ℚ) :
    Except PyError (List TurnLine) :=
  if env.path.rt.truthy content then
    match content with
    | .str text =>
      .ok (((strippedLines text).filter qualifies).map fun line => ⟨line, confidence, source⟩)
    | _ => .error ⟨.attributeError, "object has no attribute 'splitlines'"⟩
  else .ok []

def recordSegment (clock : ℕ → WriteTimes) (session content : Json) (source : String)
    (confidence : ℚ) (st : TurnState ρ) : TurnState ρ × Except PyError Unit :=
  match segmentLines env content source confidence with
  | .error err => (st, .error err)
  | .ok lines => recordLines env clock session st lines

/-! ## The request -/

/-- `user_content` and `assistant_content`. -/
def contents (params : PyDict String Json) : Except PyError (Json × Json) :=
  let given (name name' : String) : Json :=
    (firstOf env.path.rt [params.get? name, params.get? name']).getD (.str "")
  let user := given "user_content" "user_message"
  let assistant := given "assistant_content" "assistant_response"
  let context := params.getD "turn_context" (.obj [])
  if !env.path.rt.truthy user && env.path.rt.truthy context then
    match context with
    | .obj members =>
      .ok ((PyDict.find "user_message" members).getD (.str ""),
        (PyDict.find "assistant_response" members).getD (.str ""))
    | _ => .error ⟨.attributeError, "object has no attribute 'get'"⟩
  else .ok (user, assistant)

/-- The line that is recorded where no line qualified, if there is any text. -/
def fallbackLine (user assistant : Json) : Option TurnLine :=
  let combined := PyString.strip (env.path.rt.pyStr user ++ "\n" ++ env.path.rt.pyStr assistant)
  let firstLine := (((strippedLines combined).filter fun line => decide (line ≠ "")).head?).getD
    (String.ofList (combined.toList.take 80))
  let byUser := env.path.rt.truthy user && decide (PyString.strip (env.path.rt.pyStr user) ≠ "")
  if combined = "" then none
  else if byUser then some ⟨firstLine, 85 / 100, "user_explicit"⟩
  else some ⟨firstLine, 60 / 100, "agent_inference"⟩

/-- `_handle_sync_turn` with the number of extracted facts; a request that raises keeps what it has
recorded. -/
def handleSyncTurn (clock : ℕ → WriteTimes) (st : TurnState ρ) (params : PyDict String Json) :
    TurnState ρ × Except PyError ℕ :=
  let session := params.getD "session_id" (.str HotBuffer.defaultSession)
  let extracted (st' : TurnState ρ) : ℕ := st'.recorded.length - st.recorded.length
  match contents env params with
  | .error err => (st, .error err)
  | .ok (user, assistant) =>
    match recordSegment env clock session user "user_explicit" (90 / 100) st with
    | (st', .error err) => (st', .error err)
    | (st', .ok ()) =>
      match recordSegment env clock session assistant "agent_inference" (60 / 100) st' with
      | (st', .error err) => (st', .error err)
      | (st', .ok ()) =>
        if extracted st' = 0 then
          match fallbackLine env user assistant with
          | none => (st', .ok 0)
          | some line =>
            match recordTurnFact env clock session st' line with
            | (st', .ok ()) => (st', .ok (extracted st'))
            | (st', .error err) => (st', .error err)
        else (st', .ok (extracted st'))

def runTurns (clock : ℕ → WriteTimes) (st : TurnState ρ) (requests : List (PyDict String Json)) :
    TurnState ρ :=
  requests.foldl (fun st params => (handleSyncTurn env clock st params).1) st

end SyncTurn

end AtlasMemory
