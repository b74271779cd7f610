import AtlasMemory.Cognitive.Lexicon
import AtlasMemory.Foundations.PyDict
import AtlasMemory.Runtime

/-!
# The hot buffer

The model of `HotBufferPolicy`: a ring buffer of the entries written last, with a time to live, a
filter for conversational noise, and session isolation.  A key has at most one entry, since every
writer purges the key first; a full buffer drops its oldest entry.

The set `superseded_history` is read by the session tracker only, which keeps it beside the buffer.
The pattern that finds a session identifier is matched case-insensitively on its letters `a` to `f`,
which are the only letters that occur in one.
-/

namespace AtlasMemory

/-- `HotBufferEntry`. -/
structure HotBufferEntry where
  key : String
  value : Json
  confidence : ℚ
  sourceType : String := "user_explicit"
  timestamp : ℚ
  isSuperseded : Bool := false
  metadata : PyDict String Json

/-- `HotBufferPolicy`, the oldest entry first. -/
structure HotBuffer where
  maxlen : ℕ := 25
  ttlSeconds : ℚ := 900
  buffer : List HotBufferEntry

namespace HotBuffer

variable (rt : Runtime) (lex : Lexicon)

/-! ## Filters -/

/-- `noise_indicators`. -/
def noiseIndicators : List String :=
  ["[user]", "[assistant]", "mission order", "### session", "traceback (most recent call last)",
    "conversation___user", "chciałbym, abyś", "test 1: test", "test aktywnego użycia"]

/-- `is_conversational_churn`. -/
def isConversationalChurn (key content : String) : Bool :=
  let sLower := lex.lower key
  let cLower := lex.lower content
  (noiseIndicators.any fun ind => PyString.hasInfix ind sLower || PyString.hasInfix ind cLower) ||
    PyString.startsWithAny sLower
      ["fact:conversation___user", "fact:conversation", "conversation___user", "conversation:"]

/-- `PERSISTENT_KEY_PREFIXES`. -/
def persistentKeyPrefixes : List String :=
  ["fact:", "rule:", "preference:", "constraint:", "config:", "system:", "user:", "hermes:",
    "prompt-", "mnemosyne:"]

/-- `HERMES_GLOBAL_SESSION`. -/
def globalSession : String := "global"

/-- `HERMES_DEFAULT_SESSION`. -/
def defaultSession : String := "hermes_default"

def isHexChar (c : Char) : Bool :=
  isDigit c || ('a' ≤ c && c ≤ 'f') || ('A' ≤ c && c ≤ 'F')

/-- The group of `^session_(\d{8}_\d{6}_[a-f0-9]+)`, for a text after `session_`. -/
def sessionStamp (cs : List Char) : Option (List Char) :=
  let date := cs.takeWhile isDigit
  let time := (cs.drop 9).takeWhile isDigit
  let tail := (cs.drop 16).takeWhile isHexChar
  if date.length = 8 ∧ cs[8]? = some '_' ∧ time.length = 6 ∧ cs[15]? = some '_' ∧ tail ≠ [] then
    some (cs.take 16 ++ tail)
  else none

/-- The session that a key names by its beginning, if it begins as a session. -/
def sessionOfKey (key : String) : Option String :=
  let kLower := lex.lower key
  if PyString.startsWith kLower "session:" then
    match PyString.split ':' key with
    | first :: second :: _ => if lex.lower first = "session" then some second else none
    | _ => none
  else if PyString.startsWith kLower "session_" then
    let body := key.toList.drop 8
    if PyString.hasChar ':' key then some ((PyString.split ':' (String.ofList body)).headD "")
    else
      match sessionStamp body with
      | some stamp => some (String.ofList stamp)
      | none =>
        match PyString.split '_' key with
        | first :: second :: _ :: _ =>
          if lex.lower first = "session" then some second else some (String.ofList body)
        | _ => some (String.ofList body)
  else none

/-- `extract_effective_session`. -/
def extractEffectiveSession (key : String) (metadata : PyDict String Json) : Option String :=
  let kLower := lex.lower key
  match sessionOfKey lex key with
  | some session => some session
  | none =>
    if PyString.startsWithAny kLower persistentKeyPrefixes then some globalSession
    else
      let item (name : String) := (metadata.get? name).filter rt.truthy
      ((item "session_id").or (item "source_session_id")).map fun session =>
        let text := rt.pyStr session
        if text = "hermes_persistent" ∨ text = globalSession then globalSession else text

/-- `s.replace("session_", "")`. -/
def dropSessionMarks : ℕ → List Char → List Char
  | _, [] => []
  | skip + 1, _ :: cs => dropSessionMarks skip cs
  | 0, c :: cs =>
    if "session_".toList.isPrefixOf (c :: cs) then dropSessionMarks 7 cs
    else c :: dropSessionMarks 0 cs

/-- `str(session).replace("session_", "").strip()`. -/
def cleanSession (session : String) : String :=
  PyString.strip (String.ofList (dropSessionMarks 0 session.toList))

/-- `is_session_accessible`. -/
def isSessionAccessible (effective requested : Option String) : Bool :=
  match effective with
  | none => true
  | some session =>
    if session = globalSession then true
    else
      let cleanReq := (requested.map cleanSession).getD ""
      let cleanEff := cleanSession session
      if cleanEff = defaultSession ∨ cleanEff = "default" ∨ cleanEff = "" then
        decide (cleanReq = defaultSession ∨ cleanReq = "default" ∨ cleanReq = "")
      else decide (cleanReq ≠ "" ∧ cleanReq = cleanEff)

/-! ## The buffer -/

/-- The entry is live, fresh enough and visible to the session. -/
def isActive (session : Option String) (cutoff : ℚ) (e : HotBufferEntry) : Bool :=
  decide (cutoff ≤ e.timestamp) &&
    !(e.isSuperseded || rt.truthy ((e.metadata.get? "is_superseded").getD .null)) &&
    !isConversationalChurn lex e.key (rt.pyStr e.value) &&
    (session.getD "" = "" ||
      isSessionAccessible (extractEffectiveSession rt lex e.key e.metadata) session)

def dedupLast : List HotBufferEntry → List HotBufferEntry
  | [] => []
  | e :: es => if es.any fun e' => decide (e'.key = e.key) then dedupLast es else e :: dedupLast es

/-- `get_active`. -/
def getActive (b : HotBuffer) (session : Option String) (now : ℚ) : List HotBufferEntry :=
  dedupLast (b.buffer.filter (isActive rt lex session (now - b.ttlSeconds)))

/-- `purge`. -/
def purge (b : HotBuffer) (key : String) : HotBuffer :=
  { b with buffer := b.buffer.filter fun e => decide (e.key ≠ key) }

def push (b : HotBuffer) (e : HotBufferEntry) : HotBuffer :=
  let grown := b.buffer ++ [e]
  { b with buffer := grown.drop (grown.length - b.maxlen) }

/-- `append` of an entry. -/
def append (b : HotBuffer) (e : HotBufferEntry) : HotBuffer := (b.purge e.key).push e

/-- `update`. -/
def update (b : HotBuffer) (key : String) (value : Json) (confidence : ℚ)
    (metadata : PyDict String Json) (sourceType : String) (now : ℚ) : HotBuffer :=
  (b.purge key).push
    { key := key
      value := value
      confidence := confidence
      sourceType := sourceType
      timestamp := now
      isSuperseded := rt.truthy ((metadata.get? "is_superseded").getD .null)
      metadata := metadata }

end HotBuffer

end AtlasMemory
