import AtlasMemory.Cognitive.WriteOutcome
import AtlasMemory.Server.MemoryController

/-!
# The requests that write a record

The model of the handlers of `MemoryRpcControllerMixin` that set a record, commit an observation,
take the feedback of a task, and verify the audit log, over a write path.  All three that write go
through `_persist_state_variable`, which raises the confidence of an existing record when a task has
succeeded, and notes what was persisted in the hot buffer.

A reason that is no text is taken as its text; the record of a vector is given by the environment.
-/

namespace AtlasMemory

/-- `MAX_KEY_LENGTH`. -/
def maxKeyLength : ℕ := 1024

/-- `MAX_VALUE_LENGTH`. -/
def maxValueLength : ℕ := 524288

/-- `MAX_SESSION_ID_LENGTH`. -/
def maxSessionIdLength : ℕ := 256

/-- What the controller uses. -/
structure ControllerEnv (ρ : Type) where
  path : WriteEnv ρ
  vectors : VectorBackend (List (VectorPoint ρ))
  /-- The record of the vector of a key, a text and a confidence. -/
  vectorRecord : String → String → ℚ → ρ

/-- The readings of the clock in one request. -/
structure RequestTimes where
  write : WriteTimes
  appended : ℚ

/-- The state variable that a handler persists. -/
structure StateVariable where
  key : String
  value : Json
  sessionId : String
  confidence : ℚ
  metadata : PyDict String Json
  sourceType : Option Json
  reason : String
  taskSuccess : Bool := false

/-- The result of `_persist_state_variable`: the write has raised, or has a response. -/
inductive PersistReply
  | failed (error : String)
  | response (r : WriteResponse)

namespace PersistReply

/-- `status`. -/
def status : PersistReply → String
  | .failed _ => "error"
  | .response r => r.status

/-- `persisted`. -/
def persisted : PersistReply → Bool
  | .failed _ => false
  | .response r => r.persisted

end PersistReply

/-- A dictionary with an item if there is a value for it. -/
def setIf (d : PyDict String Json) (name : String) : Option Json → PyDict String Json
  | some v => d.set name v
  | none => d

lemma get?_setIf_of_ne (d : PyDict String Json) {name name' : String} (v : Option Json)
    (h : name ≠ name') : (setIf d name v).get? name' = d.get? name' := by
  cases v with
  | none => rfl
  | some v => exact PyDict.get?_set_of_ne d v h

namespace MemoryController

variable {ρ : Type} (env : ControllerEnv ρ)

/-! ## Parameters -/

/-- `a or b or …`: the first operand that is true, else the last. -/
def firstOf (rt : Runtime) : List (Option Json) → Option Json
  | [] => none
  | [v] => v
  | v :: vs => if (v.map rt.truthy).getD false then v else firstOf rt vs

/-- `bool(v)` of an item that may be missing. -/
def isTruthy (rt : Runtime) (v : Option Json) : Bool := (v.map rt.truthy).getD false

/-- `str(v)` of an item that may be missing. -/
def textOr (rt : Runtime) (default : String) (v : Option Json) : String :=
  (v.map rt.pyStr).getD default

/-- `v == text`. -/
def isText (text : String) : Option Json → Bool
  | some (.str t) => decide (t = text)
  | _ => false

/-- `clamp_conf` of an item, `1.0` if it is missing or no number. -/
def clampConf (rt : Runtime) (v : Option Json) : ℚ :=
  PyFloat.clampUnit (v.bind rt.floatOfJson)

/-- `normalize_stored_text` of a text without surrogates. -/
def normalizeText (text : String) : String :=
  PyText.toText (Textnorm.normalizeStoredText (PyText.ofString text))

/-- The text of a value, `""` for `None`. -/
def valueText (rt : Runtime) : Option Json → String
  | none | some .null => ""
  | some v => rt.pyStr v

/-- `_validate_and_sanitize_kv_params`: the key, the text of the value and the session. -/
def validateAndSanitize (rt : Runtime) (key val session : Option Json) :
    Except PyError (String × String × String) :=
  let keyText := PyString.strip (textOr rt "None" key)
  let valText := valueText rt val
  let sessionText := PyString.strip
    (if isTruthy rt session then textOr rt "None" session else HotBuffer.defaultSession)
  if !isTruthy rt key || decide (keyText = "") then
    .error ⟨.valueError, "Key or subject is required and cannot be empty"⟩
  else if PyString.hasChar (Char.ofNat 0) keyText then
    .error ⟨.valueError, "Key contains forbidden null bytes"⟩
  else if PyString.hasInfix "../" keyText || PyString.hasInfix "..\\" keyText then
    .error ⟨.valueError, "Key contains forbidden path traversal patterns"⟩
  else if maxKeyLength < keyText.length then
    .error ⟨.valueError,
      s!"Key length ({keyText.length}) exceeds maximum allowed ({maxKeyLength})"⟩
  else if maxValueLength < valText.length then
    .error ⟨.valueError,
      s!"Value length ({valText.length}) exceeds maximum allowed ({maxValueLength})"⟩
  else if maxSessionIdLength < sessionText.length then
    .error ⟨.valueError, s!"Session ID length ({sessionText.length}) exceeds maximum allowed " ++
      s!"({maxSessionIdLength})"⟩
  else .ok (normalizeText keyText, normalizeText valText, sessionText)

/-- The parameters tell of a success: `task_success`, `success` or `outcome == "success"`. -/
def tellsSuccess (rt : Runtime) (params : PyDict String Json) : Bool :=
  isTruthy rt (params.get? "task_success") || isTruthy rt (params.get? "success") ||
    isText "success" (params.get? "outcome")

/-! ## Persisting -/

/-- The state variable with the credit for a task that has succeeded. -/
def credited (rt : Runtime) (t : StateTable) (v : StateVariable) : StateVariable :=
  match t.lookup v.key with
  | some (_, row) =>
    if v.taskSuccess then
      let confidence := PyFloat.clampUnit (some (.finite (row.confidence + 5 / 100)))
      { v with
        confidence := confidence
        reason := "task_feedback:success"
        metadata := (v.metadata.set "confidence" (rt.jsonFloat (.finite confidence))).set
          "task_feedback" (.str "success") }
    else v
  | none => v

/-- The text of a value: a string as it is, anything else as `json.dumps(value,
ensure_ascii=False, default=str)`. -/
def vectorText : Json → String
  | .str text => text
  | v => env.path.rawText v

/-- The write of a state variable; a text of blanks has no vector. -/
def requestOf (v : StateVariable) : WriteRequest ρ where
  key := .str v.key
  value := v.value
  confidence := .finite v.confidence
  metadata := some v.metadata
  sourceType := (v.sourceType.filter env.path.rt.truthy).map env.path.rt.pyStr
  reason := v.reason
  sessionId := some v.sessionId
  vectorRecord :=
    if PyString.strip (vectorText env v.value) = "" then none
    else some (env.vectorRecord v.key (vectorText env v.value) v.confidence)

/-- The entry of the hot buffer for a state variable; `none` when its source type is no text. -/
def bufferEntry (v : StateVariable) (now : ℚ) : Option HotBufferEntry :=
  let metadata :=
    if v.sessionId = "" ∨ v.metadata.contains "session_id" = true then v.metadata
    else v.metadata.set "session_id" (.str v.sessionId)
  match (metadata.get? "source_type").getD (.str "user_explicit") with
  | .str sourceType =>
    some { key := v.key, value := .str (env.path.rt.pyStr v.value), confidence := v.confidence,
           sourceType := sourceType, timestamp := now, metadata := metadata }
  | _ => none

/-- `_persist_state_variable`. -/
def persistStateVariable (s : Stores ρ) (v : StateVariable) (times : RequestTimes) :
    Stores ρ × Except PyError PersistReply :=
  let v := credited env.path.rt s.kv.db.stateVariables v
  match WritePath.write env.path s (requestOf env v) times.write with
  | (s', .error err) => (s', .ok (.failed err.message))
  | (s', .ok r) =>
    if (r.status = "ok" ∨ r.status = "success") ∧ r.persisted = true then
      match bufferEntry env v times.appended with
      | some entry => ({ s' with hot := s'.hot.append entry }, .ok (.response r))
      | none => (s', .error ⟨.valueError, "1 validation error for HotBufferEntry"⟩)
    else (s', .ok (.response r))

/-! ## Handlers -/

/-- The metadata of a set request: its own, with items of the parameters that it does not have. -/
def setMetadata (params : PyDict String Json) (given : PyDict String Json) : PyDict String Json :=
  ["predicate", "relation", "target", "object", "subject"].foldl (fun d name =>
    match params.get? name with
    | some v => if d.contains name then d else d.set name v
    | none => d) given

/-- `_handle_set`. -/
def handleSet (s : Stores ρ) (params : PyDict String Json) (times : RequestTimes) :
    Stores ρ × Except PyError PersistReply :=
  let rt := env.path.rt
  let item (name : String) := params.get? name
  let rawVal := firstOf rt [item "value", item "object", item "val", item "target", some (.str "")]
  match validateAndSanitize rt (firstOf rt [item "key", item "subject"]) rawVal
      (item "session_id") with
  | .error err => (s, .error err)
  | .ok (key, val, session) =>
    let confidence := clampConf rt (item "confidence")
    let given : Except PyError (PyDict String Json) :=
      match (item "metadata").filter rt.truthy with
      | some (.obj members) => .ok (PyDict.ofEntries members)
      | some _ => .error ⟨.valueError, "cannot convert dictionary update sequence"⟩
      | none => .ok ∅
    match given with
    | .error err => (s, .error err)
    | .ok given =>
      let sourceType := (item "source_type").filter rt.truthy
      let metadata := ((setIf (setMetadata params given) "source_type"
        (sourceType.map fun v => .str (rt.pyStr v))).set "confidence"
          (rt.jsonFloat (.finite confidence))).set "session_id" (.str session)
      persistStateVariable env s
        { key := key, value := .str val, sessionId := session, confidence := confidence
          metadata := metadata, sourceType := sourceType
          reason := textOr rt "rpc_set" (item "reason"), taskSuccess := tellsSuccess rt params }
        times

/-- The reply to an observation that is committed, or the failure. -/
inductive CommitReply
  | failed (error : String)
  | committed (subject key : String) (confidence : ℚ) (isBeliefRevision : Bool)

def observationMetadata (rt : Runtime) (params : PyDict String Json)
    (subject predicate session : String) (confidence : ℚ) : PyDict String Json :=
  let source := (params.get? "source").getD (.str "user_explicit")
  let taskSuccess : Option Json := match params.get? "task_success" with
    | none | some .null => none
    | some v => some (.bool (rt.truthy v))
  setIf (PyDict.ofEntries [("confidence", rt.jsonFloat (.finite confidence)), ("source", source),
    ("source_type", source), ("session_id", .str session), ("predicate", .str predicate),
    ("subject", .str subject)]) "task_success" taskSuccess

/-- `_handle_commit_observation`: every response of the write is a success but an error. -/
def handleCommitObservation (s : Stores ρ) (params : PyDict String Json) (times : RequestTimes) :
    Stores ρ × Except PyError CommitReply :=
  let rt := env.path.rt
  let item (name : String) := params.get? name
  let given (name : String) := (item name).filter rt.truthy
  let subject := PyString.strip (textOr rt "" (given "subject"))
  if subject = "" then (s, .ok (.failed "empty_subject"))
  else
    let named := PyString.strip (textOr rt "observation" (given "predicate"))
    let predicate := if named = "" then "observation" else named
    let rawObj := textOr rt "" (given "object")
    match validateAndSanitize rt (some (.str (subject ++ ":" ++ predicate)))
        (some (.str rawObj)) (item "session_id") with
    | .error err => (s, .error err)
    | .ok (key, obj, session) =>
      let confidence := clampConf rt (item "confidence")
      match persistStateVariable env s
          { key := key, value := .str obj, sessionId := session, confidence := confidence
            metadata := observationMetadata rt params subject predicate session confidence
            sourceType := some ((item "source").getD (.str "user_explicit"))
            reason := "commit_observation", taskSuccess := tellsSuccess rt params } times with
      | (s', .error err) => (s', .error err)
      | (s', .ok (.failed error)) => (s', .ok (.failed error))
      | (s', .ok (.response r)) =>
        if r.status = "error" then (s', .ok (.failed ""))
        else (s', .ok (.committed subject key confidence r.isBeliefRevision))

/-- The reply to the feedback of a task, or the failure. -/
inductive FeedbackReply
  | failed (error : String)
  | updated (key : String) (previous confidence : ℚ) (taskSuccess : Bool)

/-- `task_success` of a feedback request: a success unless the parameters tell otherwise. -/
def feedbackSuccess (rt : Runtime) (params : PyDict String Json) : Bool :=
  let told := tellsSuccess rt params || (params.get? "task_success").isNone
  let denied (name : String) := (params.get? name).any fun v => !rt.truthy v
  if denied "task_success" then false
  else if denied "success" then false
  else if isTruthy rt (params.get? "outcome") && !isText "success" (params.get? "outcome") then false
  else told

def feedbackConfidence (rt : Runtime) (params : PyDict String Json) (existing : ℚ) : ℚ :=
  let delta := ((params.get? "delta").bind rt.floatOfJson).getD (.finite (5 / 100))
  PyFloat.clampUnit (some (PyFloat.add (.finite existing)
    (if feedbackSuccess rt params then delta else PyFloat.mul (.finite (-1)) delta)))

/-- The state variable that a feedback request persists. -/
def feedbackVariable (rt : Runtime) (params : PyDict String Json) (key stored : String)
    (row : StateRow) : StateVariable :=
  let success := feedbackSuccess rt params
  let confidence := feedbackConfidence rt params row.confidence
  let metadata := (((row.toStateDict rt stored).metadata.set "confidence"
    (rt.jsonFloat (.finite confidence))).set "task_feedback"
      (.str (if success then "success" else "failure")))
  { key := key
    value := row.decodedValue
    sessionId := if isTruthy rt (params.get? "session_id") then
        textOr rt "" (params.get? "session_id") else HotBuffer.defaultSession
    confidence := confidence
    metadata := metadata
    sourceType := some ((metadata.get? "source_type").getD (.str "user_explicit"))
    reason := if success then "task_feedback:success" else "task_feedback:failure" }

/-- `_handle_task_feedback`: what becomes of the write is not looked at. -/
def handleTaskFeedback (s : Stores ρ) (params : PyDict String Json) (times : RequestTimes) :
    Stores ρ × Except PyError FeedbackReply :=
  let rt := env.path.rt
  let item (name : String) := (params.get? name).filter rt.truthy
  let key := PyString.strip (textOr rt "" ((item "key").or (item "subject")))
  if key = "" then (s, .ok (.failed "empty_key"))
  else
    match s.kv.db.stateVariables.lookup key with
    | none => (s, .ok (.failed "key_not_found"))
    | some (stored, row) =>
      let v := feedbackVariable rt params key stored row
      match persistStateVariable env s v times with
      | (s', .error err) => (s', .error err)
      | (s', .ok _) =>
        (s', .ok (.updated key row.confidence v.confidence (feedbackSuccess rt params)))

/-- The reply to a verification of the audit log. -/
structure VerifyReply where
  status : String
  valid : Bool
  checkedEntries : ℕ
  tampered : Bool
  message : Option String := none
  tamperedSeq : Option ℤ := none

/-- `_handle_verify_audit_log`. -/
def handleVerifyAuditLog (s : Stores ρ) (params : PyDict String Json) : Stores ρ × VerifyReply :=
  let rt := env.path.rt
  let deep := rt.truthy ((params.get? "deep").getD (.bool true))
  let healed :=
    if isTruthy rt (params.get? "heal") then s.kv.call rt .healAuditLogChain else s.kv
  let verdict := healed.db.verifyAuditLog rt deep
  let count := healed.db.auditLog.rows.length
  ({ s with kv := healed.call rt (.verifyAuditLog deep) },
    if count = 0 then
      { status := "empty_chain", valid := false, checkedEntries := 0, tampered := false
        message := some "Audit log chain is empty; no cryptographic entries verified." }
    else
      { status := "ok", valid := verdict.isValid, checkedEntries := count
        tampered := !verdict.isValid
        tamperedSeq :=
          if verdict.isValid || decide (verdict.brokenSeq = 0) then none
          else some verdict.brokenSeq })

/-! ## What is persisted -/

variable {env} {s s' : Stores ρ} {v : StateVariable} {times : RequestTimes}

lemma credited_value (rt : Runtime) (t : StateTable) (v : StateVariable) :
    (credited rt t v).value = v.value ∧ (credited rt t v).key = v.key := by
  unfold credited
  split
  · split
    · exact ⟨rfl, rfl⟩
    · exact ⟨rfl, rfl⟩
  · exact ⟨rfl, rfl⟩

/-- A text as the key is stripped, and the value and the confidence are taken as they are. -/
lemma input_of_textKey {path : WriteEnv ρ} {req : WriteRequest ρ} {key : String}
    {input : NormalizedInput} (hkey : req.key = .str key)
    (h : WritePath.normalizeWriteInput path req = .ok input) :
    input.value = req.value ∧ input.confidence = req.confidence ∧
      input.key = PyString.strip (if path.rt.truthy (.str key) then path.rt.pyStr (.str key)
        else "") := by
  unfold WritePath.normalizeWriteInput at h
  rw [hkey] at h
  dsimp only at h
  generalize PyString.strip (if path.rt.truthy (.str key) then path.rt.pyStr (.str key)
    else "") = text at h ⊢
  by_cases htext : text = ""
  · rw [if_pos htext] at h
    cases h
  · rw [if_neg htext] at h
    rw [← Except.ok.inj h]
    exact ⟨rfl, rfl, rfl⟩

/-- A response to a state variable is the response of its write. -/
lemma write_of_persistStateVariable {r : WriteResponse}
    (h : persistStateVariable env s v times = (s', .ok (.response r))) :
    ∃ after, WritePath.write env.path s
        (requestOf env (credited env.path.rt s.kv.db.stateVariables v)) times.write =
          (after, .ok r) ∧ s'.kv = after.kv := by
  unfold persistStateVariable at h
  dsimp only at h
  cases hwrite : WritePath.write env.path s
      (requestOf env (credited env.path.rt s.kv.db.stateVariables v)) times.write with
  | mk after result =>
      rw [hwrite] at h
      cases result with
      | error err => cases (Prod.mk.inj h).2
      | ok resp =>
          have hstores : s'.kv = after.kv ∧ resp = r := by
            dsimp only at h
            split at h
            · split at h
              · obtain ⟨rfl, hresp⟩ := Prod.mk.inj h
                exact ⟨rfl, PersistReply.response.inj (Except.ok.inj hresp)⟩
              · cases (Prod.mk.inj h).2
            · obtain ⟨rfl, hresp⟩ := Prod.mk.inj h
              exact ⟨rfl, PersistReply.response.inj (Except.ok.inj hresp)⟩
          obtain ⟨hkv, rfl⟩ := hstores
          exact ⟨after, rfl, hkv⟩

/-- The key of a response is the stripped text of the key. -/
lemma key_of_persistStateVariable {r : WriteResponse}
    (h : persistStateVariable env s v times = (s', .ok (.response r))) :
    r.key = PyString.strip (if env.path.rt.truthy (.str v.key) then env.path.rt.pyStr (.str v.key)
      else "") := by
  obtain ⟨after, hwrite, -⟩ := write_of_persistStateVariable h
  obtain ⟨-, hsame⟩ := credited_value env.path.rt s.kv.db.stateVariables v
  obtain ⟨input, hinput, hkey, -⟩ := WritePath.reports_of_write (congrArg Prod.snd hwrite)
  obtain ⟨-, -, htext⟩ := input_of_textKey rfl hinput
  rw [hkey, htext, hsame]

/-- A response that reports a persisted state variable comes with its record. -/
lemma hasRecord_of_persistStateVariable {r : WriteResponse}
    (h : persistStateVariable env s v times = (s', .ok (.response r))) (hr : r.persisted = true) :
    WritePath.HasRecord s'.kv.db.stateVariables r.key v.value (PyFloat.clampUnit
      (some (.finite (credited env.path.rt s.kv.db.stateVariables v).confidence))) := by
  obtain ⟨after, hwrite, hkv⟩ := write_of_persistStateVariable h
  obtain ⟨hvalue, -⟩ := credited_value env.path.rt s.kv.db.stateVariables v
  obtain ⟨input, hinput, hkey, houtcome⟩ := WritePath.reports_of_write (congrArg Prod.snd hwrite)
  obtain ⟨hv, hc, -⟩ := input_of_textKey rfl hinput
  rcases houtcome with ⟨-, hnot, -⟩ | ⟨-, -, hrecord⟩
  · rw [hr] at hnot
    cases hnot
  · rw [hwrite, hv, hc, ← hkey] at hrecord
    rw [hkv, ← hvalue]
    exact hrecord

/-- What the parameters become: the normal form of the stripped key, which is not blank, and that of
the text of the value. -/
lemma parts_of_validateAndSanitize {rt : Runtime} {key val session : Option Json}
    {keyText valText sessionText : String}
    (h : validateAndSanitize rt key val session = .ok (keyText, valText, sessionText)) :
    keyText = normalizeText (PyString.strip (textOr rt "None" key)) ∧
      valText = normalizeText (valueText rt val) ∧
      PyString.strip (textOr rt "None" key) ≠ "" := by
  unfold validateAndSanitize at h
  dsimp only at h
  split_ifs at h with hempty
  all_goals
    obtain ⟨hkey, hrest⟩ := Prod.mk.inj (Except.ok.inj h)
    refine ⟨hkey.symm, (Prod.mk.inj hrest).1.symm, fun hblank => hempty ?_⟩
    rw [hblank]
    simp

/-- A response to a set request that reports a persisted record comes with the normal form of the
value. -/
lemma record_of_handleSet {params : PyDict String Json} {r : WriteResponse}
    (h : handleSet env s params times = (s', .ok (.response r))) (hr : r.persisted = true) :
    ∃ row, s'.kv.db.stateVariables.get? r.key = some row ∧
      row.value = (Json.str (normalizeText (valueText env.path.rt (firstOf env.path.rt
        [params.get? "value", params.get? "object", params.get? "val", params.get? "target",
          some (.str "")])))).dumps := by
  unfold handleSet at h
  dsimp only at h
  split at h
  · cases (Prod.mk.inj h).2
  · rename_i key val session hparams
    split at h
    · cases (Prod.mk.inj h).2
    · obtain ⟨row, hrow, hvalue, -⟩ := hasRecord_of_persistStateVariable h hr
      obtain ⟨-, hval, -⟩ := parts_of_validateAndSanitize hparams
      exact ⟨row, hrow, hval ▸ hvalue⟩

end MemoryController

end AtlasMemory
