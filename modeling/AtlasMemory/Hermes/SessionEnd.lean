import AtlasMemory.Hermes.DaemonBootstrap
import AtlasMemory.L1Working.TrajectoryBuffer

/-!
# The end of a session in the provider

What `on_session_end` delivers to the daemon, and what it does itself when a delivery fails: the
steps of the session go to the daemon or to the trajectory buffer of the engine, and the end of the
session is told to the daemon or handed to the session hook of the engine.

A `CallBehaviour` is all that can happen to one call of `call_uds_with_retry`, the daemon's own
side included: whether an attempt was executed, and with which result, is not the same as whether
its reply arrived.  `outcome_of_world` says that the call over the socket has no other outcomes.
-/

namespace AtlasMemory

/-- What happens to one attempt of a call. -/
inductive Attempt
  /-- The reply arrives: the daemon has executed the request with this result. -/
  | replied (result : Json)
  /-- The attempt ends in an `AtlasTransportError`; the daemon may have executed it. -/
  | failed (executed : Option Json)
  /-- Another exception, before the request is sent. -/
  | raised

/-- What happens to one call of `call_uds_with_retry`. -/
structure CallBehaviour where
  /-- `Path(sock).exists()`. -/
  socketExists : Bool
  /-- The bootstrap for a missing socket; `none` when it raises. -/
  bootstrap : Option Bool
  first : Attempt
  /-- The bootstrap before the retry; `none` when it raises. -/
  respawn : Option Bool
  second : Attempt

namespace CallBehaviour

/-- The value that the caller gets for a result: `None` for a null. -/
def valueOf : Json → Option Json
  | .null => none
  | v => some v

def attempts (b : CallBehaviour) : List Attempt :=
  if b.socketExists || b.bootstrap = some true then
    match b.first, b.respawn with
    | .failed executed, some true => [.failed executed, b.second]
    | first, _ => [first]
  else []

/-- The results with which the daemon has executed the request. -/
def executions (b : CallBehaviour) : List Json :=
  b.attempts.filterMap fun
    | .replied result => some result
    | .failed executed => executed
    | .raised => none

def retry (b : CallBehaviour) : Except Unit (Option Json) :=
  match b.second with
  | .replied result => .ok (valueOf result)
  | .failed _ => .ok none
  | .raised => .error ()

def callTwice (b : CallBehaviour) : Except Unit (Option Json) :=
  match b.first with
  | .replied result => .ok (valueOf result)
  | .raised => .error ()
  | .failed _ =>
    match b.respawn with
    | some true => b.retry
    | some false => .ok none
    | none => .error ()

/-- `call_uds_with_retry`. -/
def callUdsWithRetry (b : CallBehaviour) : Except Unit (Option Json) :=
  if b.socketExists then b.callTwice
  else
    match b.bootstrap with
    | some true => b.callTwice
    | some false => .ok none
    | none => .error ()

/-- The call ends in an exception: a bootstrap raises, or an attempt does so before it sends
anything. -/
def Raises (b : CallBehaviour) : Prop :=
  b.socketExists = false ∧ b.bootstrap = none ∨
    (b.socketExists = true ∨ b.bootstrap = some true) ∧
      (b.first = .raised ∨ ∃ executed, b.first = .failed executed ∧
        (b.respawn = none ∨ b.respawn = some true ∧ b.second = .raised))

/-- A reply with the value arrives. -/
def Answers (b : CallBehaviour) (v : Json) : Prop :=
  (b.socketExists = true ∨ b.bootstrap = some true) ∧ v ≠ .null ∧
    (b.first = .replied v ∨ ∃ executed, b.first = .failed executed ∧
      b.respawn = some true ∧ b.second = .replied v)

variable {b : CallBehaviour}

lemma valueOf_eq_some {result v : Json} : valueOf result = some v ↔ result = v ∧ v ≠ .null := by
  cases result <;> simp only [valueOf, Option.some.injEq, reduceCtorEq, false_iff, not_and] <;>
    first
    | (rintro rfl h; exact h rfl)
    | exact ⟨fun h => ⟨h, by rw [← h]; nofun⟩, fun h => h.1⟩

lemma callTwice_raises : b.callTwice = .error () ↔ b.first = .raised ∨ ∃ executed,
    b.first = .failed executed ∧
      (b.respawn = none ∨ b.respawn = some true ∧ b.second = .raised) := by
  unfold callTwice retry
  cases b.first with
  | replied result => simp
  | raised => simp
  | failed executed =>
      rcases b.respawn with _ | _ | _
      · simp
      · simp
      · cases b.second <;> simp

lemma callTwice_answers {v : Json} : b.callTwice = .ok (some v) ↔ v ≠ .null ∧
    (b.first = .replied v ∨ ∃ executed, b.first = .failed executed ∧
      b.respawn = some true ∧ b.second = .replied v) := by
  unfold callTwice retry
  cases b.first with
  | replied result =>
      simp only [Except.ok.injEq, valueOf_eq_some, Attempt.replied.injEq, reduceCtorEq, false_and,
        exists_false, or_false]
      exact and_comm
  | raised => simp
  | failed executed =>
      rcases b.respawn with _ | _ | _
      · simp
      · simp
      · cases b.second with
        | replied result =>
            simp only [Except.ok.injEq, valueOf_eq_some, Attempt.replied.injEq, reduceCtorEq,
              false_or, Attempt.failed.injEq, true_and, exists_eq_left']
            exact and_comm
        | failed executed' => simp
        | raised => simp

/-- The call raises for these behaviours and no others. -/
lemma callUdsWithRetry_raises : b.callUdsWithRetry = .error () ↔ b.Raises := by
  unfold callUdsWithRetry Raises
  cases b.socketExists with
  | true => simp [callTwice_raises]
  | false =>
      rcases b.bootstrap with _ | _ | _
      · simp
      · simp
      · simp [callTwice_raises]

/-- The call returns a value for these behaviours and no others. -/
lemma callUdsWithRetry_answers {v : Json} :
    b.callUdsWithRetry = .ok (some v) ↔ b.Answers v := by
  unfold callUdsWithRetry Answers
  cases b.socketExists with
  | true => simp [callTwice_answers]
  | false =>
      rcases b.bootstrap with _ | _ | _
      · simp
      · simp
      · simp [callTwice_answers]

/-- What a caller sees of the call over the socket. -/
def seen : Except ClientError (Option Json) → Except Unit (Option Json)
  | .ok result => .ok (result.bind valueOf)
  | .error _ => .error ()

def attemptOf : Except ClientError Json → Attempt
  | .ok result => .replied result
  | .error (.transport _ _) => .failed none
  | .error _ => .raised

def bootOf : Except ClientError Bool → Option Bool
  | .ok ready => some ready
  | .error _ => none

open UdsClient DaemonBootstrap in
/-- The behaviour of the calls from a socket that is there. -/
def ofTwice (rt : Runtime) (env : Environment) (path : String) (req : RpcRequest) (w : World) :
    CallBehaviour :=
  let first := sendUdsRequestSync rt env path req w
  let respawn := ensureDaemonProcessRunning rt env path first.2
  let second := sendUdsRequestSync rt env path req respawn.2
  ⟨true, none, attemptOf first.1, bootOf respawn.1, attemptOf second.1⟩

open UdsClient DaemonBootstrap in
lemma callTwice_ofTwice (rt : Runtime) (env : Environment) (path : String) (req : RpcRequest)
    (w : World) :
    (ofTwice rt env path req w).callTwice = seen (DaemonBootstrap.callTwice rt env path req w).1 := by
  unfold CallBehaviour.callTwice ofTwice DaemonBootstrap.callTwice
  dsimp only
  rcases sendUdsRequestSync rt env path req w with ⟨first, w₁⟩
  rcases first with (text | ⟨reason, detail⟩ | text) | result
  · rfl
  · dsimp only [attemptOf]
    rcases ensureDaemonProcessRunning rt env path w₁ with ⟨respawn, w₂⟩
    rcases respawn with e | _ | _
    · rfl
    · rfl
    · dsimp only [bootOf]
      unfold retry retryCall
      dsimp only
      rcases sendUdsRequestSync rt env path req w₂ with ⟨second, w₃⟩
      rcases second with (text | ⟨reason, detail⟩ | text) | result <;> rfl
  · rfl
  · rfl

open DaemonBootstrap in
/-- Whatever happens on the socket, a behaviour describes what the caller sees. -/
theorem outcome_of_world (rt : Runtime) (env : Environment) (path : String) (req : RpcRequest)
    (w : World) : ∃ b : CallBehaviour,
      b.callUdsWithRetry = seen (DaemonBootstrap.callUdsWithRetry rt env path req w).1 := by
  unfold DaemonBootstrap.callUdsWithRetry
  cases env.pathExists w.call with
  | true =>
      refine ⟨ofTwice rt env path req w.next, ?_⟩
      rw [if_pos rfl, ← callTwice_ofTwice]
      rfl
  | false =>
      rw [if_neg (by decide)]
      rcases ensureDaemonProcessRunning rt env path w.next with ⟨ready, w₁⟩
      rcases ready with e | _ | _
      · exact ⟨⟨false, none, .raised, none, .raised⟩, rfl⟩
      · exact ⟨⟨false, some false, .raised, none, .raised⟩, rfl⟩
      · refine ⟨{ ofTwice rt env path req w₁ with
          socketExists := false, bootstrap := some true }, ?_⟩
        exact callTwice_ofTwice rt env path req w₁

end CallBehaviour

/-! ## The end of a session -/

/-- A step of `extract_trajectory`. -/
structure ExtractedStep where
  toolName : String
  parameters : List (String × Json)
  success : Bool
  error : Option String

namespace ExtractedStep

def members (sessionId : String) (step : ExtractedStep) : List (String × Json) :=
  [("tool_name", .str step.toolName), ("action", .str step.toolName),
    ("tool", .str step.toolName), ("parameters", .obj step.parameters),
    ("success", .bool step.success), ("error", (step.error.map Json.str).getD .null),
    ("session_id", .str sessionId)]

end ExtractedStep

/-- What `on_session_end` is given: the steps that were extracted, the session, and what happens to
its two calls of the daemon. -/
structure SessionEnd where
  steps : List ExtractedStep
  sessionId : String
  ingest : CallBehaviour
  sessionEnd : CallBehaviour

namespace SessionEnd

variable (rt : Runtime)

/-- `_ingest_real_trajectory`, with the trajectory buffer of the engine. -/
def ingestRealTrajectory (x : SessionEnd) (buffer : TrajectoryBuffer) : TrajectoryBuffer :=
  if x.steps.isEmpty then buffer
  else
    match x.ingest.callUdsWithRetry with
    | .ok (some _) => buffer
    | .ok none | .error () =>
      buffer.recordRealTrajectory rt x.sessionId (x.steps.map (ExtractedStep.members x.sessionId))

/-- Whether `on_session_end` submits the hook of the engine. -/
def hookSubmitted (x : SessionEnd) : Bool :=
  match x.sessionEnd.callUdsWithRetry with
  | .ok _ => false
  | .error () => true

/-- A result of `session/end` that reports no error. -/
def okResult : Json → Bool
  | .obj members =>
    match PyDict.find "status" members with
    | some (.str status) => status = "ok" || status = "noop"
    | _ => false
  | _ => false

/-- A result of `trajectory/ingest` whose count covers `n` steps. -/
def ingested (n : ℕ) : Json → Bool
  | .obj members =>
    ((PyDict.find "ingested" members).bind rt.floatOfJson).any fun count => count.ge (.finite n)
  | _ => false

/-- The buffer has got all the steps. -/
def Recorded (x : SessionEnd) (before after : TrajectoryBuffer) : Prop :=
  after.rows.map StepRow.actionName = before.rows.map StepRow.actionName ++
      x.steps.map (fun step => TrajectoryBuffer.nameOf rt (step.members x.sessionId)) ∧
    after.metadataJsons.length = before.metadataJsons.length + x.steps.length

/-- The session end is not lost: the daemon has executed it with an ok result, or the hook is
submitted. -/
def SessionDelivered (x : SessionEnd) : Prop :=
  (∃ v ∈ x.sessionEnd.executions, okResult v = true) ∨ x.hookSubmitted = true

/-- No step is lost: the count of the daemon covers them, or the buffer has got them. -/
def StepsDelivered (x : SessionEnd) (buffer : TrajectoryBuffer) : Prop :=
  x.steps = [] ∨ (∃ v ∈ x.ingest.executions, ingested rt x.steps.length v = true) ∨
    x.Recorded rt buffer (x.ingestRealTrajectory rt buffer)

variable {rt}

/-- The buffer takes all extracted steps, since their parameters are dictionaries. -/
lemma recorded_recordRealTrajectory (sessionId : String) (steps : List ExtractedStep)
    (b : TrajectoryBuffer) :
    let after := b.recordRealTrajectory rt sessionId (steps.map (ExtractedStep.members sessionId))
    after.rows.map StepRow.actionName = b.rows.map StepRow.actionName ++
        steps.map (fun step => TrajectoryBuffer.nameOf rt (step.members sessionId)) ∧
      after.metadataJsons.length = b.metadataJsons.length + steps.length := by
  induction steps generalizing b with
  | nil => simp [TrajectoryBuffer.recordRealTrajectory]
  | cons step steps ih =>
      have hmeta : ∃ text, TrajectoryBuffer.realMetadata rt (step.members sessionId) =
          some text := by
        unfold TrajectoryBuffer.realMetadata TrajectoryBuffer.parametersOf
        have hfind : PyDict.find "parameters" (step.members sessionId) =
            some (.obj step.parameters) := rfl
        unfold TrajectoryBuffer.truthyItem
        rw [hfind]
        cases htruthy : rt.truthy (.obj step.parameters) <;> simp [Option.filter, htruthy]
      obtain ⟨text, htext⟩ := hmeta
      rw [List.map_cons]
      simp only [TrajectoryBuffer.recordRealTrajectory, htext]
      obtain ⟨hrows, hmetas⟩ := ih ⟨b.rows ++ [TrajectoryBuffer.realRow rt sessionId
        (b.rows.length + 1) (step.members sessionId)], b.metadataJsons ++ [text]⟩
      refine ⟨?_, ?_⟩
      · rw [hrows, List.map_append, List.append_assoc]
        rfl
      · rw [hmetas, List.length_append, List.length_singleton, List.length_cons]
        omega

lemma hookSubmitted_iff {x : SessionEnd} : x.hookSubmitted = true ↔ x.sessionEnd.Raises := by
  rw [← CallBehaviour.callUdsWithRetry_raises]
  unfold hookSubmitted
  split <;> rename_i h <;> simp [h]

/-- The steps are recorded in process exactly when the call brings no answer. -/
lemma recorded_iff {x : SessionEnd} {buffer : TrajectoryBuffer} (hne : x.steps ≠ []) :
    x.Recorded rt buffer (x.ingestRealTrajectory rt buffer) ↔ ∀ v, ¬ x.ingest.Answers v := by
  unfold ingestRealTrajectory
  rw [if_neg (fun h => hne (List.isEmpty_iff.mp h))]
  constructor
  · intro h v hv
    rw [CallBehaviour.callUdsWithRetry_answers.mpr hv] at h
    have hlen : buffer.metadataJsons.length = buffer.metadataJsons.length + x.steps.length := h.2
    have hpos := List.length_pos_of_ne_nil hne
    omega
  · intro h
    have hrecorded := @recorded_recordRealTrajectory rt x.sessionId x.steps buffer
    rcases hcall : x.ingest.callUdsWithRetry with e | _ | v
    · exact hrecorded
    · exact hrecorded
    · exact absurd (CallBehaviour.callUdsWithRetry_answers.mp hcall) (h v)

/-- Nothing is lost exactly when the session end was executed with an ok result or raised, and the
steps were counted in full or brought no answer at all. -/
theorem delivered_iff (x : SessionEnd) (buffer : TrajectoryBuffer) :
    x.SessionDelivered ∧ x.StepsDelivered rt buffer ↔
      ((∃ v ∈ x.sessionEnd.executions, okResult v = true) ∨ x.sessionEnd.Raises) ∧
      (x.steps = [] ∨ (∃ v ∈ x.ingest.executions, ingested rt x.steps.length v = true) ∨
        ∀ v, ¬ x.ingest.Answers v) := by
  unfold SessionDelivered StepsDelivered
  rw [hookSubmitted_iff]
  by_cases hne : x.steps = []
  · simp [hne]
  · rw [recorded_iff hne]

def unreachable : CallBehaviour := ⟨false, some false, .failed none, some false, .failed none⟩

/-- The end of a session without steps, with a daemon that cannot be brought up. -/
def unreachableEnd : SessionEnd := ⟨[], "s", unreachable, unreachable⟩

/-- With an unreachable daemon the end of the session is lost: the call returns `None`, which counts
as a delivery. -/
theorem unreachable_session_lost : ¬ ∀ (rt : Runtime) (x : SessionEnd) (buffer : TrajectoryBuffer),
    x.SessionDelivered ∧ x.StepsDelivered rt buffer := by
  intro h
  rcases (h .sample unreachableEnd .empty).1 with ⟨v, hv, -⟩ | hhook
  · cases hv
  · cases hhook

end SessionEnd

end AtlasMemory
