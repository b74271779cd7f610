import AtlasMemory.Foundations.PyText
import Mathlib.Data.Rat.Init
import Mathlib.Data.List.Basic

/-!
# The shadow worker

The model of `OmniRouteShadowWorker`.  Turns wait in one queue, from which the worker's loop and
every drain take them; a turn that was taken is in flight until its reconciliation returns or
raises.  What happens between two suspensions is one event, and the events of turns in flight come
in any order.  All of them record into one status, which the outcome of a turn copies when its
reconciliation has returned.

A turn carries the number under which it was enqueued; it stands for the identity of its dictionary,
which the source passes on.
-/

namespace AtlasMemory

/-- `last_extraction_status`. -/
structure ExtractionStatus where
  source : Option String
  errorCode : Option String
  error : Option String
  fallbackUsed : Bool
  timestamp : Option ℚ
  deriving DecidableEq

/-- The dictionary that `_record_extraction` makes, at time `now`. -/
def recordExtraction (source : String) (errorCode error : Option String) (now : ℚ) :
    ExtractionStatus where
  source := some source
  errorCode := errorCode
  error := error
  fallbackUsed := PyString.startsWith source "regex"
  timestamp := some now

/-- One attempt of `_extract_spo` to reach the model: the facts of its answer, or the text of an
exception. -/
inductive ExtractionAttempt
  | facts (facts : List String)
  | raised (exc : String)

/-- What `_extract_spo` records with so many attempts left, at time `now`. -/
def extractSpo (now : ℚ) : ℕ → (ℕ → ExtractionAttempt) → ExtractionStatus
  | 0, _ => recordExtraction "regex_fallback" (some "OMNIROUTE_UNAVAILABLE") none now
  | left + 1, attempt =>
    match attempt 0 with
    | .facts facts =>
      recordExtraction (if facts = [] then "llm_empty_response" else "llm") none none now
    | .raised exc =>
      if left = 0 then
        recordExtraction "regex_fallback" (some "OMNIROUTE_UNAVAILABLE") (some exc) now
      else extractSpo now left fun i => attempt (i + 1)

/-- An enqueued turn. -/
structure ShadowTurn where
  number : ℕ
  userMsg : String
  agentResponse : String
  sessionId : String
  deriving DecidableEq

/-- An item of `completed_turns`. -/
structure TurnOutcome where
  number : ℕ
  sessionId : String
  committedKeys : List String
  extraction : ExtractionStatus
  deriving DecidableEq

/-- `facts_committed`. -/
def TurnOutcome.factsCommitted (o : TurnOutcome) : ℕ := o.committedKeys.length

/-- The state of the worker. -/
structure ShadowWorker where
  /-- The retries of an extraction. -/
  maxRetries : ℕ
  /-- The number of turns enqueued so far. -/
  enqueued : ℕ
  turnQueue : List ShadowTurn
  /-- The turns in flight; `_in_flight` is their number. -/
  inFlight : List ShadowTurn
  lastExtractionStatus : ExtractionStatus
  completedTurns : List TurnOutcome
  deriving DecidableEq

namespace ShadowWorker

def init (maxRetries : ℕ) : ShadowWorker :=
  ⟨maxRetries, 0, [], [], ⟨none, none, none, false, none⟩, []⟩

/-- The size of the queue and of the buffer of outcomes. -/
def capacity : ℕ := 1000

/-- `append` of a bounded buffer. -/
def pushOutcome (outcomes : List TurnOutcome) (o : TurnOutcome) : List TurnOutcome :=
  (outcomes ++ [o]).drop (outcomes.length + 1 - capacity)

/-- What can happen between two suspensions. -/
inductive WorkerEvent
  /-- `enqueue_turn` puts a turn into the queue. -/
  | enqueue (userMsg agentResponse sessionId : String)
  /-- A consumer takes the first turn, which has this number, and starts to process it. -/
  | take (number : ℕ) (now : ℚ)
  /-- The extraction of a turn in flight ends. -/
  | extract (number : ℕ) (attempt : ℕ → ExtractionAttempt) (now : ℚ)
  /-- The reconciliation of a turn in flight returns the keys that were committed. -/
  | finish (number : ℕ) (committedKeys : List String)
  /-- The reconciliation of a turn in flight raises, or is cancelled. -/
  | abort (number : ℕ)
  /-- `pop_completed`. -/
  | popCompleted

def flying (s : ShadowWorker) (number : ℕ) : Option ShadowTurn :=
  s.inFlight.find? fun t => decide (t.number = number)

def land (s : ShadowWorker) (number : ℕ) : List ShadowTurn :=
  s.inFlight.filter fun t => decide (t.number ≠ number)

/-- The worker after an event; `none` when it cannot happen. -/
def step (s : ShadowWorker) : WorkerEvent → Option ShadowWorker
  | .enqueue userMsg agentResponse sessionId =>
    if s.turnQueue.length < capacity then
      some { s with
        enqueued := s.enqueued + 1
        turnQueue := s.turnQueue ++ [⟨s.enqueued, userMsg, agentResponse, sessionId⟩] }
    else none
  | .take number now =>
    match s.turnQueue with
    | [] => none
    | t :: rest =>
      if t.number = number then
        some { s with
          turnQueue := rest
          inFlight := s.inFlight ++ [t]
          lastExtractionStatus := recordExtraction "pending" none none now }
      else none
  | .extract number attempt now =>
    (s.flying number).map fun _ =>
      { s with lastExtractionStatus := extractSpo now s.maxRetries attempt }
  | .finish number committedKeys =>
    (s.flying number).map fun t =>
      { s with
        inFlight := s.land number
        completedTurns := pushOutcome s.completedTurns
          ⟨number, t.sessionId, committedKeys, s.lastExtractionStatus⟩ }
  | .abort number => (s.flying number).map fun _ => { s with inFlight := s.land number }
  | .popCompleted => some { s with completedTurns := [] }

def run (s : ShadowWorker) (events : List WorkerEvent) : Option ShadowWorker :=
  events.foldlM step s

/-- The outcome that an event adds to `completed_turns`. -/
def yielded (s : ShadowWorker) : WorkerEvent → Option TurnOutcome
  | .finish number committedKeys => (s.step (.finish number committedKeys)).bind fun s' =>
      s'.completedTurns.getLast?
  | _ => none

/-- The outcomes that a run adds to `completed_turns`, in order. -/
def outcomes (s : ShadowWorker) : List WorkerEvent → List TurnOutcome
  | [] => []
  | e :: es => (s.yielded e).toList ++ ((s.step e).elim [] fun s' => s'.outcomes es)

/-! ## One event -/

variable {s s' : ShadowWorker} {number : ℕ}

lemma mem_of_flying {t : ShadowTurn} (h : s.flying number = some t) :
    t ∈ s.inFlight ∧ t.number = number :=
  ⟨List.mem_of_find?_eq_some h, by simpa using List.find?_some h⟩

lemma getLast?_pushOutcome (outcomes : List TurnOutcome) (o : TurnOutcome) :
    (pushOutcome outcomes o).getLast? = some o := by
  rw [pushOutcome, List.getLast?_drop, if_neg, List.getLast?_append]
  · rfl
  · rw [List.length_append, List.length_singleton, capacity]
    omega

lemma yielded_finish {keys : List String} {t : ShadowTurn} (h : s.flying number = some t) :
    s.yielded (.finish number keys) =
      some ⟨number, t.sessionId, keys, s.lastExtractionStatus⟩ := by
  simp only [yielded, step, h, Option.map_some, Option.bind_some, getLast?_pushOutcome]

/-! ## Runs -/

lemma run_append {es es' : List WorkerEvent} :
    s.run (es ++ es') = (s.run es).bind fun s' => s'.run es' := by
  rw [run, List.foldlM_append]
  rfl

lemma run_concat {es : List WorkerEvent} {e : WorkerEvent} :
    s.run (es ++ [e]) = (s.run es).bind fun s' => s'.step e := by
  rw [run_append]
  refine congrArg (s.run es).bind (funext fun s' => ?_)
  rw [run, List.foldlM_cons]
  cases s'.step e <;> rfl

lemma outcomes_append {es es' : List WorkerEvent} (h : s.run es = some s') :
    s.outcomes (es ++ es') = s.outcomes es ++ s'.outcomes es' := by
  induction es generalizing s with
  | nil =>
      obtain rfl := Option.some.inj h
      rfl
  | cons e es ih =>
      rw [run, List.foldlM_cons, Option.bind_eq_bind, Option.bind_eq_some_iff] at h
      obtain ⟨s₁, hstep, hrest⟩ := h
      rw [List.cons_append, outcomes, outcomes, hstep, Option.elim_some, Option.elim_some,
        ih hrest, List.append_assoc]

end ShadowWorker

end AtlasMemory
