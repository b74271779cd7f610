import AtlasMemory.Foundations.GuardedRuns
import AtlasMemory.L1Working.HotBuffer

/-!
# The queued prefetch context

The provider recalls in a background thread what the next turn will ask for.  The one slot for the
result is guarded by a lock, and the recall runs without it: the worker looks into the slot,
recalls, and stores, and calls of other threads fall in between.  Each event below is one step
under the lock, or the start or the end of a recall.

What the slot does not know is kept beside it: for which session its context was recalled, how many
invalidations had run when that recall began, and the session of the task that filled it.
-/

namespace AtlasMemory

namespace PrefetchQueue

/-- A recalled context, with the query and the session of the recall and the number of
invalidations before its start. -/
structure Context where
  text : String
  query : String
  session : String
  epoch : ℕ
  deriving DecidableEq

/-- A task of the background worker: the arguments of `_prefetch_in_background`. -/
structure Task where
  query : String
  session : String
  deriving DecidableEq

/-- Where the running task is. -/
inductive Phase
  /-- Before the lock of `prefetch`. -/
  | checking
  /-- In the recall, which began after this number of invalidations. -/
  | recalling (epoch : ℕ)
  /-- Before the lock of `_prefetch_in_background`, with a non-empty result. -/
  | storing (context : Context)
  deriving DecidableEq

/-- The task that the worker runs. -/
structure Running where
  task : Task
  phase : Phase
  /-- Whether an invalidation ran since the task has looked into the slot. -/
  outdated : Bool
  deriving DecidableEq

/-- A context that a call of `prefetch` has taken from the slot. -/
structure Served where
  query : String
  session : String
  /-- The number of invalidations before the call. -/
  epoch : ℕ
  context : Context
  deriving DecidableEq

/-- The provider and its worker. -/
structure State where
  /-- `_session_id`. -/
  sessionId : String
  /-- `_queued_context`. -/
  queuedContext : Option Context
  /-- `_queued_query`. -/
  queuedQuery : Option String
  /-- The session of the task that filled the slot last. -/
  filledFor : String
  /-- The queue of the worker. -/
  tasks : List Task
  /-- `_closed` of the worker. -/
  closed : Bool
  running : Option Running
  /-- The number of invalidations so far. -/
  epoch : ℕ
  served : List Served
  deriving DecidableEq

def State.initial : State := ⟨HotBuffer.defaultSession, none, none, "", [], false, none, 0, []⟩

/-- What can happen next.  A call that has resolved its session earlier is a call with that session
given, and a task that the full queue of the worker drops is no event. -/
inductive Event
  | queuePrefetch (query session : String)
  /-- The worker takes the next task: the gate for trivial prompts, and the session. -/
  | startTask
  /-- The worker looks into the slot. -/
  | checkQueue
  /-- The recall of the worker returns a text. -/
  | recalled (text : String)
  /-- The recall of the worker raises. -/
  | raised
  /-- The worker stores its result. -/
  | store
  /-- The lock step of a call of `prefetch` in another thread. -/
  | prefetch (query session : String)
  /-- `invalidate_prefetch_cache`, or the same lines in `initialize` and `on_session_end`. -/
  | invalidate
  /-- `initialize` sets the session. -/
  | newSession (session : String)
  | shutdown
  deriving DecidableEq

namespace State

/-- `session_id or self._session_id`. -/
def sid (s : State) (session : String) : String :=
  if session = "" then s.sessionId else session

/-- Whether a call with the query takes the context of the slot.  An empty context is no context. -/
def matching (s : State) (query : String) : Option Context :=
  s.queuedContext.bind fun c =>
    if c.text ≠ "" ∧ (s.queuedQuery = none ∨ s.queuedQuery = some query) then some c else none

def clear (s : State) : State := { s with queuedContext := none, queuedQuery := none }

/-- The context of the slot goes to a call. -/
def serve (s : State) (query session : String) (c : Context) : State :=
  { s.clear with served := ⟨query, session, s.epoch, c⟩ :: s.served }

def done (s : State) : State := { s with running := none }

def goOn (s : State) (t : Task) (p : Phase) : State := { s with running := some ⟨t, p, false⟩ }

/-- What a running task notices of an invalidation. -/
def outdate (s : State) : State :=
  { s with running := s.running.map fun r => { r with outdated := true } }

end State

/-- One step; `none` when the event cannot happen.  The gate for trivial prompts is a parameter. -/
def step (isTrivial : String → Bool) (s : State) : Event → Option State
  | .queuePrefetch query session =>
    if s.closed then some s
    else some { s with tasks := s.tasks ++ [⟨query, s.sid session⟩] }
  | .startTask =>
    match s.running, s.tasks with
    | none, t :: rest =>
      let s := { s with tasks := rest }
      some (if isTrivial t.query then s else s.goOn ⟨t.query, s.sid t.session⟩ .checking)
    | _, _ => none
  | .checkQueue =>
    match s.running with
    | some ⟨t, .checking, _⟩ =>
      match s.matching t.query with
      | some c => some ((s.serve t.query t.session c).goOn t (.storing c))
      | none => some (s.goOn t (.recalling s.epoch))
    | _ => none
  | .recalled text =>
    match s.running with
    | some ⟨t, .recalling epoch, outdated⟩ =>
      if text = "" then some s.done
      else some { s with
        running := some ⟨t, .storing ⟨text, t.query, t.session, epoch⟩, outdated⟩ }
    | _ => none
  | .raised =>
    match s.running with
    | some ⟨_, .recalling _, _⟩ => some s.done
    | _ => none
  | .store =>
    match s.running with
    | some ⟨t, .storing c, _⟩ =>
      some { s.done with
        queuedContext := some c, queuedQuery := some t.query, filledFor := t.session }
    | _ => none
  | .prefetch query session =>
    if isTrivial query then some s
    else
      match s.matching query with
      | some c => some (s.serve query (s.sid session) c)
      | none => some s
  | .invalidate => some { s.clear.outdate with epoch := s.epoch + 1 }
  | .newSession session =>
    some { s with sessionId := if session = "" then HotBuffer.defaultSession else session }
  | .shutdown => some { s with closed := true }

/-- The context was recalled for the query and the session of the call that got it, and no
invalidation had run between the start of that recall and the call. -/
def Served.Proper (v : Served) : Prop :=
  v.context.query = v.query ∧ v.context.session = v.session ∧ v.context.epoch = v.epoch

/-- The condition on the order of the steps.  A call that finds a context for its query comes from
the session of the task that filled the slot, and a task does not store what an invalidation has
overtaken. -/
def inOrder (isTrivial : String → Bool) (s : State) : Event → Bool
  | .prefetch query session =>
    isTrivial query || (s.matching query).all fun _ => s.filledFor = s.sid session
  | .checkQueue =>
    s.running.all fun r => (s.matching r.task.query).all fun _ => s.filledFor = r.task.session
  | .store => s.running.all fun r => !r.outdated
  | _ => true

/-! ## What the steps keep -/

/-- A result that waits to be stored is for the task. -/
def Running.Fits (r : Running) : Prop :=
  match r.phase with
  | .storing c => c.query = r.task.query ∧ c.session = r.task.session
  | _ => True

/-- The recall of the task began after the last invalidation. -/
def Running.Current (r : Running) (epoch : ℕ) : Prop :=
  match r.phase with
  | .checking => True
  | .recalling e => e = epoch
  | .storing c => c.epoch = epoch

/-- The context of the slot is for the query and the session of the task that filled it, and no
invalidation has run since its recall began. -/
structure Inv (s : State) : Prop where
  slot : ∀ c, s.queuedContext = some c →
    s.queuedQuery = some c.query ∧ c.session = s.filledFor ∧ c.epoch = s.epoch
  fits : ∀ r, s.running = some r → r.Fits
  current : ∀ r, s.running = some r → r.outdated = false → r.Current s.epoch
  proper : ∀ v ∈ s.served, v.Proper

lemma inv_initial : Inv State.initial where
  slot := nofun
  fits := nofun
  current := nofun
  proper := nofun

variable {s s' : State}

/-- A context that a call takes is in the slot, and the slot's query is the call's or none. -/
lemma matching_eq_some {query : String} {c : Context} (h : s.matching query = some c) :
    s.queuedContext = some c ∧ (s.queuedQuery = none ∨ s.queuedQuery = some query) := by
  rw [State.matching, Option.bind_eq_some_iff] at h
  obtain ⟨d, hd, h⟩ := h
  split_ifs at h with hq
  rw [Option.some.injEq] at h
  rw [← h]
  exact ⟨hd, hq.2⟩

lemma proper_of_matching (hinv : Inv s) {query session : String} {c : Context}
    (hc : s.matching query = some c) (hsession : s.filledFor = session) :
    Served.Proper ⟨query, session, s.epoch, c⟩ := by
  obtain ⟨hslot, hquery⟩ := matching_eq_some hc
  obtain ⟨hq, hs, he⟩ := hinv.slot c hslot
  have hcq : some c.query = some query := by
    rcases hquery with hnone | hsome
    · rw [hq] at hnone
      exact absurd hnone (Option.some_ne_none _)
    · rw [← hq, hsome]
  exact ⟨Option.some.inj hcq, hs.trans hsession, he⟩

lemma inv_serve (hinv : Inv s) {query session : String} {c : Context}
    (hc : s.matching query = some c) (hsession : s.filledFor = session) :
    Inv (s.serve query session c) where
  slot := nofun
  fits := hinv.fits
  current := hinv.current
  proper := by
    intro v hv
    rcases List.mem_cons.mp hv with hv | hv
    · rw [hv]
      exact proper_of_matching hinv hc hsession
    · exact hinv.proper v hv

lemma inv_running (hinv : Inv s) {r : Running} (hfits : r.Fits)
    (hcurrent : r.outdated = false → r.Current s.epoch) :
    Inv { s with running := some r } where
  slot := hinv.slot
  fits := by
    intro r' hr
    rw [← Option.some.inj hr]
    exact hfits
  current := by
    intro r' hr hout
    rw [← Option.some.inj hr] at hout ⊢
    exact hcurrent hout
  proper := hinv.proper

lemma inv_done (hinv : Inv s) : Inv s.done where
  slot := hinv.slot
  fits := nofun
  current := nofun
  proper := hinv.proper

/-- After an invalidation the slot is empty, and a recall that is under way counts as outdated. -/
lemma inv_invalidate (hinv : Inv s) : Inv { s.clear.outdate with epoch := s.epoch + 1 } where
  slot := nofun
  fits := by
    intro r hr
    obtain ⟨r', hr', heq⟩ := Option.map_eq_some_iff.mp hr
    rw [← heq]
    exact hinv.fits r' hr'
  current := by
    intro r hr hout
    obtain ⟨r', -, heq⟩ := Option.map_eq_some_iff.mp hr
    rw [← heq] at hout
    exact absurd hout (by simp)
  proper := hinv.proper

lemma inv_store (hinv : Inv s) {t : Task} {c : Context}
    (hrunning : s.running = some ⟨t, .storing c, false⟩) :
    Inv { s.done with
      queuedContext := some c, queuedQuery := some t.query, filledFor := t.session } where
  slot := by
    intro d hd
    rw [← Option.some.inj hd]
    have hfits : c.query = t.query ∧ c.session = t.session := hinv.fits _ hrunning
    have hcurrent : c.epoch = s.epoch := hinv.current _ hrunning rfl
    exact ⟨congrArg some hfits.1.symm, hfits.2, hcurrent⟩
  fits := nofun
  current := nofun
  proper := hinv.proper

lemma inv_step (isTrivial : String → Bool) (e : Event) (hinv : Inv s)
    (hguard : inOrder isTrivial s e = true) (hstep : step isTrivial s e = some s') : Inv s' := by
  cases e with
  | queuePrefetch query session =>
      simp only [step] at hstep
      split_ifs at hstep
      all_goals
        rw [← Option.some.inj hstep]
        exact ⟨hinv.slot, hinv.fits, hinv.current, hinv.proper⟩
  | startTask =>
      simp only [step] at hstep
      split at hstep
      · rename_i t rest hrunning htasks
        rw [← Option.some.inj hstep]
        have hinv' : Inv { s with tasks := rest } :=
          ⟨hinv.slot, hinv.fits, hinv.current, hinv.proper⟩
        split_ifs
        · exact hinv'
        · exact inv_running hinv' trivial fun _ => trivial
      · cases hstep
  | checkQueue =>
      simp only [step] at hstep
      split at hstep
      · rename_i t outdated hrunning
        split at hstep
        · rename_i c hc
          rw [← Option.some.inj hstep]
          -- the worker's own call takes the context, and will store it again for its task
          have hsession : s.filledFor = t.session := by
            simpa [inOrder, hrunning, hc] using hguard
          obtain ⟨hq, hs, he⟩ := proper_of_matching hinv hc hsession
          exact inv_running (inv_serve hinv hc hsession) ⟨hq, hs⟩ fun _ => he
        · rw [← Option.some.inj hstep]
          exact inv_running hinv trivial fun _ => rfl
      · cases hstep
  | recalled text =>
      simp only [step] at hstep
      split at hstep
      · rename_i t epoch outdated hrunning
        have hcurrent : outdated = false → epoch = s.epoch := hinv.current _ hrunning
        split_ifs at hstep
        · rw [← Option.some.inj hstep]
          exact inv_done hinv
        · rw [← Option.some.inj hstep]
          exact inv_running hinv ⟨rfl, rfl⟩ hcurrent
      · cases hstep
  | raised =>
      simp only [step] at hstep
      split at hstep
      · rw [← Option.some.inj hstep]
        exact inv_done hinv
      · cases hstep
  | store =>
      simp only [step] at hstep
      split at hstep
      · rename_i t c outdated hrunning
        have hout : outdated = false := by simpa [inOrder, hrunning] using hguard
        rw [hout] at hrunning
        rw [← Option.some.inj hstep]
        exact inv_store hinv hrunning
      · cases hstep
  | prefetch query session =>
      simp only [step] at hstep
      split_ifs at hstep with htrivial
      · rw [← Option.some.inj hstep]
        exact hinv
      · split at hstep
        · rename_i c hc
          rw [← Option.some.inj hstep]
          have hsession : s.filledFor = s.sid session := by
            simpa [inOrder, htrivial, hc] using hguard
          exact inv_serve hinv hc hsession
        · rw [← Option.some.inj hstep]
          exact hinv
  | invalidate =>
      rw [← Option.some.inj hstep]
      exact inv_invalidate hinv
  | newSession session =>
      rw [← Option.some.inj hstep]
      exact ⟨hinv.slot, hinv.fits, hinv.current, hinv.proper⟩
  | shutdown =>
      rw [← Option.some.inj hstep]
      exact ⟨hinv.slot, hinv.fits, hinv.current, hinv.proper⟩

/-- **Queued contexts.** In a run in which no call of another session finds a context for its query
in the slot, and no task stores what an invalidation has overtaken, every context that is served
from the slot was recalled for the query and the session of the call, by a recall that began after
the last invalidation. -/
theorem served_proper_of_inOrder (isTrivial : String → Bool) (es : List Event)
    (hrun : GuardedRun.run (step isTrivial) (inOrder isTrivial) .initial es = some s) :
    ∀ v ∈ s.served, v.Proper :=
  (GuardedRun.run_invariant (fun _ e _ => inv_step isTrivial e) hrun inv_initial).proper

/-- A run of two sessions with the same question, each with a queued recall. -/
theorem served_proper_two_sessions :
    (⟨"where is it?", "s1", 1, ⟨"in Kraków", "where is it?", "s1", 1⟩⟩ : Served).Proper :=
  @served_proper_of_inOrder
    { State.initial with
      filledFor := "s1"
      epoch := 1
      served := [⟨"where is it?", "s1", 1, ⟨"in Kraków", "where is it?", "s1", 1⟩⟩] }
    (fun _ => false)
    [.invalidate, .queuePrefetch "where is it?" "s1", .startTask, .checkQueue,
      .recalled "in Kraków", .store, .prefetch "where is it?" "s1", .prefetch "where is it?" "s2"]
    (by decide) _ List.mem_cons_self

/-- The slot knows the query of its context, and not its session: with the same question a second
session gets the context that was recalled for the first. -/
theorem served_to_another_session :
    ∃ es : List Event, ∃ s : State,
      GuardedRun.run (step fun _ => false) (fun _ _ => true) .initial es = some s ∧
      ¬ ∀ v ∈ s.served, v.Proper := by
  refine ⟨[.queuePrefetch "where is it?" "s1", .startTask, .checkQueue, .recalled "in Kraków",
    .store, .prefetch "where is it?" "s2"],
    { State.initial with
      filledFor := "s1"
      served := [⟨"where is it?", "s2", 0, ⟨"in Kraków", "where is it?", "s1", 0⟩⟩] },
    by decide, ?_⟩
  intro h
  have hsession : "s1" = "s2" := (h _ List.mem_cons_self).2.1
  exact absurd hsession (by decide)

end PrefetchQueue

end AtlasMemory
