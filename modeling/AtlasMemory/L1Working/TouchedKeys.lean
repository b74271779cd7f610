import AtlasMemory.L1Working.SessionTracker

/-!
# The touched keys of a session

The model of `HermesSessionHook.on_session_end` as far as it concerns the keys that the sessions have
touched: they stand in a bucket for each session and one for writes without a session, in the data of
the active session, and in the entries of the hot buffer.  Each of the calls it makes may raise, and
a sleep cycle that raises may have consolidated some of the keys before.

The buckets are emptied before the sleep cycle starts, while the entries of the hot buffer are marked
after it.  A failure in between loses what is in the buckets only.
-/

namespace AtlasMemory

namespace SessionHook

/-- The stages of `on_session_end` that may raise. -/
inductive Fault
  /-- The look for activity. -/
  | activity
  /-- `process_all_pending`. -/
  | pending
  /-- `get_session_entries`, when the touched keys are collected. -/
  | hotBuffer
  /-- `run_sleep_cycle_consolidation`, with the keys that were consolidated before. -/
  | cycle (done : List String)
  /-- `_reconcile_l1_to_l2`. -/
  | reconcile
  /-- The proposal of skills. -/
  | propose
  /-- The resets after the session has been closed. -/
  | reset
  deriving DecidableEq

/-- What a call of `on_session_end` meets. -/
structure EndEnv where
  fault : Option Fault
  /-- The writes of `process_all_pending`, each with its session and its key. -/
  pending : List (String × String)
  /-- There is a trajectory of the session, or a skill to propose. -/
  otherActivity : Bool
  /-- Working memory after the reconciliation. -/
  reconciled : WorkingMemory

/-- `HermesSessionHook`, with the buckets of the write path. -/
structure Hook where
  /-- `session_touched_keys`. -/
  touched : PyDict String (List String)
  /-- `touched_keys` of the active sessions. -/
  active : PyDict String (List String)
  memory : WorkingMemory
  consolidatedSessions : List String

/-- The bucket of writes without a session. -/
def sharedBucket : String := "default"

def idleSession : String := "idle_sess"

variable (rt : Runtime) (lex : Lexicon)

namespace Hook

/-- `session_touched_keys.get(session, set())`. -/
def bucket (h : Hook) (session : String) : List String := (h.touched.get? session).getD []

/-- `active_sessions.get(session, {}).get("touched_keys", set())`. -/
def ofActive (h : Hook) (session : String) : List String := (h.active.get? session).getD []

/-- The bucket of writes without a session, for a session that takes it. -/
def shared (h : Hook) (session : String) : List String :=
  if session = idleSession then [] else h.bucket sharedBucket

/-- `get_session_entries`. -/
def entries (h : Hook) (session : String) : List HotBufferEntry :=
  h.memory.hot.buffer.filter (WorkingMemory.isSessionEntry rt lex session)

/-- The keys of the entries of the session. -/
def hotKeys (h : Hook) (session : String) : List String :=
  ((h.entries rt lex session).map HotBufferEntry.key).filter (· ≠ "")

/-- What `get_touched_keys` returns. -/
def recordedFor (h : Hook) (session : String) : List String :=
  h.bucket session ++ h.shared session ++ h.ofActive session ++ h.hotKeys rt lex session

/-- What `get_touched_keys` leaves: the two buckets are popped. -/
def popTouched (h : Hook) (session : String) : Hook :=
  let rest := h.touched.erase session
  { h with touched := if session = idleSession then rest else rest.erase sharedBucket }

def record (h : Hook) (e : String × String) : Hook :=
  { h with touched := h.touched.set e.1 (h.bucket e.1 ++ [e.2]) }

/-- `has_session_activity`. -/
def hasSessionActivity (h : Hook) (otherActivity : Bool) (session : String) : Bool :=
  !(h.bucket session).isEmpty || !(h.shared session).isEmpty || !(h.ofActive session).isEmpty ||
    !(h.entries rt lex session).isEmpty ||
    (decide (session ∉ h.consolidatedSessions) && otherActivity)

def close (h : Hook) (session : String) : Hook :=
  { h with
    active := h.active.erase session
    consolidatedSessions := session :: h.consolidatedSessions }

end Hook

/-- What a call of `on_session_end` comes to: whether it raises, the keys that were consolidated, and
the hook before the keys were taken and at the end. -/
structure EndResult where
  raised : Bool
  consolidated : List String
  before : Hook
  after : Hook

/-- The part of `on_session_end` under `if trigger_sleep_cycle`. -/
def runCycle (env : EndEnv) (h : Hook) (session : String) : EndResult :=
  let popped := h.popTouched session
  let keys := h.recordedFor rt lex session
  let finish (consolidated : List String) (rest : Hook) : EndResult :=
    if env.fault = some .propose then ⟨true, consolidated, h, rest⟩
    else ⟨decide (env.fault = some .reset), consolidated, h, rest.close session⟩
  if env.fault = some .hotBuffer then ⟨true, [], h, popped⟩
  else if keys = [] then finish [] popped
  else match env.fault with
    | some (.cycle done) => ⟨true, done, h, popped⟩
    | some .reconcile => ⟨true, keys, h, { popped with memory := env.reconciled }⟩
    | _ => finish keys { popped with memory := env.reconciled }

/-- `on_session_end`. -/
def onSessionEnd (env : EndEnv) (h : Hook) (session : String) (trigger : Bool) : EndResult :=
  if env.fault = some .activity then ⟨true, [], h, h⟩
  else if !h.hasSessionActivity rt lex env.otherActivity session then
    ⟨false, [], h, { h with active := h.active.erase session }⟩
  else
    let noted := env.pending.foldl Hook.record h
    if env.fault = some .pending then ⟨true, [], noted, noted⟩
    else if trigger then runCycle rt lex env noted session
    else ⟨decide (env.fault = some .reset), [], noted, noted.close session⟩

/-- No touched key is lost: after a failure the keys of the session that were not consolidated are
still recorded for it, and after a failure or without a cycle those of the other buckets are still in
their buckets. -/
structure Keeps (session : String) (trigger : Bool) (r : EndResult) : Prop where
  own : r.raised = true → ∀ k ∈ r.before.recordedFor rt lex session,
    k ∈ r.consolidated ∨ k ∈ r.after.recordedFor rt lex session
  others : trigger = false ∨ r.raised = true → ∀ other ≠ session, ∀ k ∈ r.before.bucket other,
    k ∈ r.consolidated ∨ k ∈ r.after.bucket other

/-- The call fails after it has taken the buckets and before the cycle is through, with these keys
consolidated. -/
def FailsBetween (env : EndEnv) (done : List String) : Prop :=
  env.fault = some (.cycle done) ∨ env.fault = some .hotBuffer ∧ done = []

/-- What the failing stage leaves recorded: of the buckets that have been taken every key is
consolidated or, for the session's own, recorded elsewhere; and where a session is closed without a
cycle, what was noted with the active session is recorded elsewhere. -/
structure Safe (env : EndEnv) (h : Hook) (session : String) (trigger : Bool) : Prop where
  between : ∀ done, FailsBetween env done → trigger = true →
    (∀ k ∈ h.bucket session, k ∈ done ∨ k ∈ h.ofActive session ∨ k ∈ h.hotKeys rt lex session) ∧
    (session ≠ sharedBucket → ∀ k ∈ h.shared session, k ∈ done)
  closed : env.fault = some .reset → trigger = false → ∀ k ∈ h.ofActive session,
    k ∈ h.bucket session ∨ k ∈ h.shared session ∨ k ∈ h.hotKeys rt lex session

variable {rt lex} {env : EndEnv} {h : Hook} {session : String}

/-! ## The buckets -/

lemma mem_recordedFor {k : String} : k ∈ h.recordedFor rt lex session ↔
    k ∈ h.bucket session ∨ k ∈ h.shared session ∨ k ∈ h.ofActive session ∨
      k ∈ h.hotKeys rt lex session := by
  unfold Hook.recordedFor
  simp only [List.mem_append, or_assoc]

lemma shared_of_ne (hidle : session ≠ idleSession) : h.shared session = h.bucket sharedBucket :=
  if_neg hidle

lemma bucket_popTouched_self : (h.popTouched session).bucket session = [] := by
  unfold Hook.popTouched Hook.bucket
  dsimp only
  by_cases hidle : session = idleSession
  · rw [if_pos hidle, PyDict.get?_erase_self, Option.getD_none]
  · rw [if_neg hidle, PyDict.get?_erase, PyDict.get?_erase_self, ite_self, Option.getD_none]

lemma shared_popTouched : (h.popTouched session).shared session = [] := by
  unfold Hook.shared
  by_cases hidle : session = idleSession
  · rw [if_pos hidle]
  · rw [if_neg hidle]
    unfold Hook.popTouched Hook.bucket
    dsimp only
    rw [if_neg hidle, PyDict.get?_erase_self, Option.getD_none]

lemma bucket_popTouched_of_ne {other : String} (hother : other ≠ session)
    (hshared : session = idleSession ∨ other ≠ sharedBucket) :
    (h.popTouched session).bucket other = h.bucket other := by
  unfold Hook.popTouched Hook.bucket
  dsimp only
  by_cases hidle : session = idleSession
  · rw [if_pos hidle, PyDict.get?_erase_of_ne _ hother.symm]
  · have hne : other ≠ sharedBucket := hshared.resolve_left hidle
    rw [if_neg hidle, PyDict.get?_erase_of_ne _ hne.symm, PyDict.get?_erase_of_ne _ hother.symm]

lemma bucket_congr {h' : Hook} (htouched : h'.touched = h.touched) (other : String) :
    h'.bucket other = h.bucket other := by
  unfold Hook.bucket
  rw [htouched]

/-! ## One stage after the other -/

variable {trigger : Bool} {r : EndResult}

/-- A call that changes nothing that is recorded loses no key. -/
lemma keeps_of_eq (hafter : r.after = r.before) : Keeps rt lex session trigger r := by
  refine ⟨fun _ k hk => Or.inr ?_, fun _ other _ k hk => Or.inr ?_⟩
  · rwa [hafter]
  · rwa [hafter]

/-- A call that has consolidated all the keys that it took loses none. -/
lemma keeps_of_consolidated (hbefore : r.before = h)
    (hall : r.consolidated = h.recordedFor rt lex session)
    (hafter : r.after.touched = (h.popTouched session).touched) :
    Keeps rt lex session trigger r := by
  refine ⟨fun _ k hk => Or.inl ?_, fun _ other hother k hk => ?_⟩
  · rwa [hall, ← hbefore]
  · rw [hbefore] at hk
    by_cases hshared : session = idleSession ∨ other ≠ sharedBucket
    · refine Or.inr ?_
      rwa [bucket_congr hafter, bucket_popTouched_of_ne hother hshared]
    · rw [not_or, not_not] at hshared
      obtain ⟨hidle, rfl⟩ := hshared
      refine Or.inl ?_
      rw [hall, mem_recordedFor, shared_of_ne hidle]
      exact Or.inr (Or.inl hk)

/-- A call that fails between taking the buckets and the end of the cycle loses what was not
consolidated and stands in the buckets only. -/
lemma keeps_between_iff {done : List String} :
    Keeps rt lex session true ⟨true, done, h, h.popTouched session⟩ ↔
      (∀ k ∈ h.bucket session,
        k ∈ done ∨ k ∈ h.ofActive session ∨ k ∈ h.hotKeys rt lex session) ∧
      (session ≠ sharedBucket → ∀ k ∈ h.shared session, k ∈ done) := by
  have hafter : ∀ k, k ∈ (h.popTouched session).recordedFor rt lex session ↔
      k ∈ h.ofActive session ∨ k ∈ h.hotKeys rt lex session := by
    intro k
    rw [mem_recordedFor, bucket_popTouched_self, shared_popTouched]
    simp only [List.not_mem_nil, false_or]
    rfl
  constructor
  · rintro ⟨hown, hothers⟩
    refine ⟨fun k hk => ?_, fun hne k hk => ?_⟩
    · rcases hown rfl k (mem_recordedFor.mpr (Or.inl hk)) with h | h
      · exact Or.inl h
      · exact Or.inr ((hafter k).mp h)
    · have hidle : session ≠ idleSession := by
        rintro rfl
        exact absurd hk List.not_mem_nil
      have hempty : (h.popTouched session).bucket sharedBucket = [] := by
        rw [← shared_of_ne hidle]
        exact shared_popTouched
      rw [shared_of_ne hidle] at hk
      rcases hothers (Or.inr rfl) sharedBucket hne.symm k hk with h | h
      · exact h
      · rw [hempty] at h
        exact absurd h List.not_mem_nil
  · rintro ⟨hbucket, hshared⟩
    refine ⟨fun _ k hk => ?_, fun _ other hother k hk => ?_⟩
    · have hrest : k ∈ h.ofActive session ∨ k ∈ h.hotKeys rt lex session →
          k ∈ done ∨ k ∈ (h.popTouched session).recordedFor rt lex session :=
        fun hk => Or.inr ((hafter k).mpr hk)
      rcases mem_recordedFor.mp hk with hk | hk | hk
      · rcases hbucket k hk with h | h
        · exact Or.inl h
        · exact hrest h
      · by_cases hne : session = sharedBucket
        · have hidle : session ≠ idleSession := by
            rw [hne]
            decide
          rw [shared_of_ne hidle, ← hne] at hk
          rcases hbucket k hk with h | h
          · exact Or.inl h
          · exact hrest h
        · exact Or.inl (hshared hne k hk)
      · exact hrest hk
    · by_cases hkept : session = idleSession ∨ other ≠ sharedBucket
      · exact Or.inr (by rwa [bucket_popTouched_of_ne hother hkept])
      · rw [not_or, not_not] at hkept
        obtain ⟨hidle, rfl⟩ := hkept
        exact Or.inl (hshared hother.symm k (by rwa [shared_of_ne hidle]))

/-- Of a failure between taking the buckets and the end of the cycle exactly the first part of
safety is left. -/
lemma safe_iff_of_failsBetween {done : List String} (hfails : FailsBetween env done) :
    Safe rt lex env h session true ↔
      (∀ k ∈ h.bucket session,
        k ∈ done ∨ k ∈ h.ofActive session ∨ k ∈ h.hotKeys rt lex session) ∧
      (session ≠ sharedBucket → ∀ k ∈ h.shared session, k ∈ done) := by
  constructor
  · exact fun hsafe => hsafe.between done hfails rfl
  · refine fun hkept => ⟨fun done' hfails' _ => ?_, fun _ hfalse => absurd hfalse (by decide)⟩
    have hdone : done' = done := by
      unfold FailsBetween at hfails hfails'
      rcases hfails with hfault | ⟨hfault, rfl⟩
      · rw [hfault] at hfails'
        rcases hfails' with h | ⟨h, -⟩
        · exact (Fault.cycle.inj (Option.some.inj h)).symm
        · cases h
      · rw [hfault] at hfails'
        rcases hfails' with h | ⟨-, h⟩
        · cases h
        · exact h
    rw [hdone]
    exact hkept

/-- The stages after the cycle take nothing out of a bucket that has not been taken. -/
lemma keeps_finish {fault : Option Fault} {consolidated : List String} {rest : Hook}
    (hall : consolidated = h.recordedFor rt lex session)
    (hrest : rest.touched = (h.popTouched session).touched) :
    Keeps rt lex session true
      (if fault = some .propose then ⟨true, consolidated, h, rest⟩
        else ⟨decide (fault = some .reset), consolidated, h, rest.close session⟩) := by
  split_ifs
  · exact keeps_of_consolidated rfl hall hrest
  · exact keeps_of_consolidated rfl hall hrest

/-- The cycle loses no key exactly if its failure is safe. -/
lemma keeps_runCycle_iff :
    Keeps rt lex session true (runCycle rt lex env h session) ↔
      Safe rt lex env h session true := by
  have hsafe : (∀ done, ¬FailsBetween env done) → Safe rt lex env h session true :=
    fun hno => ⟨fun done hfails => absurd hfails (hno done), fun _ h => absurd h (by decide)⟩
  unfold runCycle
  dsimp only
  by_cases hbuffer : env.fault = some .hotBuffer
  · rw [if_pos hbuffer, keeps_between_iff, safe_iff_of_failsBetween (Or.inr ⟨hbuffer, rfl⟩)]
  rw [if_neg hbuffer]
  by_cases hkeys : h.recordedFor rt lex session = []
  · rw [if_pos hkeys]
    refine iff_of_true (keeps_finish hkeys.symm rfl) ⟨fun done _ _ => ?_, nofun⟩
    have hempty : ∀ k, k ∉ h.recordedFor rt lex session := by
      rw [hkeys]
      exact fun k => List.not_mem_nil
    exact ⟨fun k hk => absurd (mem_recordedFor.mpr (Or.inl hk)) (hempty k),
      fun _ k hk => absurd (mem_recordedFor.mpr (Or.inr (Or.inl hk))) (hempty k)⟩
  rw [if_neg hkeys]
  cases hfault : env.fault with
  | none =>
    exact iff_of_true (keeps_finish rfl rfl) (hsafe fun done => by simp [FailsBetween, hfault])
  | some fault =>
    cases fault with
    | cycle done =>
      exact keeps_between_iff.trans (safe_iff_of_failsBetween (Or.inl hfault)).symm
    | reconcile =>
      refine iff_of_true (keeps_of_consolidated rfl rfl rfl) (hsafe fun done => ?_)
      simp [FailsBetween, hfault]
    | hotBuffer => exact absurd hfault hbuffer
    | _ =>
      exact iff_of_true (keeps_finish rfl rfl) (hsafe fun done => by simp [FailsBetween, hfault])

/-- A session that is closed without a cycle loses no key exactly if a failure of the resets is
safe. -/
lemma keeps_close_iff :
    Keeps rt lex session false
        ⟨decide (env.fault = some .reset), [], h, h.close session⟩ ↔
      Safe rt lex env h session false := by
  have hactive : (h.close session).ofActive session = [] := by
    unfold Hook.close Hook.ofActive
    rw [PyDict.get?_erase_self, Option.getD_none]
  have hafter : ∀ k, k ∈ (h.close session).recordedFor rt lex session ↔
      k ∈ h.bucket session ∨ k ∈ h.shared session ∨ k ∈ h.hotKeys rt lex session := by
    intro k
    rw [mem_recordedFor, hactive]
    simp only [List.not_mem_nil, false_or]
    rfl
  constructor
  · rintro ⟨hown, -⟩
    refine ⟨fun _ _ htrue => absurd htrue (by decide), fun hreset _ k hk => ?_⟩
    rcases hown (decide_eq_true hreset) k (mem_recordedFor.mpr (Or.inr (Or.inr (Or.inl hk))))
      with h | h
    · exact absurd h List.not_mem_nil
    · exact (hafter k).mp h
  · rintro ⟨-, hclosed⟩
    refine ⟨fun hraised k hk => Or.inr ((hafter k).mpr ?_), fun _ other _ k hk => Or.inr hk⟩
    rcases mem_recordedFor.mp hk with hk | hk | hk | hk
    · exact Or.inl hk
    · exact Or.inr (Or.inl hk)
    · exact hclosed (of_decide_eq_true hraised) rfl k hk
    · exact Or.inr (Or.inr hk)

/-- **The touched keys** survive the end of a session, exactly if the failure that it meets is safe:
in every hook, and for every failure of every stage. -/
theorem keeps_onSessionEnd_iff (rt : Runtime) (lex : Lexicon) (env : EndEnv) (h : Hook)
    (session : String) (trigger : Bool) :
    Keeps rt lex session trigger (onSessionEnd rt lex env h session trigger) ↔
      (h.hasSessionActivity rt lex env.otherActivity session = true →
        Safe rt lex env (env.pending.foldl Hook.record h) session trigger) := by
  have hno : env.fault = some .activity ∨ env.fault = some .pending →
      Safe rt lex env (env.pending.foldl Hook.record h) session trigger := by
    intro hfault
    refine ⟨fun done hfails => ?_, fun hreset => ?_⟩
    · rcases hfault with hfault | hfault <;> simp [FailsBetween, hfault] at hfails
    · rcases hfault with hfault | hfault <;> simp [hfault] at hreset
  unfold onSessionEnd
  dsimp only
  by_cases hactivity : env.fault = some .activity
  · rw [if_pos hactivity]
    exact iff_of_true (keeps_of_eq rfl) fun _ => hno (Or.inl hactivity)
  rw [if_neg hactivity]
  cases hactive : h.hasSessionActivity rt lex env.otherActivity session with
  | false =>
    rw [Bool.not_false, if_pos rfl]
    refine iff_of_true ⟨fun hraised => absurd hraised Bool.false_ne_true, ?_⟩ nofun
    exact fun _ other _ k hk => Or.inr hk
  | true =>
    rw [Bool.not_true, if_neg Bool.false_ne_true]
    refine Iff.trans ?_ (forall_prop_of_true rfl).symm
    by_cases hpending : env.fault = some .pending
    · rw [if_pos hpending]
      exact iff_of_true (keeps_of_eq rfl) (hno (Or.inr hpending))
    · rw [if_neg hpending]
      cases trigger with
      | true => exact keeps_runCycle_iff
      | false => exact keeps_close_iff

/-! ## The next end of the session -/

lemma mem_bucket_record {e : String × String} {other k : String} (hk : k ∈ h.bucket other) :
    k ∈ (h.record e).bucket other := by
  unfold Hook.record Hook.bucket at *
  dsimp only
  rw [PyDict.get?_set]
  split_ifs with heq
  · rw [Option.getD_some, heq]
    exact List.mem_append_left _ hk
  · exact hk

/-- What is recorded for a session stays so when more is written. -/
lemma mem_recordedFor_record {e : String × String} {k : String}
    (hk : k ∈ h.recordedFor rt lex session) : k ∈ (h.record e).recordedFor rt lex session := by
  rw [mem_recordedFor] at hk ⊢
  rcases hk with hk | hk | hk
  · exact Or.inl (mem_bucket_record hk)
  · refine Or.inr (Or.inl ?_)
    unfold Hook.shared at hk ⊢
    split_ifs at hk ⊢ with hidle
    · exact hk
    · exact mem_bucket_record hk
  · exact Or.inr (Or.inr hk)

lemma mem_recordedFor_foldl {es : List (String × String)} {k : String}
    (hk : k ∈ h.recordedFor rt lex session) :
    k ∈ (es.foldl Hook.record h).recordedFor rt lex session := by
  induction es generalizing h with
  | nil => exact hk
  | cons e es ih => exact ih (mem_recordedFor_record hk)

lemma hasSessionActivity_of_recorded {k : String} (hk : k ∈ h.recordedFor rt lex session)
    (otherActivity : Bool) : h.hasSessionActivity rt lex otherActivity session = true := by
  have hne : ∀ {α : Type} {l : List α} {a : α}, a ∈ l → (!l.isEmpty) = true := by
    intro α l a ha
    rw [Bool.not_eq_true', List.isEmpty_eq_false_iff]
    exact List.ne_nil_of_mem ha
  unfold Hook.hasSessionActivity
  simp only [Bool.or_eq_true]
  rcases mem_recordedFor.mp hk with hk | hk | hk | hk
  · exact Or.inl (Or.inl (Or.inl (Or.inl (hne hk))))
  · exact Or.inl (Or.inl (Or.inl (Or.inr (hne hk))))
  · exact Or.inl (Or.inl (Or.inr (hne hk)))
  · obtain ⟨e, he, -⟩ := List.mem_map.mp (List.mem_of_mem_filter hk)
    exact Or.inl (Or.inr (hne he))

/-- An end of the session without a failure consolidates every key that is recorded for it. -/
theorem consolidated_of_recorded (hfault : env.fault = none) {k : String}
    (hk : k ∈ h.recordedFor rt lex session) :
    k ∈ (onSessionEnd rt lex env h session true).consolidated := by
  have hnoted : k ∈ (env.pending.foldl Hook.record h).recordedFor rt lex session :=
    mem_recordedFor_foldl hk
  have hkeys := List.ne_nil_of_mem hnoted
  unfold onSessionEnd runCycle
  rw [hasSessionActivity_of_recorded hk, hfault]
  simpa [hkeys] using hnoted

/-- A hook whose sessions have touched a key each. -/
def sampleHook : Hook where
  touched := PyDict.ofEntries [("chat", ["fact:alpha:plan"]), ("default", ["fact:beta:plan"])]
  active := ∅
  memory := ⟨⟨25, 900, []⟩, []⟩
  consolidatedSessions := []

def failingCycle : EndEnv := ⟨some (.cycle []), [], false, ⟨⟨25, 900, []⟩, []⟩⟩

/-- After a cycle that raises neither the key of the session nor that of the other bucket is recorded
any more. -/
theorem touched_keys_lost :
    ¬Keeps .sample sampleLexicon "chat" true
      (onSessionEnd .sample sampleLexicon failingCycle sampleHook "chat" true) := by
  intro hkeeps
  have hlost := hkeeps.others (Or.inr (by decide)) "default" (by decide) "fact:beta:plan" (by decide)
  exact absurd hlost (by decide)

end SessionHook

end AtlasMemory
