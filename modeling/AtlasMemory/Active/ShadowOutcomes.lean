import AtlasMemory.Active.ShadowWorker
import Mathlib.Data.List.Induction
import Mathlib.Data.List.Nodup
import Mathlib.Tactic.IntervalCases

/-!
# The outcomes of the shadow worker

Every turn whose reconciliation returns has exactly one outcome.  The extraction status in it is the
one that was recorded last, by whichever turn; so it is the turn's own as long as, between the last
recording of a turn and the return of its reconciliation, no other turn is taken up and no
extraction of another turn ends (`outcomes_isolated`).
-/

namespace AtlasMemory

namespace ShadowWorker

variable {s s' : ShadowWorker} {n : ℕ}

/-! ## Recordings -/

/-- The recording that an event makes: the turn, and the status. -/
def recording (maxRetries : ℕ) : WorkerEvent → Option (ℕ × ExtractionStatus)
  | .take number now => some (number, recordExtraction "pending" none none now)
  | .extract number attempt now => some (number, extractSpo now maxRetries attempt)
  | _ => none

/-- The last recording of a list of events. -/
def lastRecording (maxRetries : ℕ) (events : List WorkerEvent) : Option (ℕ × ExtractionStatus) :=
  events.reverse.findSome? (recording maxRetries)

/-- The status that a turn recorded last itself. -/
def ownStatus (maxRetries : ℕ) (events : List WorkerEvent) (number : ℕ) :
    Option ExtractionStatus :=
  events.reverse.findSome? fun e =>
    ((recording maxRetries e).filter fun r => decide (r.1 = number)).map Prod.snd

/-- Between the last recording of a turn and the return of its reconciliation no other turn makes
one. -/
def Undisturbed (maxRetries : ℕ) (events : List WorkerEvent) : Prop :=
  ∀ pre number keys post, events = pre ++ .finish number keys :: post →
    (lastRecording maxRetries pre).map Prod.fst = some number

/-- The reconciliation of a turn returns in a list of events. -/
def Returned (number : ℕ) (events : List WorkerEvent) : Prop :=
  ∃ keys, WorkerEvent.finish number keys ∈ events

lemma lastRecording_concat (maxRetries : ℕ) (es : List WorkerEvent) (e : WorkerEvent) :
    lastRecording maxRetries (es ++ [e]) =
      (recording maxRetries e).or (lastRecording maxRetries es) := by
  rw [lastRecording, List.reverse_append, List.reverse_singleton, List.singleton_append,
    List.findSome?_cons]
  cases recording maxRetries e <;> rfl

/-- The last recording is the last recording of its turn. -/
lemma ownStatus_of_lastRecording {maxRetries : ℕ} {events : List WorkerEvent}
    {status : ExtractionStatus} (h : lastRecording maxRetries events = some (n, status)) :
    ownStatus maxRetries events n = some status := by
  unfold lastRecording at h
  unfold ownStatus
  generalize events.reverse = es at h ⊢
  induction es with
  | nil => cases h
  | cons e es ih =>
      rw [List.findSome?_cons] at h ⊢
      cases hrec : recording maxRetries e with
      | none =>
          rw [hrec] at h
          exact ih h
      | some r =>
          rw [hrec] at h
          obtain rfl : r = (n, status) := Option.some.inj h
          rw [Option.filter_some, if_pos (decide_eq_true rfl)]
          rfl

/-! ## The numbers of the turns -/

/-- The numbers of the turns that wait or are in flight. -/
def openNumbers (s : ShadowWorker) : List ℕ :=
  s.turnQueue.map ShadowTurn.number ++ s.inFlight.map ShadowTurn.number

/-- The numbers of open turns are distinct, and were given out. -/
structure TurnsNumbered (s : ShadowWorker) : Prop where
  nodup : s.openNumbers.Nodup
  lt : ∀ n ∈ s.openNumbers, n < s.enqueued

lemma mem_land {t : ShadowTurn} : t ∈ s.land n ↔ t ∈ s.inFlight ∧ t.number ≠ n := by
  simp [land]

/-- What an event does to the numbers, to the retries and to the status. -/
structure StepKeeps (s s' : ShadowWorker) (e : WorkerEvent) : Prop where
  retries : s'.maxRetries = s.maxRetries
  numbered : TurnsNumbered s → TurnsNumbered s'
  status : s'.lastExtractionStatus =
    ((recording s.maxRetries e).map Prod.snd).getD s.lastExtractionStatus
  given : s.enqueued ≤ s'.enqueued
  /-- No turn is opened again. -/
  closed : ∀ n ∈ s'.openNumbers, n ∈ s.openNumbers ∨ s.enqueued ≤ n

lemma openNumbers_land_sublist (s : ShadowWorker) (n : ℕ) :
    (s.turnQueue.map ShadowTurn.number ++ (s.land n).map ShadowTurn.number).Sublist
      s.openNumbers :=
  (List.Sublist.refl _).append (List.filter_sublist.map _)

lemma stepKeeps_of_sublist {e : WorkerEvent} (hretries : s'.maxRetries = s.maxRetries)
    (hgiven : s'.enqueued = s.enqueued) (hsub : s'.openNumbers.Sublist s.openNumbers)
    (hstatus : s'.lastExtractionStatus =
      ((recording s.maxRetries e).map Prod.snd).getD s.lastExtractionStatus) :
    StepKeeps s s' e where
  retries := hretries
  numbered h := ⟨h.nodup.sublist hsub, fun n hn => hgiven ▸ h.lt n (hsub.subset hn)⟩
  status := hstatus
  given := hgiven.ge
  closed _ hn := Or.inl (hsub.subset hn)

lemma stepKeeps_step {e : WorkerEvent} (h : s.step e = some s') : StepKeeps s s' e := by
  cases e with
  | enqueue userMsg agentResponse sessionId =>
      rw [step] at h
      split_ifs at h
      obtain rfl := Option.some.inj h
      have hopen : ∀ m, m ∈ s.turnQueue.map ShadowTurn.number ++ [s.enqueued] ++
          s.inFlight.map ShadowTurn.number ↔ m ∈ s.openNumbers ∨ m = s.enqueued := by
        intro m
        simp only [openNumbers, List.mem_append, List.mem_singleton]
        tauto
      refine ⟨rfl, fun hs => ⟨?_, fun m hm => ?_⟩, rfl, Nat.le_succ _, fun m hm => ?_⟩
      · have hnew : s.enqueued ∉ s.openNumbers := fun hmem => lt_irrefl _ (hs.lt _ hmem)
        have hnodup := List.nodup_cons.mpr ⟨hnew, hs.nodup⟩
        rw [openNumbers, List.map_append]
        refine (List.Perm.nodup_iff ?_).mp hnodup
        rw [openNumbers, List.map_singleton, List.append_assoc, List.singleton_append]
        exact List.perm_middle.symm
      · rw [openNumbers, List.map_append] at hm
        rcases (hopen m).mp hm with hm | rfl
        · exact Nat.lt_succ_of_lt (hs.lt m hm)
        · exact Nat.lt_succ_self _
      · rw [openNumbers, List.map_append] at hm
        rcases (hopen m).mp hm with hm | rfl
        · exact Or.inl hm
        · exact Or.inr le_rfl
  | take number now =>
      rw [step] at h
      split at h
      · cases h
      · rename_i t rest hqueue
        split_ifs at h with hnumber
        obtain rfl := Option.some.inj h
        have hperm : s.openNumbers.Perm
            (rest.map ShadowTurn.number ++ (s.inFlight ++ [t]).map ShadowTurn.number) := by
          rw [openNumbers, hqueue, List.map_cons, List.map_append, List.map_singleton,
            List.cons_append, ← List.append_assoc]
          exact List.perm_append_singleton _ _ |>.symm
        exact ⟨rfl, fun hs => ⟨hperm.nodup_iff.mp hs.nodup, fun m hm =>
          hs.lt m (hperm.mem_iff.mpr hm)⟩, rfl, le_rfl, fun m hm =>
          Or.inl (hperm.mem_iff.mpr hm)⟩
  | extract number attempt now =>
      rw [step, Option.map_eq_some_iff] at h
      obtain ⟨t, -, rfl⟩ := h
      exact stepKeeps_of_sublist rfl rfl (List.Sublist.refl _) rfl
  | finish number keys =>
      rw [step, Option.map_eq_some_iff] at h
      obtain ⟨t, -, rfl⟩ := h
      exact stepKeeps_of_sublist rfl rfl (openNumbers_land_sublist s number) rfl
  | abort number =>
      rw [step, Option.map_eq_some_iff] at h
      obtain ⟨t, -, rfl⟩ := h
      exact stepKeeps_of_sublist rfl rfl (openNumbers_land_sublist s number) rfl
  | popCompleted =>
      obtain rfl := Option.some.inj h
      exact stepKeeps_of_sublist rfl rfl (List.Sublist.refl _) rfl

/-! ## Runs -/

/-- What a run from a new worker has reached. -/
structure Reached (maxRetries : ℕ) (events : List WorkerEvent) (s : ShadowWorker) : Prop where
  retries : s.maxRetries = maxRetries
  numbered : TurnsNumbered s
  status : ∀ n status, lastRecording maxRetries events = some (n, status) →
    s.lastExtractionStatus = status
  returned : ∀ n, Returned n events → n < s.enqueued ∧ n ∉ s.openNumbers

lemma returned_concat {e : WorkerEvent} {es : List WorkerEvent} :
    Returned n (es ++ [e]) ↔ Returned n es ∨ ∃ keys, e = .finish n keys := by
  simp only [Returned, List.mem_append, List.mem_singleton, exists_or, eq_comm]

/-- A turn whose reconciliation returns is not open any more. -/
lemma not_mem_openNumbers_of_finish (hs : TurnsNumbered s) {keys : List String}
    (h : s.step (.finish n keys) = some s') : n < s'.enqueued ∧ n ∉ s'.openNumbers := by
  rw [step, Option.map_eq_some_iff] at h
  obtain ⟨t, ht, rfl⟩ := h
  obtain ⟨hmem, hnumber⟩ := mem_of_flying ht
  have hin : n ∈ s.inFlight.map ShadowTurn.number := List.mem_map.mpr ⟨t, hmem, hnumber⟩
  refine ⟨hs.lt n (List.mem_append_right _ hin), fun hopen => ?_⟩
  rcases List.mem_append.mp hopen with hqueue | hland
  · exact List.disjoint_of_nodup_append hs.nodup hqueue hin
  · obtain ⟨t', ht', hnumber'⟩ := List.mem_map.mp hland
    exact (mem_land.mp ht').2 hnumber'

lemma reached_step {maxRetries : ℕ} {es : List WorkerEvent} {e : WorkerEvent}
    (h : Reached maxRetries es s) (hstep : s.step e = some s') :
    Reached maxRetries (es ++ [e]) s' := by
  have hkeeps := stepKeeps_step hstep
  refine ⟨hkeeps.retries.trans h.retries, hkeeps.numbered h.numbered, fun m status hlast => ?_,
    fun m hm => ?_⟩
  · rw [lastRecording_concat] at hlast
    rw [hkeeps.status, h.retries]
    cases hrec : recording maxRetries e with
    | none =>
        rw [hrec, Option.none_or] at hlast
        exact h.status m status hlast
    | some r =>
        rw [hrec, Option.some_or, Option.some.injEq] at hlast
        rw [hlast]
        rfl
  · rcases returned_concat.mp hm with hold | ⟨keys, rfl⟩
    · obtain ⟨hlt, hnot⟩ := h.returned m hold
      refine ⟨hlt.trans_le hkeeps.given, fun hopen => ?_⟩
      rcases hkeeps.closed m hopen with hopen | hle
      · exact hnot hopen
      · omega
    · exact not_mem_openNumbers_of_finish h.numbered hstep

/-- A run from a new worker keeps the numbers apart and the status the last recording. -/
lemma reached_run {maxRetries : ℕ} {events : List WorkerEvent}
    (h : (init maxRetries).run events = some s) : Reached maxRetries events s := by
  induction events using List.reverseRecOn generalizing s with
  | nil =>
      obtain rfl := Option.some.inj h
      exact ⟨rfl, ⟨List.nodup_nil, nofun⟩, nofun, fun _ hn => by
        obtain ⟨_, hmem⟩ := hn
        exact absurd hmem List.not_mem_nil⟩
  | append_singleton es e ih =>
      rw [run_concat, Option.bind_eq_some_iff] at h
      obtain ⟨s₁, hrun, hstep⟩ := h
      exact reached_step (ih hrun) hstep

def outcomeCount (n : ℕ) (outcomes : List TurnOutcome) : ℕ :=
  outcomes.countP fun o => decide (o.number = n)

lemma outcomes_concat {maxRetries : ℕ} {es : List WorkerEvent} {e : WorkerEvent}
    (hrun : (init maxRetries).run es = some s) :
    (init maxRetries).outcomes (es ++ [e]) =
      (init maxRetries).outcomes es ++ (s.yielded e).toList := by
  rw [outcomes_append hrun]
  refine congrArg (_ ++ ·) ?_
  rw [outcomes]
  cases s.step e with
  | none => exact List.append_nil _
  | some s' => exact List.append_nil _

/-- **Exactly one outcome.** A turn has one if its reconciliation has returned, and none before. -/
lemma outcomeCount_run {maxRetries : ℕ} {events : List WorkerEvent}
    (h : (init maxRetries).run events = some s) (n : ℕ) :
    (Returned n events → outcomeCount n ((init maxRetries).outcomes events) = 1) ∧
      (¬ Returned n events → outcomeCount n ((init maxRetries).outcomes events) = 0) := by
  induction events using List.reverseRecOn generalizing s with
  | nil => exact ⟨fun ⟨_, hmem⟩ => absurd hmem List.not_mem_nil, fun _ => rfl⟩
  | append_singleton es e ih =>
      rw [run_concat, Option.bind_eq_some_iff] at h
      obtain ⟨s₁, hrun, hstep⟩ := h
      obtain ⟨hone, hnone⟩ := ih hrun
      rw [outcomes_concat hrun, outcomeCount, List.countP_append]
      by_cases hfinish : ∃ keys, e = .finish n keys
      · -- the reconciliation of the turn returns here, and it has not before
        obtain ⟨keys, rfl⟩ := hfinish
        obtain ⟨t, ht⟩ : ∃ t, s₁.flying n = some t := by
          rw [step, Option.map_eq_some_iff] at hstep
          exact ⟨_, hstep.choose_spec.1⟩
        have hnot : ¬ Returned n es := by
          intro hold
          obtain ⟨hmem, hnumber⟩ := mem_of_flying ht
          exact ((reached_run hrun).returned n hold).2
            (List.mem_append_right _ (List.mem_map.mpr ⟨t, hmem, hnumber⟩))
        have hzero : ((init maxRetries).outcomes es).countP (fun o => decide (o.number = n)) = 0 :=
          hnone hnot
        rw [yielded_finish ht, hzero]
        exact ⟨fun _ => by simp, fun h => absurd (returned_concat.mpr (Or.inr ⟨keys, rfl⟩)) h⟩
      · have hsame : Returned n (es ++ [e]) ↔ Returned n es := by
          rw [returned_concat]
          exact or_iff_left hfinish
        have hother : (s₁.yielded e).toList.countP (fun o => decide (o.number = n)) = 0 := by
          cases e with
          | finish number keys =>
              obtain ⟨t, ht⟩ : ∃ t, s₁.flying number = some t := by
                rw [step, Option.map_eq_some_iff] at hstep
                exact ⟨_, hstep.choose_spec.1⟩
              have hne : number ≠ n := fun heq => hfinish ⟨keys, by rw [heq]⟩
              rw [yielded_finish ht]
              simp [hne]
          | enqueue userMsg agentResponse sessionId => rfl
          | take number now => rfl
          | extract number attempt now => rfl
          | abort number => rfl
          | popCompleted => rfl
        rw [hother, hsame]
        exact ⟨hone, hnone⟩

/-- **Shadow turn outcomes are isolated** in a run in which, between the last recording of a turn
and the return of its reconciliation, no other turn is taken up and no extraction of another turn
ends: every turn whose reconciliation returns has exactly one outcome, and the status in it is the
one that the turn recorded itself. -/
theorem outcomes_isolated {maxRetries : ℕ} {events : List WorkerEvent} {s : ShadowWorker}
    (hrun : (init maxRetries).run events = some s) (hquiet : Undisturbed maxRetries events) :
    (∀ n, (Returned n events → outcomeCount n ((init maxRetries).outcomes events) = 1) ∧
        (¬ Returned n events → outcomeCount n ((init maxRetries).outcomes events) = 0)) ∧
      ∀ pre n keys post, events = pre ++ .finish n keys :: post →
        ∃ o ∈ (init maxRetries).outcomes events, o.number = n ∧ o.committedKeys = keys ∧
          some o.extraction = ownStatus maxRetries pre n := by
  refine ⟨outcomeCount_run hrun, fun pre n keys post hsplit => ?_⟩
  have hlast := hquiet pre n keys post hsplit
  rw [Option.map_eq_some_iff] at hlast
  obtain ⟨⟨n', status⟩, hrec, heq⟩ := hlast
  obtain rfl : n' = n := heq
  rw [hsplit, run_append, Option.bind_eq_some_iff] at hrun
  obtain ⟨s₁, hpre, hpost⟩ := hrun
  rw [run, List.foldlM_cons, Option.bind_eq_bind, Option.bind_eq_some_iff] at hpost
  obtain ⟨s₂, hstep, -⟩ := hpost
  obtain ⟨t, ht⟩ : ∃ t, s₁.flying n' = some t := by
    rw [step, Option.map_eq_some_iff] at hstep
    exact ⟨_, hstep.choose_spec.1⟩
  refine ⟨⟨n', t.sessionId, keys, s₁.lastExtractionStatus⟩, ?_, rfl, rfl, ?_⟩
  · rw [hsplit, outcomes_append hpre]
    refine List.mem_append_right _ ?_
    rw [outcomes, yielded_finish ht]
    exact List.mem_append_left _ (List.mem_singleton_self _)
  · rw [ownStatus_of_lastRecording hrec, (reached_run hpre).status n' status hrec]

/-- A turn that the model answers, beside a turn whose extraction falls back after the first has
returned. -/
def quietTurns : List WorkerEvent :=
  [.enqueue "a" "" "s", .enqueue "b" "" "s", .take 0 1, .extract 0 (fun _ => .facts ["f"]) 2,
    .finish 0 ["k"], .take 1 3, .extract 1 (fun _ => .raised "timeout") 4, .finish 1 []]

theorem outcomes_isolated_quietTurns :
    ((init 3).outcomes quietTurns).map (fun o => (o.number, o.extraction.source)) =
      [(0, some "llm"), (1, some "regex_fallback")] ∧
    ∀ pre n keys post, quietTurns = pre ++ .finish n keys :: post →
        ∃ o ∈ (init 3).outcomes quietTurns, o.number = n ∧ o.committedKeys = keys ∧
          some o.extraction = ownStatus 3 pre n := by
  have hrun : ((init 3).run quietTurns).isSome = true := by decide
  obtain ⟨s, hs⟩ := Option.isSome_iff_exists.mp hrun
  refine ⟨by decide, (outcomes_isolated hs fun pre n keys post hsplit => ?_).2⟩
  have hget : quietTurns[pre.length]? = some (.finish n keys) := by
    rw [hsplit, List.getElem?_append_right le_rfl, Nat.sub_self]
    rfl
  have hpre : pre = quietTurns.take pre.length := by rw [hsplit, List.take_left]
  have hlt : pre.length < 8 := by
    by_contra hge
    rw [List.getElem?_eq_none (Nat.le_of_not_lt hge)] at hget
    cases hget
  generalize pre.length = i at hget hpre hlt
  -- only the fifth and the last event are the return of a reconciliation
  interval_cases i <;> cases hget <;>
  · rw [hpre]
    rfl

/-- **A fallback is reported as an answer of the model.** The extraction of the first turn falls
back, that of the second succeeds, and then the first turn's reconciliation returns. -/
theorem not_outcomes_isolated :
    ¬ ∀ (maxRetries : ℕ) (events : List WorkerEvent) (s : ShadowWorker),
      (init maxRetries).run events = some s → ∀ pre n keys post,
        events = pre ++ .finish n keys :: post →
          ∃ o ∈ (init maxRetries).outcomes events, o.number = n ∧
            some o.extraction = ownStatus maxRetries pre n := by
  intro h
  let before : List WorkerEvent :=
    [.enqueue "a" "" "s", .enqueue "b" "" "s", .take 0 1, .take 1 2,
      .extract 0 (fun _ => .raised "timeout") 3, .extract 1 (fun _ => .facts ["f"]) 4]
  have hrun : ((init 1).run (before ++ [.finish 0 []])).isSome = true := by decide
  obtain ⟨s, hs⟩ := Option.isSome_iff_exists.mp hrun
  obtain ⟨o, hmem, -, hown⟩ := h 1 (before ++ [.finish 0 []]) s hs before 0 [] [] rfl
  have hall : ∀ o ∈ (init 1).outcomes (before ++ [.finish 0 []]),
      some o.extraction ≠ ownStatus 1 before 0 := by decide
  exact hall o hmem hown

end ShadowWorker

end AtlasMemory
