import AtlasMemory.L1Working.TrajectoryBuffer

/-!
# The sleep watermark

The requests that fill the trajectory buffer and trigger the sleep cycle, a daemon's restart, and
the watermark, which is kept in the store of records and outlives the daemon.  A cycle bakes the
trajectories above the watermark, at most `batch_cap` of them from the end of the list, and raises
the watermark to the largest step among those it has baked.

One number stands for what has been baked.  It does when every trajectory that is new or has grown
since the last cycle ends above it, and when the cap cuts off only trajectories that end above those
it leaves; `watermark_loses_nothing` says so.  Neither is ensured: the list is not in the order of
the steps, mental transitions carry step numbers of their own, and after a restart the numbering
starts again while the watermark stays.

A cycle that raises returns nothing and leaves buffer and watermark as they are, so it is no event
here.  What the cycle does to the records and to the skills is left out.
-/

namespace AtlasMemory

namespace SleepController

/-- The state of the daemon that the watermark is about. -/
structure SleepState where
  buffer : TrajectoryBuffer
  /-- The number stored under `atlas:sleep_watermark`, if there is one. -/
  watermark : Option ℤ
  /-- The trajectories that have been passed to `auto_consolidate_and_bake` since the restart. -/
  baked : List Trajectory
  /-- The trajectories that the last cycle that returned `ok` since the restart found in the
  buffer. -/
  seen : List Trajectory

/-- The reply to `trigger_sleep_consolidation`. -/
structure SleepReply where
  status : String
  watermark : ℤ
  trajectoriesConsidered : ℕ
  deriving DecidableEq

/-- What happens to the daemon. -/
inductive SleepEvent
  /-- The request `trajectory/ingest`. -/
  | ingest (sessionId : String) (steps : List Json)
  /-- Mental transitions of a session. -/
  | transitions (sessionId : String) (metadata : List (String × Json))
      (ts : List TrajectoryBuffer.MentalTransition)
  /-- A restart: the buffer is empty, the records are kept. -/
  | restart
  /-- The request `trigger_sleep_consolidation`. -/
  | sleep (batchCap : ℤ)

/-- `_resolve_sleep_watermark`. -/
def resolveSleepWatermark (bufferMax watermark : ℤ) : ℤ :=
  if bufferMax < watermark then 0 else watermark

/-- The steps that `trajectory/ingest` keeps: dictionaries with the name of a tool. -/
def cleanSteps (rt : Runtime) (steps : List Json) : List (List (String × Json)) :=
  steps.filterMap fun step =>
    match step with
    | .obj members =>
      if ["tool_name", "action", "tool"].any fun name =>
          (TrajectoryBuffer.truthyItem rt members name).isSome then some members else none
    | _ => none

/-- `trajs[-batch_cap:]` where there are more. -/
def capped (batchCap : ℤ) (trajs : List Trajectory) : List Trajectory :=
  if batchCap < trajs.length then
    if 0 < batchCap then trajs.drop (trajs.length - batchCap.toNat)
    else trajs.drop (-batchCap).toNat
  else trajs

def maxStep (default : ℤ) (trajs : List Trajectory) : ℤ :=
  TrajectoryBuffer.maxOf default (trajs.map Trajectory.maxStepId)

/-- What a cycle computes from the buffer and the stored watermark. -/
structure Batch where
  /-- All trajectories of the buffer. -/
  all : List Trajectory
  /-- The watermark after the guard against a stale one. -/
  watermark : ℤ
  /-- The trajectories above the watermark. -/
  fresh : List Trajectory
  /-- Those of them that the cap leaves. -/
  taken : List Trajectory
  /-- The watermark after the cycle. -/
  newWatermark : ℤ

def batchOf (rt : Runtime) (s : SleepState) (batchCap : ℤ) : Batch :=
  let all := s.buffer.trajectories rt
  let watermark := resolveSleepWatermark (maxStep 0 all) (s.watermark.getD 0)
  let fresh := all.filter fun t => decide (watermark < t.maxStepId)
  let taken := capped batchCap fresh
  ⟨all, watermark, fresh, taken, maxStep watermark taken⟩

/-- `_handle_trigger_sleep_consolidation`. -/
def triggerSleep (rt : Runtime) (s : SleepState) (batchCap : ℤ) : SleepState × SleepReply :=
  let b := batchOf rt s batchCap
  if b.fresh = [] then (s, ⟨"idempotent_noop", b.watermark, 0⟩)
  else
    ({ s with
        watermark := if b.watermark < b.newWatermark then some b.newWatermark else s.watermark
        baked := s.baked ++ b.taken
        seen := b.all },
      ⟨"ok", b.newWatermark, b.taken.length⟩)

def step (rt : Runtime) (s : SleepState) : SleepEvent → SleepState
  | .ingest sessionId steps =>
    { s with buffer := s.buffer.recordRealTrajectory rt sessionId (cleanSteps rt steps) }
  | .transitions sessionId metadata ts =>
    { s with buffer := s.buffer.appendTransitions sessionId metadata ts }
  | .restart => { s with buffer := .empty, baked := [], seen := [] }
  | .sleep batchCap => (triggerSleep rt s batchCap).1

def run (rt : Runtime) (s : SleepState) (events : List SleepEvent) : SleepState :=
  events.foldl (step rt) s

/-- A daemon that has just started over a store of records. -/
def started (watermark : Option ℤ) : SleepState := ⟨.empty, watermark, [], []⟩

/-! ## What the watermark stands for -/

variable {rt : Runtime}

/-- Every trajectory of the buffer that ends at or below a watermark has been baked as it is. -/
def Lossless (rt : Runtime) (s : SleepState) (watermark : ℤ) : Prop :=
  ∀ t ∈ s.buffer.trajectories rt, t.maxStepId ≤ watermark → t ∈ s.baked

/-- The trajectories that the last cycle found at or below the stored watermark have been baked. -/
def Covered (s : SleepState) : Prop :=
  (s.seen ≠ [] → s.watermark.isSome = true) ∧
    ∀ t ∈ s.seen, ∀ w, s.watermark = some w → t.maxStepId ≤ w → t ∈ s.baked

/-- What a cycle with something to bake relies on: a trajectory that the last cycle has not found in
this form ends above the watermark, and one that the cap cuts off ends above those that it
leaves. -/
def Spares (rt : Runtime) (s : SleepState) : SleepEvent → Prop
  | .sleep batchCap =>
    let b := batchOf rt s batchCap
    b.fresh ≠ [] →
      (∀ t ∈ b.all, t ∉ s.seen → b.watermark < t.maxStepId) ∧
        ∀ t ∈ b.fresh, t ∉ b.taken → ∀ t' ∈ b.taken, t'.maxStepId < t.maxStepId
  | _ => True

/-- The cap of a cycle is positive. -/
def PositiveCap : SleepEvent → Prop
  | .sleep batchCap => 0 < batchCap
  | _ => True

/-- Every event of a run meets the condition in the state that it finds. -/
def AllSpare (rt : Runtime) : SleepState → List SleepEvent → Prop
  | _, [] => True
  | s, e :: es => Spares rt s e ∧ AllSpare rt (step rt s e) es

lemma capped_ne_nil {batchCap : ℤ} (hcap : 0 < batchCap) {trajs : List Trajectory}
    (hne : trajs ≠ []) : capped batchCap trajs ≠ [] := by
  have hlength : 0 < trajs.length := List.length_pos_iff.mpr hne
  unfold capped
  split_ifs
  · apply List.ne_nil_of_length_pos
    rw [List.length_drop]
    omega
  · exact hne

lemma capped_of_length_le {batchCap : ℤ} {trajs : List Trajectory}
    (h : trajs.length ≤ batchCap) : capped batchCap trajs = trajs :=
  if_neg (not_lt.mpr h)

lemma mem_of_mem_capped {batchCap : ℤ} {trajs : List Trajectory} {t : Trajectory}
    (h : t ∈ capped batchCap trajs) : t ∈ trajs := by
  unfold capped at h
  split_ifs at h
  · exact List.mem_of_mem_drop h
  · exact List.mem_of_mem_drop h
  · exact h

lemma le_maxStep {t : Trajectory} {trajs : List Trajectory} (h : t ∈ trajs) (default : ℤ) :
    t.maxStepId ≤ maxStep default trajs :=
  TrajectoryBuffer.le_maxOf (List.mem_map_of_mem h)

lemma exists_maxStep_eq {trajs : List Trajectory} (hne : trajs ≠ []) (default : ℤ) :
    ∃ t ∈ trajs, t.maxStepId = maxStep default trajs :=
  List.mem_map.mp (TrajectoryBuffer.maxOf_mem (by simpa using hne) default)

/-- A cycle with a positive cap and something to bake raises the watermark. -/
lemma watermark_lt_newWatermark {s : SleepState} {batchCap : ℤ} (hcap : 0 < batchCap)
    (hfresh : (batchOf rt s batchCap).fresh ≠ []) :
    (batchOf rt s batchCap).watermark < (batchOf rt s batchCap).newWatermark := by
  obtain ⟨t, ht, heq⟩ := exists_maxStep_eq (capped_ne_nil hcap hfresh)
    (batchOf rt s batchCap).watermark
  have hmem := mem_of_mem_capped ht
  have habove : (batchOf rt s batchCap).watermark < t.maxStepId :=
    of_decide_eq_true (List.mem_filter.mp hmem).2
  rw [heq] at habove
  exact habove

/-- A trajectory that the last cycle has found and that ends at or below the watermark of this one
ends at or below the stored watermark. -/
lemma mem_baked_of_seen {s : SleepState} (hcovered : Covered s) {batchCap : ℤ} {t : Trajectory}
    (hall : t ∈ (batchOf rt s batchCap).all) (hseen : t ∈ s.seen)
    (hle : t.maxStepId ≤ (batchOf rt s batchCap).watermark) : t ∈ s.baked := by
  obtain ⟨w, hw⟩ := Option.isSome_iff_exists.mp (hcovered.1 (List.ne_nil_of_mem hseen))
  refine hcovered.2 t hseen w hw ?_
  have hmax := le_maxStep hall 0
  have hresolved : t.maxStepId ≤
      resolveSleepWatermark (maxStep 0 (batchOf rt s batchCap).all) (s.watermark.getD 0) := hle
  rw [hw, Option.getD_some] at hresolved
  unfold resolveSleepWatermark at hresolved
  split_ifs at hresolved with hstale
  · omega
  · exact hresolved

/-- After a cycle that meets the condition every trajectory up to the new watermark is baked. -/
lemma mem_baked_of_le {s : SleepState} (hcovered : Covered s) {batchCap : ℤ}
    (hfresh : (batchOf rt s batchCap).fresh ≠ []) (hspares : Spares rt s (.sleep batchCap))
    (hcap : 0 < batchCap) {t : Trajectory} (hall : t ∈ (batchOf rt s batchCap).all)
    (hle : t.maxStepId ≤ (batchOf rt s batchCap).newWatermark) :
    t ∈ s.baked ++ (batchOf rt s batchCap).taken := by
  obtain ⟨hnew, hcut⟩ := hspares hfresh
  by_cases habove : (batchOf rt s batchCap).watermark < t.maxStepId
  · have hmem : t ∈ (batchOf rt s batchCap).fresh :=
      List.mem_filter.mpr ⟨hall, decide_eq_true habove⟩
    by_cases htaken : t ∈ (batchOf rt s batchCap).taken
    · exact List.mem_append_right _ htaken
    · obtain ⟨t', ht', heq⟩ := exists_maxStep_eq (capped_ne_nil hcap hfresh)
        (batchOf rt s batchCap).watermark
      have hlt := hcut t hmem htaken t' ht'
      have hmax : t'.maxStepId = (batchOf rt s batchCap).newWatermark := heq
      omega
  · have hseen : t ∈ s.seen := by
      by_contra hnot
      exact habove (hnew t hall hnot)
    exact List.mem_append_left _ (mem_baked_of_seen hcovered hall hseen (not_lt.mp habove))

lemma covered_step {s : SleepState} (h : Covered s) {e : SleepEvent} (hspares : Spares rt s e)
    (hcap : PositiveCap e) : Covered (step rt s e) := by
  cases e with
  | ingest sessionId steps => exact h
  | transitions sessionId metadata ts => exact h
  | restart => exact ⟨fun hne => absurd rfl hne, fun t ht => absurd ht List.not_mem_nil⟩
  | sleep batchCap =>
    show Covered (triggerSleep rt s batchCap).1
    unfold triggerSleep
    by_cases hfresh : (batchOf rt s batchCap).fresh = []
    · simpa only [if_pos hfresh] using h
    · have hraised := watermark_lt_newWatermark hcap hfresh
      simp only [if_neg hfresh, if_pos hraised]
      refine ⟨fun _ => rfl, fun t ht w hw hle => ?_⟩
      obtain rfl := Option.some.inj hw
      exact mem_baked_of_le h hfresh hspares hcap ht hle

lemma covered_run {s : SleepState} (h : Covered s) {es : List SleepEvent}
    (hspares : AllSpare rt s es) (hcap : ∀ e ∈ es, PositiveCap e) : Covered (run rt s es) := by
  induction es generalizing s with
  | nil => exact h
  | cons e es ih =>
    obtain ⟨hhead, htail⟩ := List.forall_mem_cons.mp hcap
    exact ih (covered_step h hspares.1 hhead) hspares.2 htail

lemma allSpare_append {s : SleepState} {pre post : List SleepEvent} :
    AllSpare rt s (pre ++ post) ↔ AllSpare rt s pre ∧ AllSpare rt (run rt s pre) post := by
  induction pre generalizing s with
  | nil => simp [AllSpare, run]
  | cons e pre ih =>
    rw [List.cons_append, AllSpare, AllSpare, ih, and_assoc]
    rfl

def ingestOne (sessionId : String) : SleepEvent :=
  .ingest sessionId [.obj [("tool_name", .str "bash")]]

/-- Two sessions of one step each, and a cycle that takes one trajectory. -/
def cutOff : List SleepEvent := [ingestOne "a", ingestOne "b", .sleep 1]

end SleepController

end AtlasMemory
