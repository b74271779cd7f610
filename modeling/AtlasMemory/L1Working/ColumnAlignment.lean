import AtlasMemory.L1Working.TrajectoryBuffer
import Mathlib.Tactic.Ring

/-!
# The columns of the trajectory buffer

`ArrowTrajectoryBuffer` with all its columns and every call that writes them.  A step is written
column by column, and the conversions between the appends may raise: the parameters of a real step
and the metadata are serialised last, the vector of a mental step is assigned after the first three
appends.  A call that raises there keeps what it has written, and the view by sessions pairs the
columns from the front.

The objects that a step carries are abstract, with the conversions that the buffer applies to them.
The doubling of the vector array is left out: the array is unbounded here.
-/

namespace AtlasMemory

/-- The conversions of Python objects that the buffer relies on; `none` where one raises. -/
structure ObjectEnv (ρ : Type) where
  truthy : ρ → Bool
  /-- `str`. -/
  text : ρ → String
  emptyDict : ρ
  /-- `dict(x)`. -/
  dictOf : ρ → Option ρ
  /-- `json.dumps(x)`. -/
  dumps : ρ → Option String
  /-- `json.dumps` of the metadata of a real step, from its success, parameters and error. -/
  dumpsReal : Bool → ρ → Option ρ → Option String

/-- An element of the list of real steps: a dictionary, by its items, or something else. -/
inductive StepArgument (ρ : Type)
  | dict (items : List (String × ρ))
  | other

/-- A `PredictedTransition`, by the fields that the buffer reads. -/
structure PredictedTransition where
  stepIndex : ℤ
  timestamp : ℚ
  vector : List ℚ
  actionName : String
  simulatedReward : ℚ
  uncertainty : ℚ

/-- `ArrowTrajectoryBuffer`. -/
structure ArrowTrajectoryBuffer where
  stateDim : ℕ
  steps : List ℤ
  timestamps : List ℚ
  sessionIds : List String
  latentArray : ℕ → List ℚ
  actionNames : List String
  rewards : List ℚ
  uncertainties : List ℚ
  metadataJsons : List String

/-- A call that writes the buffer. -/
inductive BufferCall (ρ : Type)
  | recordRealTrajectory (now : ℚ) (steps : List (StepArgument ρ)) (sessionId : String)
  | appendTransition (transition : PredictedTransition) (sessionId : String) (metadata : ρ)
  | appendTransitions (transitions : List PredictedTransition) (sessionId : String) (metadata : ρ)
  | clear

namespace ArrowTrajectoryBuffer

variable {ρ : Type}

def new (stateDim : ℕ) : ArrowTrajectoryBuffer :=
  ⟨stateDim, [], [], [], fun _ => List.replicate stateDim 0, [], [], [], []⟩

/-! ## The appends -/

def openRow (b : ArrowTrajectoryBuffer) (stepId : ℤ) (timestamp : ℚ) (sessionId : String) :
    ArrowTrajectoryBuffer :=
  { b with
    steps := b.steps ++ [stepId]
    timestamps := b.timestamps ++ [timestamp]
    sessionIds := b.sessionIds ++ [sessionId] }

/-- `_latent_array[i, :] = row`. -/
def setLatent (b : ArrowTrajectoryBuffer) (i : ℕ) (row : List ℚ) : ArrowTrajectoryBuffer :=
  { b with latentArray := Function.update b.latentArray i row }

/-- The appends between the vector and the metadata. -/
def closeRow (b : ArrowTrajectoryBuffer) (actionName : String) (reward uncertainty : ℚ) :
    ArrowTrajectoryBuffer :=
  { b with
    actionNames := b.actionNames ++ [actionName]
    rewards := b.rewards ++ [reward]
    uncertainties := b.uncertainties ++ [uncertainty] }

def pushMetadata (b : ArrowTrajectoryBuffer) (text : String) : ArrowTrajectoryBuffer :=
  { b with metadataJsons := b.metadataJsons ++ [text] }

/-- The row that a vector becomes where it is assigned: it has the length of the row, or one element,
which fills the row; another length raises. -/
def broadcast (stateDim : ℕ) (vector : List ℚ) : Option (List ℚ) :=
  if vector.length = stateDim then some vector
  else match vector with
    | [x] => some (List.replicate stateDim x)
    | _ => none

/-! ## The calls -/

/-- `step.get(name)` where it is truthy. -/
def item (env : ObjectEnv ρ) (step : List (String × ρ)) (name : String) : Option ρ :=
  (PyDict.find name step).filter fun v => env.truthy v

def toolName (env : ObjectEnv ρ) (step : List (String × ρ)) : String :=
  (((item env step "tool_name").orElse fun _ => (item env step "action").orElse fun _ =>
    (item env step "tool").orElse fun _ => item env step "name").map env.text).getD "unknown_tool"

/-- `bool(step.get("success", True))`. -/
def succeeded (env : ObjectEnv ρ) (step : List (String × ρ)) : Bool :=
  ((PyDict.find "success" step).map env.truthy).getD true

/-- The metadata of a real step; `none` when they raise. -/
def stepMetadata (env : ObjectEnv ρ) (step : List (String × ρ)) : Option String :=
  (env.dictOf ((item env step "parameters").getD env.emptyDict)).bind fun parameters =>
    env.dumpsReal (succeeded env step) parameters (PyDict.find "error" step)

/-- The loop of `record_real_trajectory`, from its `i`-th step on; the flag says that it raised. -/
def recordFrom (env : ObjectEnv ρ) (base : ℕ) (now : ℚ) (sessionId : String) :
    ℕ → List (StepArgument ρ) → ArrowTrajectoryBuffer → ArrowTrajectoryBuffer × Bool
  | _, [], b => (b, false)
  | _, .other :: _, b => (b, true)
  | i, .dict step :: rest, b =>
    let written :=
      ((b.openRow (base + i + 1) (now + i * (1 / 1000)) sessionId).setLatent (base + i)
        (List.replicate b.stateDim 0)).closeRow (toolName env step)
        (if succeeded env step then 1 else -1) 0
    match stepMetadata env step with
    | none => (written, true)
    | some text => recordFrom env base now sessionId (i + 1) rest (written.pushMetadata text)

/-- `json.dumps(metadata or {})`. -/
def metadataText (env : ObjectEnv ρ) (metadata : ρ) : Option String :=
  env.dumps (if env.truthy metadata then metadata else env.emptyDict)

/-- `append_transition`. -/
def appendTransition (env : ObjectEnv ρ) (b : ArrowTrajectoryBuffer) (t : PredictedTransition)
    (sessionId : String) (metadata : ρ) : ArrowTrajectoryBuffer × Bool :=
  let opened := b.openRow t.stepIndex t.timestamp sessionId
  match broadcast b.stateDim t.vector with
  | none => (opened, true)
  | some row =>
    let written :=
      (opened.setLatent b.steps.length row).closeRow t.actionName t.simulatedReward t.uncertainty
    match metadataText env metadata with
    | none => (written, true)
    | some text => (written.pushMetadata text, false)

/-- The loop of `append_transitions`, from its `i`-th transition on. -/
def appendFrom (base : ℕ) (sessionId text : String) :
    ℕ → List PredictedTransition → ArrowTrajectoryBuffer → ArrowTrajectoryBuffer × Bool
  | _, [], b => (b, false)
  | i, t :: rest, b =>
    let opened := b.openRow t.stepIndex t.timestamp sessionId
    match broadcast b.stateDim t.vector with
    | none => (opened, true)
    | some row =>
      appendFrom base sessionId text (i + 1) rest
        (((opened.setLatent (base + i) row).closeRow t.actionName t.simulatedReward
          t.uncertainty).pushMetadata text)

/-- `append_transitions`. -/
def appendTransitions (env : ObjectEnv ρ) (b : ArrowTrajectoryBuffer)
    (ts : List PredictedTransition) (sessionId : String) (metadata : ρ) :
    ArrowTrajectoryBuffer × Bool :=
  if ts = [] then (b, false)
  else match metadataText env metadata with
    | none => (b, true)
    | some text => appendFrom b.steps.length sessionId text 0 ts b

/-- A call: the buffer after it, and whether it raised. -/
def step (env : ObjectEnv ρ) (b : ArrowTrajectoryBuffer) :
    BufferCall ρ → ArrowTrajectoryBuffer × Bool
  | .recordRealTrajectory now steps sessionId =>
    recordFrom env b.steps.length now sessionId 0 steps b
  | .appendTransition t sessionId metadata => appendTransition env b t sessionId metadata
  | .appendTransitions ts sessionId metadata => appendTransitions env b ts sessionId metadata
  | .clear => (new b.stateDim, false)

/-- A run of calls; a call that raises is over, and the next one comes. -/
def run (env : ObjectEnv ρ) (b : ArrowTrajectoryBuffer) (calls : List (BufferCall ρ)) :
    ArrowTrajectoryBuffer :=
  calls.foldl (fun b c => (step env b c).1) b

/-- The columns that `trajectories` zips, from the front. -/
def zipped (b : ArrowTrajectoryBuffer) : List (StepRow × String) :=
  ((b.sessionIds.zip (b.steps.zip (b.actionNames.zip b.rewards))).map fun r =>
    (⟨r.1, r.2.1, r.2.2.1, r.2.2.2⟩ : StepRow)).zip b.metadataJsons

/-- The part of the buffer that the view by sessions reads. -/
def sessionView (b : ArrowTrajectoryBuffer) : TrajectoryBuffer :=
  ⟨b.zipped.map Prod.fst, b.zipped.map Prod.snd⟩

/-- `trajectories`. -/
def trajectories (rt : Runtime) (b : ArrowTrajectoryBuffer) : List Trajectory :=
  b.sessionView.trajectories rt

/-! ## The entries of a run

What the buffer is for: a list of entries, one for each step, with all its columns. -/

/-- A step with all its columns. -/
structure Entry where
  stepId : ℤ
  timestamp : ℚ
  sessionId : String
  latent : List ℚ
  actionName : String
  reward : ℚ
  uncertainty : ℚ
  metadataJson : String

/-- The columns are those of the entries. -/
structure Represents (d : ℕ) (b : ArrowTrajectoryBuffer) (es : List Entry) : Prop where
  stateDim : b.stateDim = d
  steps : b.steps = es.map Entry.stepId
  timestamps : b.timestamps = es.map Entry.timestamp
  sessionIds : b.sessionIds = es.map Entry.sessionId
  latents : ∀ (i : ℕ) (e : Entry), es[i]? = some e → b.latentArray i = e.latent
  actionNames : b.actionNames = es.map Entry.actionName
  rewards : b.rewards = es.map Entry.reward
  uncertainties : b.uncertainties = es.map Entry.uncertainty
  metadataJsons : b.metadataJsons = es.map Entry.metadataJson

/-- All columns have one length. -/
structure Aligned (b : ArrowTrajectoryBuffer) : Prop where
  timestamps : b.timestamps.length = b.steps.length
  sessionIds : b.sessionIds.length = b.steps.length
  actionNames : b.actionNames.length = b.steps.length
  rewards : b.rewards.length = b.steps.length
  uncertainties : b.uncertainties.length = b.steps.length
  metadataJsons : b.metadataJsons.length = b.steps.length

def Entry.shown (e : Entry) : StepRow × String :=
  (⟨e.sessionId, e.stepId, e.actionName, e.reward⟩, e.metadataJson)

def realEntry (env : ObjectEnv ρ) (d base : ℕ) (now : ℚ) (sessionId : String) (i : ℕ)
    (step : List (String × ρ)) (text : String) : Entry where
  stepId := base + i + 1
  timestamp := now + i * (1 / 1000)
  sessionId := sessionId
  latent := List.replicate d 0
  actionName := toolName env step
  reward := if succeeded env step then 1 else -1
  uncertainty := 0
  metadataJson := text

/-- The entries of real steps, up to the first that is malformed. -/
def realEntries (env : ObjectEnv ρ) (d base : ℕ) (now : ℚ) (sessionId : String) :
    ℕ → List (StepArgument ρ) → List Entry
  | _, [] => []
  | _, .other :: _ => []
  | i, .dict step :: rest =>
    match stepMetadata env step with
    | none => []
    | some text =>
      realEntry env d base now sessionId i step text ::
        realEntries env d base now sessionId (i + 1) rest

/-- The entry of a mental step whose vector fits. -/
def mentalEntry (d : ℕ) (sessionId text : String) (t : PredictedTransition) : Option Entry :=
  (broadcast d t.vector).map fun row =>
    ⟨t.stepIndex, t.timestamp, sessionId, row, t.actionName, t.simulatedReward, t.uncertainty, text⟩

/-- The entries that a call adds after `base` entries. -/
def entriesOf (env : ObjectEnv ρ) (d base : ℕ) : BufferCall ρ → List Entry
  | .recordRealTrajectory now steps sessionId => realEntries env d base now sessionId 0 steps
  | .appendTransition t sessionId metadata =>
    ((metadataText env metadata).bind fun text => mentalEntry d sessionId text t).toList
  | .appendTransitions ts sessionId metadata =>
    ((metadataText env metadata).map fun text => ts.filterMap (mentalEntry d sessionId text)).getD []
  | .clear => []

def ledgerStep (env : ObjectEnv ρ) (d : ℕ) (es : List Entry) (c : BufferCall ρ) : List Entry :=
  match c with
  | .clear => []
  | c => es ++ entriesOf env d es.length c

def ledger (env : ObjectEnv ρ) (d : ℕ) (calls : List (BufferCall ρ)) : List Entry :=
  calls.foldl (ledgerStep env d) []

/-- A real step that is written to its end. -/
def WellFormed (env : ObjectEnv ρ) (s : StepArgument ρ) : Prop :=
  ∃ items, s = .dict items ∧ (stepMetadata env items).isSome = true

def Fits (d : ℕ) (t : PredictedTransition) : Prop := (broadcast d t.vector).isSome = true

/-- A call that is written to its end, or that raises before it writes. -/
def Harmless (env : ObjectEnv ρ) (d : ℕ) : BufferCall ρ → Prop
  | .recordRealTrajectory _ steps _ =>
    (∀ s ∈ steps, WellFormed env s) ∨ steps.head? = some .other
  | .appendTransition t _ metadata => Fits d t ∧ (metadataText env metadata).isSome = true
  | .appendTransitions ts _ metadata => metadataText env metadata = none ∨ ∀ t ∈ ts, Fits d t
  | .clear => True

/-- A call after which the columns have one length, and which leaves the buffer as it was where it
raises. -/
def CallKeeps (env : ObjectEnv ρ) (b : ArrowTrajectoryBuffer) (c : BufferCall ρ) : Prop :=
  ((step env b c).2 = true → (step env b c).1 = b) ∧ Aligned (step env b c).1

/-! ## A whole entry -/

/-- The appends of one entry, each column at its end. -/
def push (b : ArrowTrajectoryBuffer) (e : Entry) : ArrowTrajectoryBuffer :=
  (((b.openRow e.stepId e.timestamp e.sessionId).setLatent b.steps.length e.latent).closeRow
    e.actionName e.reward e.uncertainty).pushMetadata e.metadataJson

lemma represents_new (d : ℕ) : Represents d (new d) [] where
  stateDim := rfl
  steps := rfl
  timestamps := rfl
  sessionIds := rfl
  latents i e h := by simp at h
  actionNames := rfl
  rewards := rfl
  uncertainties := rfl
  metadataJsons := rfl

lemma Represents.length_steps {d : ℕ} {b : ArrowTrajectoryBuffer} {es : List Entry}
    (h : Represents d b es) : b.steps.length = es.length := by
  rw [h.steps, List.length_map]

/-- A whole entry keeps the columns those of the entries. -/
lemma Represents.push {d : ℕ} {b : ArrowTrajectoryBuffer} {es : List Entry}
    (h : Represents d b es) (e : Entry) : Represents d (b.push e) (es ++ [e]) where
  stateDim := h.stateDim
  steps := by simp [ArrowTrajectoryBuffer.push, openRow, setLatent, closeRow, pushMetadata, h.steps]
  timestamps := by
    simp [ArrowTrajectoryBuffer.push, openRow, setLatent, closeRow, pushMetadata, h.timestamps]
  sessionIds := by
    simp [ArrowTrajectoryBuffer.push, openRow, setLatent, closeRow, pushMetadata, h.sessionIds]
  latents i e' hi := by
    show Function.update b.latentArray b.steps.length e.latent i = e'.latent
    have hlen : b.steps.length = es.length := h.length_steps
    rcases lt_trichotomy i es.length with hlt | heq | hgt
    · rw [Function.update_of_ne (by omega)]
      rw [List.getElem?_append_left hlt] at hi
      exact h.latents i e' hi
    · subst heq
      rw [List.getElem?_concat_length] at hi
      rw [hlen, Function.update_self, Option.some.inj hi]
    · have : (es ++ [e])[i]? = none := List.getElem?_eq_none (by simp; omega)
      rw [this] at hi
      exact absurd hi (by simp)
  actionNames := by
    simp [ArrowTrajectoryBuffer.push, openRow, setLatent, closeRow, pushMetadata, h.actionNames]
  rewards := by
    simp [ArrowTrajectoryBuffer.push, openRow, setLatent, closeRow, pushMetadata, h.rewards]
  uncertainties := by
    simp [ArrowTrajectoryBuffer.push, openRow, setLatent, closeRow, pushMetadata, h.uncertainties]
  metadataJsons := by
    simp [ArrowTrajectoryBuffer.push, openRow, setLatent, closeRow, pushMetadata, h.metadataJsons]

lemma Represents.aligned {d : ℕ} {b : ArrowTrajectoryBuffer} {es : List Entry}
    (h : Represents d b es) : Aligned b := by
  constructor <;>
    simp [h.steps, h.timestamps, h.sessionIds, h.actionNames, h.rewards, h.uncertainties,
      h.metadataJsons]

/-- The view of the columns of entries shows each entry as a whole. -/
lemma Represents.zipped {d : ℕ} {b : ArrowTrajectoryBuffer} {es : List Entry}
    (h : Represents d b es) : b.zipped = es.map Entry.shown := by
  simp only [ArrowTrajectoryBuffer.zipped, h.sessionIds, h.steps, h.actionNames, h.rewards,
    h.metadataJsons, List.zip_map', List.map_map]
  exact List.map_congr_left fun e _ => rfl

/-! ## Real steps -/

/-- Steps that are all well formed become their entries. -/
lemma recordFrom_wellFormed (env : ObjectEnv ρ) {d base : ℕ} (now : ℚ) (sessionId : String)
    {i : ℕ} {steps : List (StepArgument ρ)} {b : ArrowTrajectoryBuffer} {es : List Entry}
    (hb : Represents d b es) (hlen : es.length = base + i) (hs : ∀ s ∈ steps, WellFormed env s) :
    (recordFrom env base now sessionId i steps b).2 = false ∧
      Represents d (recordFrom env base now sessionId i steps b).1
        (es ++ realEntries env d base now sessionId i steps) := by
  induction steps generalizing i b es with
  | nil => exact ⟨rfl, by simpa [realEntries, recordFrom] using hb⟩
  | cons s rest ih =>
    obtain ⟨items, rfl, htext⟩ := hs s List.mem_cons_self
    obtain ⟨text, htext⟩ := Option.isSome_iff_exists.mp htext
    have hpush := hb.push (realEntry env d base now sessionId i items text)
    have hrec := ih (i := i + 1) hpush (by simp [hlen]; omega)
      fun s' hs' => hs s' (List.mem_cons_of_mem _ hs')
    have hstep : recordFrom env base now sessionId i (.dict items :: rest) b =
        recordFrom env base now sessionId (i + 1) rest
          (b.push (realEntry env d base now sessionId i items text)) := by
      simp only [recordFrom, htext, push, realEntry, hb.stateDim, hb.length_steps, hlen]
    rw [hstep, realEntries]
    simp only [htext]
    rw [List.append_cons]
    exact hrec

lemma length_le_recordFrom (env : ObjectEnv ρ) (base : ℕ) (now : ℚ) (sessionId : String) (i : ℕ)
    (steps : List (StepArgument ρ)) (b : ArrowTrajectoryBuffer) :
    b.steps.length ≤ (recordFrom env base now sessionId i steps b).1.steps.length := by
  induction steps generalizing i b with
  | nil => exact le_rfl
  | cons s rest ih =>
    match s with
    | .other => exact le_rfl
    | .dict items =>
      rw [recordFrom]
      cases stepMetadata env items with
      | none => simp [openRow, setLatent, closeRow]
      | some text =>
        refine le_trans ?_ (ih (i + 1) _)
        simp [openRow, setLatent, closeRow, pushMetadata]

/-- A first step that is a dictionary is written, at least in part. -/
lemma length_lt_recordFrom (env : ObjectEnv ρ) (base : ℕ) (now : ℚ) (sessionId : String) (i : ℕ)
    (items : List (String × ρ)) (rest : List (StepArgument ρ)) (b : ArrowTrajectoryBuffer) :
    b.steps.length <
      (recordFrom env base now sessionId i (.dict items :: rest) b).1.steps.length := by
  rw [recordFrom]
  cases stepMetadata env items with
  | none => simp [openRow, setLatent, closeRow]
  | some text =>
    refine lt_of_lt_of_le ?_ (length_le_recordFrom env base now sessionId (i + 1) rest _)
    simp [openRow, setLatent, closeRow, pushMetadata]

lemma recordFrom_raises (env : ObjectEnv ρ) (base : ℕ) (now : ℚ) (sessionId : String) (i : ℕ)
    {steps : List (StepArgument ρ)} (b : ArrowTrajectoryBuffer)
    (hs : ¬ ∀ s ∈ steps, WellFormed env s) :
    (recordFrom env base now sessionId i steps b).2 = true := by
  induction steps generalizing i b with
  | nil => exact absurd (fun s hs => absurd hs List.not_mem_nil) hs
  | cons s rest ih =>
    match s with
    | .other => rfl
    | .dict items =>
      rw [recordFrom]
      cases htext : stepMetadata env items with
      | none => rfl
      | some text =>
        refine ih (i + 1) _ fun hrest => hs ?_
        rw [List.forall_mem_cons]
        exact ⟨⟨items, rfl, by simp [htext]⟩, hrest⟩

/-! ## Mental steps -/

/-- Transitions whose vectors all fit become their entries. -/
lemma appendFrom_fits {d base : ℕ} (sessionId text : String) {i : ℕ}
    {ts : List PredictedTransition} {b : ArrowTrajectoryBuffer} {es : List Entry}
    (hb : Represents d b es) (hlen : es.length = base + i) (hs : ∀ t ∈ ts, Fits d t) :
    (appendFrom base sessionId text i ts b).2 = false ∧
      Represents d (appendFrom base sessionId text i ts b).1
        (es ++ ts.filterMap (mentalEntry d sessionId text)) := by
  induction ts generalizing i b es with
  | nil => exact ⟨rfl, by simpa [appendFrom] using hb⟩
  | cons t rest ih =>
    obtain ⟨row, hrow⟩ := Option.isSome_iff_exists.mp (hs t List.mem_cons_self)
    have hentry : mentalEntry d sessionId text t = some ⟨t.stepIndex, t.timestamp, sessionId, row,
        t.actionName, t.simulatedReward, t.uncertainty, text⟩ := by
      rw [mentalEntry, hrow, Option.map_some]
    have hpush := hb.push ⟨t.stepIndex, t.timestamp, sessionId, row, t.actionName,
      t.simulatedReward, t.uncertainty, text⟩
    have hrec := ih (i := i + 1) hpush (by simp [hlen]; omega)
      fun t' ht' => hs t' (List.mem_cons_of_mem _ ht')
    have hstep : appendFrom base sessionId text i (t :: rest) b =
        appendFrom base sessionId text (i + 1) rest (b.push ⟨t.stepIndex, t.timestamp, sessionId,
          row, t.actionName, t.simulatedReward, t.uncertainty, text⟩) := by
      simp only [appendFrom, push, hb.stateDim, hrow, hb.length_steps, hlen]
    rw [hstep, List.filterMap_cons_some hentry, List.append_cons]
    exact hrec

/-- A vector that does not fit makes the call raise, and the call has written. -/
lemma appendFrom_raises {d : ℕ} (base : ℕ) (sessionId text : String) (i : ℕ)
    {ts : List PredictedTransition} {b : ArrowTrajectoryBuffer} (hd : b.stateDim = d)
    (hs : ¬ ∀ t ∈ ts, Fits d t) :
    (appendFrom base sessionId text i ts b).2 = true ∧
      b.steps.length < (appendFrom base sessionId text i ts b).1.steps.length := by
  induction ts generalizing i b with
  | nil => exact absurd (fun t ht => absurd ht List.not_mem_nil) hs
  | cons t rest ih =>
    rw [appendFrom]
    cases hrow : broadcast b.stateDim t.vector with
    | none => exact ⟨rfl, by simp [openRow]⟩
    | some row =>
      have hfit : Fits d t := by rw [Fits, ← hd, hrow, Option.isSome_some]
      have hrest : ¬ ∀ t ∈ rest, Fits d t := fun h => hs (List.forall_mem_cons.mpr ⟨hfit, h⟩)
      obtain ⟨hraised, hlen⟩ := ih (i + 1) (b := (((b.openRow t.stepIndex t.timestamp
        sessionId).setLatent (base + i) row).closeRow t.actionName t.simulatedReward
          t.uncertainty).pushMetadata text) hd hrest
      refine ⟨hraised, lt_of_le_of_lt ?_ hlen⟩
      simp [openRow, setLatent, closeRow, pushMetadata]

/-! ## One call -/

/-- A harmless call keeps the columns those of the entries, with the entries that it adds. -/
lemma represents_step (env : ObjectEnv ρ) {d : ℕ} {b : ArrowTrajectoryBuffer} {es : List Entry}
    (hb : Represents d b es) {c : BufferCall ρ} (hc : Harmless env d c) :
    Represents d (step env b c).1 (ledgerStep env d es c) ∧
      ((step env b c).2 = true → (step env b c).1 = b) := by
  match c with
  | .clear =>
    refine ⟨?_, fun h => absurd h Bool.false_ne_true⟩
    show Represents d (new b.stateDim) []
    rw [hb.stateDim]
    exact represents_new d
  | .recordRealTrajectory now steps sessionId =>
    rcases hc with hc | hc
    · obtain ⟨hraised, hrep⟩ := recordFrom_wellFormed env now sessionId (i := 0) hb
        (Nat.add_zero _).symm hc
      refine ⟨?_, fun h => ?_⟩
      · simpa only [step, hb.length_steps, ledgerStep, entriesOf] using hrep
      · simp only [step, hb.length_steps, hraised, Bool.false_eq_true] at h
    · obtain ⟨rest, rfl⟩ := List.head?_eq_some_iff.mp hc
      refine ⟨?_, fun _ => rfl⟩
      simpa [step, ledgerStep, entriesOf, realEntries, recordFrom] using hb
  | .appendTransition t sessionId metadata =>
    obtain ⟨hfit, htext⟩ := hc
    obtain ⟨row, hrow⟩ := Option.isSome_iff_exists.mp hfit
    obtain ⟨text, htext⟩ := Option.isSome_iff_exists.mp htext
    have hpush := hb.push ⟨t.stepIndex, t.timestamp, sessionId, row, t.actionName,
      t.simulatedReward, t.uncertainty, text⟩
    refine ⟨?_, fun h => ?_⟩
    · simpa [step, ledgerStep, entriesOf, mentalEntry, appendTransition, hb.stateDim, hrow, htext,
        push] using hpush
    · simp [step, appendTransition, hb.stateDim, hrow, htext] at h
  | .appendTransitions ts sessionId metadata =>
    rcases hc with htext | hc
    · have hkeep : (step env b (.appendTransitions ts sessionId metadata)).1 = b := by
        by_cases hts : ts = [] <;> simp [step, appendTransitions, hts, htext]
      refine ⟨?_, fun _ => hkeep⟩
      rw [hkeep]
      simpa [ledgerStep, entriesOf, htext] using hb
    · by_cases hts : ts = []
      · subst hts
        refine ⟨?_, fun _ => by simp [step, appendTransitions]⟩
        have hnil : entriesOf env d es.length (.appendTransitions [] sessionId metadata) = [] := by
          cases htext : metadataText env metadata <;> simp [entriesOf, htext]
        simpa [step, appendTransitions, ledgerStep, hnil] using hb
      · cases htext : metadataText env metadata with
        | none =>
          refine ⟨?_, fun _ => by simp [step, appendTransitions, hts, htext]⟩
          simpa [step, appendTransitions, hts, ledgerStep, entriesOf, htext] using hb
        | some text =>
          obtain ⟨hraised, hrep⟩ := appendFrom_fits sessionId text (i := 0) hb
            (Nat.add_zero _).symm hc
          refine ⟨?_, fun h => ?_⟩
          · simpa [step, appendTransitions, hts, htext, ledgerStep, entriesOf, hb.length_steps]
              using hrep
          · simp [step, appendTransitions, hts, htext, hb.length_steps, hraised] at h

/-- A call that is not harmless raises, and has written. -/
lemma raises_of_not_harmless (env : ObjectEnv ρ) {d : ℕ} {b : ArrowTrajectoryBuffer}
    (hd : b.stateDim = d) {c : BufferCall ρ} (hc : ¬ Harmless env d c) :
    (step env b c).2 = true ∧ b.steps.length < (step env b c).1.steps.length := by
  match c with
  | .clear => exact absurd trivial hc
  | .recordRealTrajectory now steps sessionId =>
    obtain ⟨hs, hhead⟩ := not_or.mp hc
    refine ⟨recordFrom_raises env _ now sessionId 0 b hs, ?_⟩
    match steps with
    | [] => exact absurd (fun s hs => absurd hs List.not_mem_nil) hs
    | .other :: rest => exact absurd rfl hhead
    | .dict items :: rest => exact length_lt_recordFrom env _ now sessionId 0 items rest b
  | .appendTransition t sessionId metadata =>
    cases hrow : broadcast b.stateDim t.vector with
    | none => simp [step, appendTransition, hrow, openRow]
    | some row =>
      have hfit : Fits d t := by rw [Fits, ← hd, hrow, Option.isSome_some]
      have htext : metadataText env metadata = none := by
        rw [← Option.not_isSome_iff_eq_none]
        exact fun h => hc ⟨hfit, h⟩
      simp [step, appendTransition, hrow, htext, openRow, setLatent, closeRow]
  | .appendTransitions ts sessionId metadata =>
    obtain ⟨htext, hts⟩ := not_or.mp hc
    obtain ⟨text, htext⟩ := Option.ne_none_iff_exists'.mp htext
    have hne : ts ≠ [] := by
      rintro rfl
      exact hts fun t ht => absurd ht List.not_mem_nil
    simpa [step, appendTransitions, hne, htext] using
      appendFrom_raises b.steps.length sessionId text 0 hd hts

/-! ## A run of calls -/

/-- Where not all elements have a property, there is a first that has it not. -/
lemma exists_first_not {α : Type*} {p : α → Prop} {l : List α} (h : ¬ ∀ a ∈ l, p a) :
    ∃ before a after, l = before ++ a :: after ∧ (∀ a' ∈ before, p a') ∧ ¬ p a := by
  induction l with
  | nil => exact absurd (fun a ha => absurd ha List.not_mem_nil) h
  | cons a l ih =>
    by_cases ha : p a
    · obtain ⟨before, a', after, rfl, hbefore, ha'⟩ :=
        ih fun hl => h (List.forall_mem_cons.mpr ⟨ha, hl⟩)
      exact ⟨a :: before, a', after, rfl, List.forall_mem_cons.mpr ⟨ha, hbefore⟩, ha'⟩
    · exact ⟨[], a, l, rfl, fun a' ha' => absurd ha' List.not_mem_nil, ha⟩

lemma represents_run (env : ObjectEnv ρ) {d : ℕ} {calls : List (BufferCall ρ)}
    (hc : ∀ c ∈ calls, Harmless env d c) :
    Represents d (run env (new d) calls) (ledger env d calls) := by
  induction calls using List.reverseRecOn with
  | nil => exact represents_new d
  | append_singleton calls c ih =>
    rw [run, ledger, List.foldl_append, List.foldl_append]
    exact (represents_step env (ih fun c' hc' => hc c' (List.mem_append_left _ hc'))
      (hc c (by simp))).1

/-- In a run, every call leaves the buffer as it was where it raises and columns of one length, if
and only if every call is harmless: its real steps are dictionaries whose metadata are serialised,
or the first of them is no dictionary; its vectors fit, unless the metadata of a batch already
raise; the metadata of a single transition are serialised.  And then the view shows every step
with its own session, action, reward and metadata. -/
theorem run_keeps_columns_iff (env : ObjectEnv ρ) (d : ℕ) (calls : List (BufferCall ρ)) :
    ((∀ before c after, calls = before ++ c :: after → CallKeeps env (run env (new d) before) c) ↔
      ∀ c ∈ calls, Harmless env d c) ∧
    ((∀ c ∈ calls, Harmless env d c) →
      (run env (new d) calls).zipped = (ledger env d calls).map Entry.shown) := by
  refine ⟨⟨fun hkeeps => ?_, fun hall before c after hsplit => ?_⟩,
    fun hall => (represents_run env hall).zipped⟩
  · by_contra hbad
    -- The first call that is not harmless comes after calls that are.
    obtain ⟨before, c, after, hsplit, hbefore, hc⟩ : ∃ before c after,
        calls = before ++ c :: after ∧ (∀ c' ∈ before, Harmless env d c') ∧ ¬ Harmless env d c :=
      exists_first_not hbad
    obtain ⟨hraised, hlen⟩ := raises_of_not_harmless env (represents_run env hbefore).stateDim hc
    have hsame := (hkeeps before c after hsplit).1 hraised
    rw [hsame] at hlen
    exact lt_irrefl _ hlen
  · have hbefore : ∀ c' ∈ before, Harmless env d c' := fun c' hc' =>
      hall c' (by rw [hsplit]; exact List.mem_append_left _ hc')
    obtain ⟨hrep, hraise⟩ := represents_step env (represents_run env hbefore)
      (hall c (by rw [hsplit]; simp))
    exact ⟨hraise, hrep.aligned⟩

/-- Objects that are texts, or the empty dictionary. -/
def textObjects : ObjectEnv String where
  truthy x := decide (x ≠ "" ∧ x ≠ "\x7b\x7d")
  text x := x
  emptyDict := "\x7b\x7d"
  dictOf x := if x = "\x7b\x7d" then some x else none
  dumps x := some x
  dumpsReal success _ _ := some (if success then "real success" else "real failure")

/-- A real step whose parameters are a text. -/
def textParameters : BufferCall String :=
  .recordRealTrajectory 0 [.dict [("tool_name", "ls"), ("parameters", "-l")]] "first"

def failedStep : BufferCall String :=
  .recordRealTrajectory 1 [.dict [("tool_name", "rm"), ("success", "")]] "second"

/-- The parameters of a real step that are a text raise after its other columns are written, and
the next step's metadata, of a failure, are shown with the step before it. -/
theorem text_parameters_shift :
    ¬ (∀ before c after, [textParameters, failedStep] = before ++ c :: after →
      CallKeeps textObjects (run textObjects (new 1) before) c) ∧
    (run textObjects (new 1) [textParameters, failedStep]).zipped =
      [(⟨"first", 1, "ls", 1⟩, "real failure")] := by
  refine ⟨fun hkeeps => ?_, by decide⟩
  have hsame := (hkeeps [] textParameters [failedStep] rfl).1 (by decide)
  have hsteps : [(1 : ℤ)] = [] := congrArg ArrowTrajectoryBuffer.steps hsame
  exact absurd hsteps (List.cons_ne_nil _ _)

end ArrowTrajectoryBuffer

end AtlasMemory
