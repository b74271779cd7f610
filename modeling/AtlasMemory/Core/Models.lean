import AtlasMemory.Cognitive.WritePath

/-!
# Provenance and observations

The model of the provenance classes, of the text that a record admits, and of the authority to
write a state variable.  An observation is a record with the fields that its commit reads.  The
bounds of its confidence are those of the field validator, which `nan` passes.
-/

namespace AtlasMemory

/-- `EpistemicSource`. -/
inductive EpistemicSource
  | userExplicit
  | toolOutput
  | agentInference
  | shadowInference
  | externalDoc
  | sensorObservation
  | crdtSync
  | hotBuffer
  deriving DecidableEq

namespace EpistemicSource

def value : EpistemicSource → String
  | userExplicit => "user_explicit"
  | toolOutput => "tool_output"
  | agentInference => "agent_inference"
  | shadowInference => "shadow_inference"
  | externalDoc => "external_doc"
  | sensorObservation => "sensor_observation"
  | crdtSync => "crdt_sync"
  | hotBuffer => "hot_buffer"

/-- The provenance classes in their order. -/
def all : List EpistemicSource :=
  [userExplicit, toolOutput, agentInference, shadowInference, externalDoc, sensorObservation,
    crdtSync, hotBuffer]

/-- `EpistemicSource(v)`, if there is such a class. -/
def ofValue? (v : String) : Option EpistemicSource := all.find? fun s => decide (s.value = v)

end EpistemicSource

/-- The characters that `sanitize_epistemic_text` removes: control characters other than tab and
line ends, and characters without width. -/
def isUnsafeChar (c : Char) : Bool :=
  let n := c.toNat
  decide (n < 9) || n == 11 || n == 12 || decide (14 ≤ n ∧ n < 32) ||
    decide (127 ≤ n ∧ n < 160) || decide (0x200b ≤ n ∧ n ≤ 0x200d) || n == 0xfeff

/-- `sanitize_epistemic_text`. -/
def sanitizeEpistemicText (s : String) : String :=
  String.ofList (s.toList.filter fun c => !isUnsafeChar c)

/-- The actions that promote a shadow inference by name. -/
def shadowPromotionActions : List String := ["promote", "accept_conflict"]

/-- `SHADOW_PROMOTION_PENDING`. -/
def shadowPromotionPending : String := "pending_arbitration"

/-- `SHADOW_PROMOTION_ARBITRATED`. -/
def shadowPromotionArbitrated : String := "arbitration_promoted"

/-- `MemoryRecord`, with the fields that the commit of an observation reads. -/
structure ObservationRecord where
  subject : String
  canonicalEntityId : Option String
  predicate : String
  object : String
  confidence : PyFloat
  sourceType : EpistemicSource
  isStateVariable : Bool
  metadata : PyDict String Json
  sourceSessionId : String
  confidence_nonneg : confidence.lt (.finite 0) = false
  confidence_le_one : (PyFloat.finite 1).lt confidence = false

namespace ObservationRecord

variable (r : ObservationRecord)

/-- `effective_subject`. -/
def effectiveSubject : String :=
  match r.canonicalEntityId with
  | some c => if c = "" then r.subject else c
  | none => r.subject

/-- `triple_key`. -/
def tripleKey : String := r.effectiveSubject ++ ":" ++ r.predicate

/-- `state_variable_authority`: a shadow inference needs the mark of an arbitration. -/
def stateVariableAuthority : Bool :=
  r.isStateVariable &&
    (decide (r.sourceType ≠ .shadowInference) ||
      match r.metadata.get? "shadow_promotion" with
      | some (.str promotion) => decide (promotion = shadowPromotionArbitrated)
      | _ => false)

/-- The record as a plain fact, with the note that its promotion is pending. -/
def demoted : ObservationRecord :=
  { r with
    isStateVariable := false
    metadata := r.metadata.setDefault "shadow_promotion" (.str shadowPromotionPending) }

end ObservationRecord

end AtlasMemory
