import AtlasMemory.Cognitive.Lexicon
import Mathlib.Algebra.Order.Ring.Rat

/-!
# Coordinates and the decision kernel

The model of `EpistemicCoordinate` and `EpistemicDecisionKernel`: a key is read as a namespace, an
entity and a slot, and the kernel decides what a write does to the record that conflicts most with
it.  Confidences and scores are finite floating point numbers with exact arithmetic.
-/

namespace AtlasMemory

/-- `EpistemicCoordinate`. -/
structure EpistemicCoordinate where
  nameSpace : String
  entityId : String
  slot : String
  isFunctional : Bool
  rawKey : String
  deriving DecidableEq

namespace EpistemicCoordinate

/-- `":".join(parts)`. -/
def joinColon (parts : List String) : String := ":".intercalate parts

/-- `f"{part}:{rest}" if rest else part`. -/
def withRest (part : String) (rest : List String) : String :=
  if joinColon rest = "" then part else part ++ ":" ++ joinColon rest

/-- `entity_root` of a coordinate. -/
def entityRoot (coord : EpistemicCoordinate) : String :=
  if !PyString.hasChar ':' coord.rawKey then coord.rawKey
  else
    let parts := PyString.split ':' coord.rawKey
    let first := parts.headD ""
    if first = "hermes" ∧ 3 ≤ parts.length then joinColon (parts.take 3)
    else if (first ∈ Lexicon.knownNamespaces ∨ 3 ≤ parts.length) ∧ 2 ≤ parts.length then
      joinColon (parts.take 2)
    else first

/-- `from_key`. -/
def fromKey (lex : Lexicon) (key : String) : EpistemicCoordinate :=
  let clean := PyString.strip key
  if !PyString.hasChar ':' clean then
    ⟨"fact", clean, "value", decide (lex.lower clean ∈ Lexicon.functionalSlots), clean⟩
  else
    let parts := PyString.split ':' clean
    let ns := lex.lower (parts.headD "")
    match parts with
    | [first, second] =>
      let slot := if second ∈ Lexicon.functionalSlots then second else "value"
      let entityId := if slot = "value" then second else first
      ⟨ns, entityId, slot, decide (slot ∈ Lexicon.functionalSlots), clean⟩
    | _ :: p1 :: p2 :: rest =>
      if ns = "hermes" then ⟨"hermes", p1, joinColon (p2 :: rest), true, clean⟩
      else if p1 ∈ Lexicon.functionalSlots ∧ p2 ∉ Lexicon.functionalSlots then
        ⟨ns, withRest p2 rest, p1, true, clean⟩
      else
        let slot := withRest p2 rest
        ⟨ns, p1, slot, decide (p2 ∈ Lexicon.functionalSlots ∨ slot ∈ Lexicon.functionalSlots), clean⟩
    | _ => ⟨ns, "", "", false, clean⟩

end EpistemicCoordinate

/-- `entity_root`. -/
def entityRoot (lex : Lexicon) (key : String) : String :=
  (EpistemicCoordinate.fromKey lex key).entityRoot

/-- Why a record is a candidate; the last two are named by the kernel only. -/
inductive ConflictReason
  | explicitConflictMarker
  | beliefRevision
  | confidenceInversion
  | exclusivityCollision
  | semanticContradiction
  | exclusivityViolation
  | prohibitionContradiction
  | functionalSlotRevision
  deriving DecidableEq

/-- What the kernel decides. -/
inductive KernelAction
  | supersede
  | accept
  | warnConflict
  deriving DecidableEq

/-- The arguments of `decide` beside the two keys. -/
structure KernelInput where
  isUserExplicit : Bool
  incomingConf : ℚ
  existingConf : ℚ
  confThreshold : ℚ
  bestScore : ℚ
  reason : ConflictReason
  isExplicitSupersede : Bool
  isRuleMelted : Bool

namespace EpistemicDecisionKernel

/-- `MULTI_VALUED_SLOTS`. -/
def multiValuedSlots : List String :=
  ["tags", "tag", "allowed_users", "users", "members", "roles", "items", "dependencies", "plugins",
    "features", "scopes", "permissions"]

variable (lex : Lexicon)

/-- `is_multi_valued_slot`. -/
def isMultiValuedSlot (coord : EpistemicCoordinate) : Bool :=
  let slot := lex.lower coord.slot
  let tokens := PyString.split '_'
    (String.ofList (slot.toList.map fun c => if c = ':' then '_' else c))
  (tokens ++ [slot, lex.lower coord.entityId]).any fun t => decide (t ∈ multiValuedSlots)

/-- One of the two keys has a multi-valued slot. -/
def multiValued (incomingKey existingKey : String) : Bool :=
  isMultiValuedSlot lex (EpistemicCoordinate.fromKey lex incomingKey) ||
    isMultiValuedSlot lex (EpistemicCoordinate.fromKey lex existingKey)

/-- `can_supersede`. -/
def canSupersede (incomingKey existingKey : String) (isExplicitSupersede : Bool) : Bool :=
  if isExplicitSupersede || decide (incomingKey = existingKey) then true
  else if entityRoot lex incomingKey ≠ entityRoot lex existingKey then false
  else !multiValued lex incomingKey existingKey

/-- The reasons for which the user's word supersedes the record of another key. -/
def revisable : ConflictReason → Bool
  | .exclusivityCollision | .exclusivityViolation | .semanticContradiction
  | .prohibitionContradiction | .functionalSlotRevision => true
  | .explicitConflictMarker | .beliefRevision | .confidenceInversion => false

/-- `decide`. -/
def decideAction (incomingKey existingKey : String) (i : KernelInput) : KernelAction :=
  if incomingKey ≠ existingKey ∧ multiValued lex incomingKey existingKey = true then .accept
  else
    let canAuto := canSupersede lex incomingKey existingKey i.isExplicitSupersede
    let hasTopicMatch := decide (35 ≤ i.bestScore) ||
      decide (incomingKey = existingKey)
    let isRuleMeltedSupersede := i.isRuleMelted && canAuto &&
      decide (7 / 10 ≤ i.incomingConf) &&
      (hasTopicMatch || decide (incomingKey = existingKey))
    if i.isExplicitSupersede || isRuleMeltedSupersede ||
        (i.isUserExplicit && decide (i.confThreshold ≤ i.incomingConf) &&
          decide (i.existingConf ≤ i.incomingConf) && canAuto &&
          (decide (incomingKey = existingKey) || (hasTopicMatch && revisable i.reason)))
    then .supersede
    else if i.reason = .confidenceInversion ∨ 35 ≤ i.bestScore then .warnConflict
    else .accept

/-! ## What the kernel guarantees -/

variable {lex} {incomingKey existingKey : String} {i : KernelInput}

/-- The entity boundary as `can_supersede` checks it for two keys. -/
def SameEntity (lex : Lexicon) (incomingKey existingKey : String) : Prop :=
  entityRoot lex incomingKey = entityRoot lex existingKey ∧
    multiValued lex incomingKey existingKey = false

instance : Decidable (SameEntity lex incomingKey existingKey) :=
  inferInstanceAs (Decidable (_ ∧ _))

lemma sameEntity_of_canSupersede (hne : incomingKey ≠ existingKey)
    (h : canSupersede lex incomingKey existingKey false = true) :
    SameEntity lex incomingKey existingKey := by
  unfold canSupersede at h
  simp only [Bool.false_or, decide_eq_true_eq, if_neg hne] at h
  split_ifs at h with hroot
  · exact ⟨not_not.mp hroot, by simpa using h⟩

/-- A multi-valued slot is never superseded by another key, whatever the flags. -/
lemma not_multiValued_of_supersede (hne : incomingKey ≠ existingKey)
    (h : decideAction lex incomingKey existingKey i = .supersede) :
    multiValued lex incomingKey existingKey = false := by
  unfold decideAction at h
  split_ifs at h with hmulti
  all_goals
    rw [not_and] at hmulti
    exact Bool.eq_false_of_not_eq_true (hmulti hne)

/-- Without the explicit flag the record of another key is superseded inside its entity only. -/
lemma sameEntity_of_supersede (hne : incomingKey ≠ existingKey)
    (hflag : i.isExplicitSupersede = false)
    (h : decideAction lex incomingKey existingKey i = .supersede) :
    SameEntity lex incomingKey existingKey := by
  have hcan : canSupersede lex incomingKey existingKey false = true := by
    unfold decideAction at h
    rw [hflag] at h
    by_contra hcan
    rw [Bool.not_eq_true] at hcan
    simp only [hcan, Bool.and_false, Bool.false_and, Bool.or_false, Bool.false_eq_true,
      if_false] at h
    split_ifs at h
  exact sameEntity_of_canSupersede hne hcan

/-- With the explicit flag everything but a multi-valued slot of another key is superseded. -/
lemma supersede_of_explicit (hflag : i.isExplicitSupersede = true) :
    decideAction lex incomingKey existingKey i = .supersede ↔
      (incomingKey = existingKey ∨ multiValued lex incomingKey existingKey = false) := by
  unfold decideAction
  by_cases hmulti : incomingKey ≠ existingKey ∧ multiValued lex incomingKey existingKey = true
  · rw [if_pos hmulti]
    simp [hmulti.1, hmulti.2]
  · rw [if_neg hmulti, if_pos (by rw [hflag]; rfl)]
    rw [not_and, Bool.not_eq_true] at hmulti
    simpa using Classical.or_iff_not_imp_left.mpr hmulti

end EpistemicDecisionKernel

end AtlasMemory
