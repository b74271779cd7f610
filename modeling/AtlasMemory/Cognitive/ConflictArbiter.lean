import AtlasMemory.Cognitive.EpistemicKernel
import AtlasMemory.Foundations.PyDict
import AtlasMemory.Runtime
import Mathlib.Data.List.Sort

/-!
# The conflict arbiter

The model of `ConflictArbiter`: the candidates of a write among the existing records with their
scores, and the decision about the best of them.  Each existing record gives at most one candidate:
an explicit revision, a comparison with the record of the same key, or the first of five detectors
that finds a contradiction between the words of the two records.

A candidate is validated when it is built, so a conflicting record whose confidence is not between
zero and one makes the call raise.  Of the result, the copy of the candidates under `metadata` is left out.
-/

namespace AtlasMemory

/-- The text under which a reason is reported. -/
def ConflictReason.text : ConflictReason → String
  | .explicitConflictMarker => "explicit_conflict_marker"
  | .beliefRevision => "belief_revision"
  | .confidenceInversion => "confidence_inversion"
  | .exclusivityCollision => "exclusivity_collision"
  | .semanticContradiction => "semantic_contradiction"
  | .exclusivityViolation => "exclusivity_violation"
  | .prohibitionContradiction => "prohibition_contradiction"
  | .functionalSlotRevision => "functional_slot_revision"

/-! ## Records -/

/-- An existing record: a dictionary with the items that the arbiter reads, or an object with these
attributes. -/
inductive ExistingItem
  | dict (value val object : Option Json) (confidence : Option ℚ) (isSuperseded : Option Json)
      (metadata : Option (PyDict String Json))
  | entry (value : Json) (confidence : ℚ) (isSuperseded : Bool) (metadata : PyDict String Json)

/-- What the arbiter reads of a live record. -/
structure ParsedItem where
  value : String
  confidence : ℚ
  metadata : PyDict String Json

/-- `v is True`. -/
def isTrue : Option Json → Bool
  | some (.bool b) => b
  | _ => false

/-- The metadata mark a superseded record. -/
def markedSuperseded (metadata : PyDict String Json) : Bool :=
  isTrue (metadata.get? "is_superseded") || isTrue (metadata.get? "superseded")

/-- `a or b` of two items of a dictionary. -/
def orElseTruthy (rt : Runtime) (a b : Option Json) : Option Json :=
  match a with
  | some v => if rt.truthy v then some v else b
  | none => b

/-- `_parse_existing_item`. -/
def ExistingItem.parse (rt : Runtime) : ExistingItem → Option ParsedItem
  | .dict value val object confidence isSuperseded metadata =>
    let exMeta := metadata.getD ∅
    if isTrue isSuperseded || markedSuperseded exMeta then none
    else
      let found := orElseTruthy rt value (orElseTruthy rt val (orElseTruthy rt object none))
      some ⟨(found.map rt.pyStr).getD "", confidence.getD 1, exMeta⟩
  | .entry value confidence isSuperseded metadata =>
    if isSuperseded || markedSuperseded metadata then none
    else some ⟨rt.pyStr value, confidence, metadata⟩

/-- `ArbitrationCandidate`. -/
structure ArbitrationCandidate where
  key : String
  score : ℚ
  reason : ConflictReason
  conflictType : ConflictReason
  conflictingFact : String
  incomingClaim : String
  overlappingTerms : List String
  message : String
  confidence : ℚ
  metadata : PyDict String Json

/-- The validation of a candidate when it is built. -/
def ArbitrationCandidate.valid (c : ArbitrationCandidate) : Bool :=
  decide (0 ≤ c.confidence) && decide (c.confidence ≤ 1)

/-- `ConflictArbiter`: its thresholds, and the engine's test whether an entity is critical. -/
structure ConflictArbiter where
  confidenceThreshold : ℚ := 95 / 100
  highScoreThreshold : ℚ := 35
  isEntityCritical : Option (String → Bool) := none

/-! ## Profiles -/

/-- The lexical profile of a key and the text of its value. -/
structure LexicalProfile where
  tokens : Finset String
  topicTokens : Finset String
  topicStems : Finset String
  specificTokens : Finset String
  specificStems : Finset String
  hasExcl : Bool
  hasProhib : Bool
  hasAff : Bool
  prohibited : Finset String
  prohibStems : Finset String
  exclTargets : Finset String
  govActions : Finset String
  tools : Finset String
  env : Finset String

namespace LexicalProfile

variable (lex : Lexicon)

/-- The stems of the words that say nothing about the topic. -/
def unspecificStems : Finset String :=
  lex.extractStems (Lexicon.genericWords.toFinset ∪ lex.developerTools)

def anyIn (words : List String) (tokens : Finset String) : Bool :=
  decide (∃ t ∈ tokens, t ∈ words)

/-- The profile of `f"{key} {val}"`. -/
def of (key valLower : String) : LexicalProfile :=
  let text := key ++ " " ++ valLower
  let tokens := lex.extractTokens text
  let topicTokens := tokens.filter fun t => t ∉ Lexicon.controlWords
  let topicStems := lex.extractStems topicTokens
  let prohibited := lex.extractProhibitedTerms text
  { tokens := tokens
    topicTokens := topicTokens
    topicStems := topicStems
    specificTokens := topicTokens.filter fun t =>
      t ∉ Lexicon.genericWords ∧ t ∉ lex.developerTools
    specificStems := topicStems.filter fun t => t ∉ unspecificStems lex
    hasExcl := anyIn Lexicon.exclusivityWords tokens
    hasProhib := anyIn Lexicon.prohibitionWords tokens
    hasAff := anyIn Lexicon.affirmativeWords tokens
    prohibited := prohibited
    prohibStems := lex.extractStems prohibited
    exclTargets := lex.extractExclusiveTarget text
    govActions := lex.extractGovernedAction topicTokens
    tools := tokens.filter fun t => t ∈ lex.developerTools
    env := (PyString.split ':' key).toFinset.filter (fun t => t ∈ Lexicon.environmentTokens) ∪
      tokens.filter fun t => t ∈ Lexicon.environmentTokens }

end LexicalProfile

/-- What two profiles share. -/
structure OverlapMeasures where
  tokenOverlap : Finset String
  stemOverlap : Finset String
  specificOverlap : Finset String
  specificStemOverlap : Finset String
  overlapCount : ℕ
  overlapDensity : ℚ

/-- `_overlap_measures`. -/
def OverlapMeasures.of (lex : Lexicon) (incoming exp : LexicalProfile) : OverlapMeasures :=
  let genericStems := lex.extractStems Lexicon.genericWords.toFinset
  let specificOverlap := incoming.specificTokens ∩ exp.specificTokens
  let specificStemOverlap := incoming.specificStems ∩ exp.specificStems
  let inMeaningful := incoming.specificTokens ∪ incoming.specificStems
  let exMeaningful := exp.specificTokens ∪ exp.specificStems
  let shorterLen := max 1 (min inMeaningful.card exMeaningful.card)
  let overlapCount := (specificOverlap ∪ specificStemOverlap).card
  { tokenOverlap := (incoming.topicTokens ∩ exp.topicTokens).filter fun t =>
      t ∉ Lexicon.genericWords
    stemOverlap := (incoming.topicStems ∩ exp.topicStems).filter fun t => t ∉ genericStems
    specificOverlap := specificOverlap
    specificStemOverlap := specificStemOverlap
    overlapCount := overlapCount
    overlapDensity := overlapCount / shorterLen }

/-- The stems of the generic words, as the sample lexicon finds them. -/
def sampleGenericStems : Finset String :=
  ⟨["action", "architectur", "atlas", "config", "default", "fact", "funk", "item", "kod", "kodu",
    "memor", "metod", "narzędz", "narzędzi", "opcj", "parametr", "preferenc", "rule", "rzecz",
    "sensor", "sposob", "sposób", "stat", "syst", "task", "test", "tool", "tools", "użytkownik",
    "variabl", "wartość"], by decide +kernel⟩

lemma extractStems_genericWords :
    sampleLexicon.extractStems Lexicon.genericWords.toFinset = sampleGenericStems := by
  decide +kernel

lemma unspecificStems_sampleLexicon :
    LexicalProfile.unspecificStems sampleLexicon = insert "docker" sampleGenericStems := by
  have htools : sampleLexicon.extractStems sampleLexicon.developerTools = {"docker"} := by
    decide +kernel
  rw [LexicalProfile.unspecificStems, Lexicon.extractStems, Finset.image_union,
    ← Lexicon.extractStems, ← Lexicon.extractStems, extractStems_genericWords, htools,
    Finset.insert_eq, Finset.union_comm]

namespace ConflictArbiter

/-! ## Relations between two keys -/

/-- `rule_prefixes`. -/
def rulePrefixes : List String := ["rule:", "user_rule:", "preference:", "constraint:"]

/-- `_skip_episodic`. -/
def skipEpisodic (exK : String) : Bool :=
  PyString.startsWithAny exK ["mnemosyne:mnemosyne_working_memory:",
    "mnemosyne:mnemosyne_episodic_memory:", "conversation", "fact:conversation"] ||
  PyString.endsWith exK ":episodic_event"

/-- `_orthogonal_envs`: both are named and none is shared. -/
def orthogonal (a b : Finset String) : Bool :=
  decide (a ≠ ∅) && decide (b ≠ ∅) && decide (a ∩ b = ∅)

/-- `_same_namespace`. -/
def sameNamespace (key exK : String) (coordIn coordEx : EpistemicCoordinate) : Bool :=
  let path (k : String) := (PyString.split ':' k).dropLast.filter fun p =>
    p ∉ Lexicon.genericWords
  decide (coordIn.nameSpace = coordEx.nameSpace ∧ coordIn.entityId = coordEx.entityId) ||
    (decide (path key ≠ []) && decide (path key = path exK))

/-- `_has_topic_overlap`. -/
def hasTopicOverlap (ov : OverlapMeasures) (sameNs : Bool) : Bool :=
  let left := sameNs && (decide (ov.tokenOverlap ≠ ∅) || decide (ov.stemOverlap ≠ ∅))
  let mid := decide (2 ≤ ov.specificOverlap.card) || decide (2 ≤ ov.specificStemOverlap.card) ||
    (decide (2 ≤ ov.tokenOverlap.card) && decide (1 ≤ ov.specificOverlap.card))
  let right := sameNs || decide (1 / 4 ≤ ov.overlapDensity) || decide (4 ≤ ov.overlapCount)
  left || (mid && right)

/-- `_action_polarity_fallback`. -/
def actionPolarityFallback (incoming exp : LexicalProfile) : Bool :=
  decide (incoming.govActions ∩ exp.govActions ≠ ∅) &&
    (incoming.hasExcl || exp.hasExcl || incoming.hasProhib || exp.hasProhib)

/-- `_consensus_agreement`. -/
def consensusAgreement (incoming exp : LexicalProfile) (sharedProhib : Finset String) : Bool :=
  incoming.hasProhib && exp.hasProhib && decide (sharedProhib ≠ ∅)

/-- The terms of `tokens` that are in `terms` or whose stem is in `stems`. -/
def termsOrStems (lex : Lexicon) (tokens terms stems : Finset String) : Finset String :=
  (tokens ∩ terms) ∪ tokens.filter fun t => lex.polishStem t ∈ stems

/-- The context of the detectors. -/
structure CrossContext where
  key : String
  exK : String
  val : Json
  exVal : String
  exConf : ℚ
  sameNs : Bool
  ov : OverlapMeasures
  sharedProhib : Finset String
  incoming : LexicalProfile
  exp : LexicalProfile
  /-- The existing record is a rule and not melted. -/
  isExRule : Bool
  isRuleMelted : Bool

variable (rt : Runtime) (lex : Lexicon) (arbiter : ConflictArbiter)

/-- The engine finds the entity of a rule critical. -/
def ruleMelted (exK : String) : Bool :=
  PyString.startsWithAny exK rulePrefixes &&
    match arbiter.isEntityCritical with
    | some critical => critical (EpistemicCoordinate.fromKey lex exK).entityId || critical exK
    | none => false

/-- `_base_cross_score`. -/
def baseCrossScore (ctx : CrossContext) : ℚ :=
  (if ctx.sameNs then 50 else 0) +
  (if PyString.startsWithAny ctx.key rulePrefixes && ctx.isExRule then 35
    else if ctx.isExRule then 15
    else if ctx.isRuleMelted then 25
    else 0) -
  (if PyString.startsWith ctx.exK "mnemosyne:" then 40 else 0) +
  15 * ctx.ov.specificOverlap.card + 10 * ctx.ov.specificStemOverlap.card +
  5 * ctx.ov.tokenOverlap.card + 5 * ctx.exConf

/-! ## The detectors -/

/-- What a detector finds: the payload of the candidate, and the bonus. -/
structure Finding where
  reason : ConflictReason
  conflictType : ConflictReason
  overlappingTerms : List String
  message : String
  bonus : ℚ

/-- `list(a or b)`. -/
def listOfFirst (a b : Finset String) : List String := lex.listOf (if a ≠ ∅ then a else b)

/-- `_detect_exclusivity_collision`. -/
def detectExclusivityCollision (ctx : CrossContext) : Option Finding :=
  let i := ctx.incoming
  let e := ctx.exp
  if !(i.hasExcl && e.hasExcl) then none
  else
    let actionsMatch := decide (i.govActions ∩ e.govActions ≠ ∅)
    let targetsDiffer := decide (i.exclTargets ≠ ∅) && decide (e.exclTargets ≠ ∅) &&
      decide (i.exclTargets ∩ e.exclTargets = ∅)
    let differing := (i.specificTokens \ e.specificTokens) ∪ (e.specificTokens \ i.specificTokens)
    let near := ctx.sameNs || decide (1 ≤ ctx.ov.specificOverlap.card) ||
      decide (1 ≤ ctx.ov.stemOverlap.card)
    if (actionsMatch && targetsDiffer) || (decide (differing ≠ ∅) && near) then
      some ⟨.exclusivityCollision, .exclusivityCollision,
        if ctx.ov.tokenOverlap ≠ ∅ then lex.listOf ctx.ov.tokenOverlap
        else listOfFirst lex ctx.ov.stemOverlap i.exclTargets,
        "Incoming exclusivity assertion contradicts established exclusivity rule '" ++ ctx.exK ++
          "'.", 40⟩
    else none

/-- `action_words`. -/
def actionWords : List String :=
  ["push", "commit", "zapis", "edit", "edycja", "bezpośrednio", "bezpośredni", "delete", "remove",
    "drop", "root", "hasło", "hasła", "secret", "secrets"]

/-- `_detect_prohibition_contradiction`. -/
def detectProhibitionContradiction (ctx : CrossContext) : Option Finding :=
  let i := ctx.incoming
  let e := ctx.exp
  if !(e.hasProhib && !i.hasProhib) then none
  else
    let prohibitedOverlap :=
      termsOrStems lex i.specificTokens e.prohibited e.prohibStems \ ctx.sharedProhib
    let hasActionInProhib := actionWords.any fun t => decide (t ∈ prohibitedOverlap)
    let near := decide (2 ≤ prohibitedOverlap.card) || hasActionInProhib || ctx.sameNs
    if decide (prohibitedOverlap ≠ ∅) && near then
      some ⟨.semanticContradiction, .prohibitionContradiction, lex.listOf prohibitedOverlap,
        "Incoming write asserts action prohibited by established memory '" ++ ctx.exK ++ "'.", 35⟩
    else none

/-- `_detect_capability_conflict`. -/
def detectCapabilityConflict (ctx : CrossContext) : Option Finding :=
  let i := ctx.incoming
  let e := ctx.exp
  if !(i.hasProhib && !e.hasProhib && e.hasAff) then none
  else
    let prohibitedOverlap :=
      termsOrStems lex e.specificTokens i.prohibited i.prohibStems \ ctx.sharedProhib
    let near := ctx.isExRule || decide (1 ≤ ctx.ov.specificOverlap.card) || ctx.sameNs
    if decide (prohibitedOverlap ≠ ∅) && near then
      some ⟨.semanticContradiction, .prohibitionContradiction, lex.listOf prohibitedOverlap,
        "Incoming write prohibits capability established in memory '" ++ ctx.exK ++ "'.", 30⟩
    else none

/-- `_detect_exclusivity_violation`. -/
def detectExclusivityViolation (ctx : CrossContext) : Option Finding :=
  let i := ctx.incoming
  let e := ctx.exp
  if !(e.hasExcl && !i.hasExcl) then none
  else
    let near := decide (i.govActions ∩ e.govActions ≠ ∅) ||
      (ctx.sameNs && decide (1 ≤ ctx.ov.specificOverlap.card))
    if !near then none
    else
      let outside (tokens : Finset String) :=
        tokens.filter fun t => lex.polishStem t ∉ ctx.ov.stemOverlap
      let authorizedTargets := outside e.topicTokens \ e.prohibited
      let incomingTargets := outside i.tokens
      let violates := (decide (incomingTargets ≠ ∅) &&
          decide (incomingTargets ∩ authorizedTargets = ∅)) ||
        decide (i.tokens ∩ e.prohibited ≠ ∅)
      if !violates then none
      else
        some ⟨.exclusivityViolation, .exclusivityViolation,
          listOfFirst lex ctx.ov.tokenOverlap ctx.ov.stemOverlap,
          "Incoming assertion violates established exclusive rule '" ++ ctx.exK ++ "'.", 35⟩

/-- `_detect_polarity_contradiction`. -/
def detectPolarityContradiction (ctx : CrossContext) : Option Finding :=
  let i := ctx.incoming
  let e := ctx.exp
  let negatesEstablished := i.hasProhib && e.hasAff && !e.hasProhib
  let negatesIncoming := i.hasAff && e.hasProhib && !i.hasProhib
  if !(negatesEstablished || negatesIncoming) then none
  else if decide (2 ≤ ctx.ov.specificOverlap.card) ||
      (ctx.sameNs && decide (2 ≤ ctx.ov.tokenOverlap.card)) then
    some ⟨.semanticContradiction, .semanticContradiction,
      listOfFirst lex ctx.ov.tokenOverlap ctx.ov.stemOverlap,
      "Incoming write contradicts established memory '" ++ ctx.exK ++ "'.", 25⟩
  else none

/-- `_first_semantic_conflict`. -/
def firstSemanticConflict (ctx : CrossContext) : Option Finding :=
  [detectExclusivityCollision, detectProhibitionContradiction, detectCapabilityConflict,
    detectExclusivityViolation, detectPolarityContradiction].findSome? fun detector =>
      detector lex ctx

/-! ## Candidates -/

/-- The arguments of a write, as the arbiter gets them. -/
structure Incoming where
  key : String
  val : Json
  confidence : ℚ
  metadata : PyDict String Json

namespace Incoming

/-- `val_str`. -/
def valStr (w : Incoming) : String :=
  match w.val with
  | .null => ""
  | v => lex.lower (rt.pyStr v)

/-- `source_type`: the item, else `source`, else the user. -/
def sourceType (w : Incoming) : String :=
  ((orElseTruthy rt (w.metadata.get? "source_type")
    (orElseTruthy rt (w.metadata.get? "source") none)).map rt.pyStr).getD "user_explicit"

/-- `is_user_explicit`. -/
def isUserExplicit (w : Incoming) : Bool :=
  decide (w.sourceType rt = "user_explicit") ||
    (decide (arbiter.confidenceThreshold ≤ w.confidence) &&
      decide (w.sourceType rt ≠ "agent_inference"))

/-- `metadata.get("supersedes") == k`. -/
def supersedes (w : Incoming) (k : String) : Bool :=
  match w.metadata.get? "supersedes" with
  | some (.str s) => decide (s = k)
  | _ => false

/-- The key or the metadata are marked as a conflict. -/
def markedConflict (w : Incoming) : Bool :=
  PyString.hasInfix "conflict" (lex.lower w.key) ||
    rt.truthy ((w.metadata.get? "is_conflict_test").getD .null) ||
    match w.metadata.get? "test_type" with
    | some (.str s) => decide (s = "conflict")
    | _ => false

end Incoming

/-- `_explicit_marker_candidate`. -/
def explicitMarkerCandidate (w : Incoming) : ArbitrationCandidate where
  key := w.key
  score := 100
  reason := .explicitConflictMarker
  conflictType := .explicitConflictMarker
  conflictingFact := w.valStr rt lex
  incomingClaim := rt.pyStr w.val
  overlappingTerms := [w.key]
  message := "Epistemic conflict detected for marked key '" ++ w.key ++ "'."
  confidence := w.confidence
  metadata := PyDict.ofEntries [("is_explicit", .bool true)]

/-- The candidate of an explicit revision. -/
def explicitRevisionCandidate (exK : String) (p : ParsedItem) (w : Incoming) :
    ArbitrationCandidate where
  key := exK
  score := 100
  reason := .beliefRevision
  conflictType := .beliefRevision
  conflictingFact := p.value
  incomingClaim := rt.pyStr w.val
  overlappingTerms := [exK]
  message := "Explicit belief revision: write supersedes '" ++ exK ++ "'."
  confidence := p.confidence
  metadata := p.metadata

/-- `_confidence_inversion_candidate`. -/
def confidenceInversionCandidate (exK : String) (p : ParsedItem) (w : Incoming)
    (sameValue : Bool) : Option ArbitrationCandidate :=
  let exSource := ((orElseTruthy rt (p.metadata.get? "source_type")
    (orElseTruthy rt (p.metadata.get? "source") none)).map rt.pyStr).getD ""
  let minDrop : ℚ := if sameValue then 1 / 5 else 0
  if (9 / 10 ≤ p.confidence ∨ exSource = "user_explicit") ∧ minDrop < p.confidence - w.confidence
  then some
    { key := exK
      score := 90
      reason := .confidenceInversion
      conflictType := .confidenceInversion
      conflictingFact := p.value
      incomingClaim := rt.pyStr w.val
      overlappingTerms := [exK]
      message := "Incoming write has lower confidence (" ++ (rt.floatLit w.confidence).text ++
        ") than established fact (" ++ (rt.floatLit p.confidence).text ++ ")."
      confidence := p.confidence
      metadata := p.metadata }
  else none

/-- The candidate of a revision of the record of the same key. -/
def sameKeyRevision (exK : String) (p : ParsedItem) (w : Incoming) (melted : Bool) :
    ArbitrationCandidate where
  key := exK
  score := 95
  reason := .beliefRevision
  conflictType := .beliefRevision
  conflictingFact := p.value
  incomingClaim := rt.pyStr w.val
  overlappingTerms := [w.key]
  message :=
    if melted then "Belief revision: melted rule '" ++ w.key ++ "' superseded under OOD drift."
    else "Belief revision: user updated value for key '" ++ w.key ++ "'."
  confidence := p.confidence
  metadata := if melted then p.metadata.set "is_rule_melted" (.bool true) else p.metadata

/-- `_evaluate_same_key`: `none` when the record is to be compared like that of another key. -/
def evaluateSameKey (exK : String) (p : ParsedItem) (w : Incoming) :
    Option (Option ArbitrationCandidate) :=
  if lex.lower p.value = w.valStr rt lex then
    some (confidenceInversionCandidate rt exK p w true)
  else
    let melted := arbiter.ruleMelted lex exK
    if (w.isUserExplicit rt arbiter ∧ arbiter.confidenceThreshold ≤ w.confidence ∧
        p.confidence ≤ w.confidence) ∨ (melted ∧ 7 / 10 ≤ w.confidence) then
      some (some (sameKeyRevision rt exK p w melted))
    else (confidenceInversionCandidate rt exK p w false).map some

/-- `_scan_cross_key`. -/
def scanCrossKey (exK : String) (p : ParsedItem) (w : Incoming) : Option ArbitrationCandidate :=
  let exp := LexicalProfile.of lex exK (lex.lower p.value)
  let incoming := LexicalProfile.of lex w.key (w.valStr rt lex)
  let coordIn := EpistemicCoordinate.fromKey lex w.key
  let coordEx := EpistemicCoordinate.fromKey lex exK
  let sameNs := sameNamespace w.key exK coordIn coordEx
  let ov := OverlapMeasures.of lex incoming exp
  let sharedProhib := termsOrStems lex incoming.prohibited exp.prohibited exp.prohibStems
  if skipEpisodic exK then none
  else if orthogonal incoming.env exp.env then none
  else if exK ≠ w.key ∧ EpistemicDecisionKernel.multiValued lex w.key exK = true then none
  else if orthogonal incoming.tools exp.tools && !sameNs then none
  else if consensusAgreement incoming exp sharedProhib then none
  else if !hasTopicOverlap ov sameNs && !actionPolarityFallback incoming exp then none
  else
    let melted := arbiter.ruleMelted lex exK
    let ctx : CrossContext :=
      { key := w.key, exK := exK, val := w.val, exVal := p.value, exConf := p.confidence
        sameNs := sameNs, ov := ov, sharedProhib := sharedProhib, incoming := incoming, exp := exp
        isExRule := PyString.startsWithAny exK rulePrefixes && !melted
        isRuleMelted := melted }
    (firstSemanticConflict lex ctx).map fun found =>
      { key := exK
        score := baseCrossScore ctx + found.bonus
        reason := found.reason
        conflictType := found.conflictType
        conflictingFact := p.value
        incomingClaim := rt.pyStr w.val
        overlappingTerms := found.overlappingTerms
        message := found.message
        confidence := p.confidence
        metadata := if melted then p.metadata.set "is_rule_melted" (.bool true) else p.metadata }

/-- The candidate of a live record, before its validation. -/
def candidateOf (exK : String) (p : ParsedItem) (w : Incoming) : Option ArbitrationCandidate :=
  if w.supersedes exK then some (explicitRevisionCandidate rt exK p w)
  else if exK = w.key then
    (evaluateSameKey rt lex arbiter exK p w).getD (scanCrossKey rt lex arbiter exK p w)
  else scanCrossKey rt lex arbiter exK p w

/-- `_scan_existing_item`: at most one candidate for a record. -/
def scanExistingItem (exK : String) (item : ExistingItem) (w : Incoming) :
    Option ArbitrationCandidate :=
  (item.parse rt).bind fun p => candidateOf rt lex arbiter exK p w

/-- The candidates in the order in which they are built. -/
def foundCandidates (w : Incoming) (items : PyDict String ExistingItem) :
    List ArbitrationCandidate :=
  (if w.markedConflict rt lex then [explicitMarkerCandidate rt lex w] else []) ++
    items.entries.filterMap fun e => scanExistingItem rt lex arbiter e.1 e.2 w

/-- Sort by score, the highest first, and keep the order of equal scores. -/
def sortByScore (cs : List ArbitrationCandidate) : List ArbitrationCandidate :=
  cs.insertionSort fun a b => b.score ≤ a.score

/-- `generate_candidates`. -/
def generateCandidates (w : Incoming) (items : PyDict String ExistingItem) :
    Except PyError (List ArbitrationCandidate) :=
  let found := foundCandidates rt lex arbiter w items
  if found.all ArbitrationCandidate.valid then .ok (sortByScore found)
  else .error ⟨.valueError, "1 validation error for ArbitrationCandidate"⟩

end ConflictArbiter

/-! ## Arbitration -/

/-- `action` of an arbitration result. -/
inductive ArbitrationAction
  | accept
  | warnConflict
  | supersede
  deriving DecidableEq

/-- `ArbitrationResult`. -/
structure ArbitrationResult where
  isConflict : Bool := false
  isBeliefRevision : Bool := false
  action : ArbitrationAction := .accept
  supersededKey : Option String := none
  conflictingKey : Option String := none
  reason : Option ConflictReason := none
  message : String
  warning : Option String := none
  conflictDetails : Option (PyDict String Json) := none
  candidates : List ArbitrationCandidate
  bestCandidate : Option ArbitrationCandidate := none
  bestScore : ℚ := 0

namespace ConflictArbiter

variable (rt : Runtime) (lex : Lexicon) (arbiter : ConflictArbiter)

/-- The metadata flag the write as a revision without naming what it revises. -/
def Incoming.flagged (w : Incoming) : Bool :=
  isTrue (w.metadata.get? "is_belief_revision") ||
    match w.metadata.get? "action" with
    | some (.str s) => decide (s = "supersede")
    | _ => false

/-- The arguments with which `arbitrate` asks the kernel about its best candidate. -/
def kernelInput (w : Incoming) (best : ArbitrationCandidate) : KernelInput where
  isUserExplicit := w.isUserExplicit rt arbiter
  incomingConf := w.confidence
  existingConf := best.confidence
  confThreshold := arbiter.confidenceThreshold
  bestScore := best.score
  reason := best.reason
  isExplicitSupersede := decide (best.reason = .beliefRevision) || w.supersedes best.key || w.flagged
  isRuleMelted := rt.truthy ((best.metadata.get? "is_rule_melted").getD .null) ||
    rt.truthy ((w.metadata.get? "is_rule_melted").getD .null)

/-- The details of a confidence inversion. -/
def inversionDetails (w : Incoming) (best : ArbitrationCandidate) : PyDict String Json :=
  PyDict.ofEntries [("reason", .str "confidence_inversion"), ("conflicting_key", .str best.key),
    ("existing_value", .str best.conflictingFact),
    ("existing_confidence", rt.jsonFloat (.finite best.confidence)),
    ("incoming_confidence", rt.jsonFloat (.finite w.confidence)), ("message", .str best.message)]

def conflictDetails (best : ArbitrationCandidate) : PyDict String Json :=
  PyDict.ofEntries [("reason", .str best.reason.text),
    ("conflict_type", .str best.conflictType.text), ("conflicting_key", .str best.key),
    ("conflicting_fact", .str best.conflictingFact), ("incoming_claim", .str best.incomingClaim),
    ("overlapping_terms", .arr (best.overlappingTerms.map .str)), ("message", .str best.message),
    ("score", rt.jsonFloat (.finite best.score))]

/-- The decision about the sorted candidates. -/
def decideBest (w : Incoming) : List ArbitrationCandidate → ArbitrationResult
  | [] => { message := "No conflict detected.", candidates := [] }
  | best :: others =>
    let candidates := best :: others
    if EpistemicDecisionKernel.decideAction lex w.key best.key (kernelInput rt arbiter w best) =
        .supersede then
      { isBeliefRevision := true
        action := .supersede
        supersededKey := some best.key
        conflictingKey := some best.key
        reason := some .beliefRevision
        message := "Incoming write supersedes established belief '" ++ best.key ++ "'."
        candidates := candidates
        bestCandidate := some best
        bestScore := best.score }
    else if best.reason = .confidenceInversion then
      { isConflict := true
        action := .warnConflict
        conflictingKey := some best.key
        reason := some .confidenceInversion
        message := best.message
        warning := some "epistemic_conflict"
        conflictDetails := some (inversionDetails rt w best)
        candidates := candidates
        bestCandidate := some best
        bestScore := best.score }
    else if arbiter.highScoreThreshold ≤ best.score ∨ best.reason = .explicitConflictMarker ∨
        best.reason = .exclusivityCollision then
      { isConflict := true
        action := .warnConflict
        conflictingKey := some best.key
        reason := some best.reason
        message := best.message
        warning := some "epistemic_conflict"
        conflictDetails := some (conflictDetails rt best)
        candidates := candidates
        bestCandidate := some best
        bestScore := best.score }
    else
      { reason := some best.reason
        message := "Moderate candidate overlap retained in metadata without warning."
        candidates := candidates
        bestCandidate := some best
        bestScore := best.score }

/-- `arbitrate`. -/
def arbitrate (w : Incoming) (items : PyDict String ExistingItem) :
    Except PyError ArbitrationResult :=
  (generateCandidates rt lex arbiter w items).map (decideBest rt lex arbiter w)

end ConflictArbiter

end AtlasMemory
