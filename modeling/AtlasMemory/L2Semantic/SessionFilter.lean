import AtlasMemory.L1Working.BufferIsolation

/-!
# The session filter of the vector engine

The model of `_build_session_filter` over the metadata of a point, with the engine's own reading of
the three conditions: a value that is a list matches if one of its elements does, and a field is
empty if it is missing, null or an empty list.

The filter decides by `metadata.session_id` alone.  The filter that runs on the results,
`is_session_accessible` of `extract_effective_session`, goes by the key first, so a point that it
would let through may be held back by the engine.
-/

namespace AtlasMemory

namespace SessionFilter

open HotBuffer

/-- A condition on one field of the payload. -/
inductive FieldCondition
  | matchAny (values : List String)
  | isNull
  | isEmpty

/-- The values of a field that a match looks at. -/
def fieldValues : Option Json → List Json
  | some (.arr items) => items
  | some v => [v]
  | none => []

def isOneOf (values : List String) : Json → Bool
  | .str s => decide (s ∈ values)
  | _ => false

def FieldCondition.holds (field : Option Json) : FieldCondition → Bool
  | matchAny values => (fieldValues field).any (isOneOf values)
  | isNull =>
    match field with
    | some .null => true
    | _ => false
  | isEmpty =>
    match field with
    | none | some .null | some (.arr []) => true
    | _ => false

/-- The sessions that the engine does not filter for. -/
def unfiltered : List String := ["", "default", "global", globalSession, defaultSession]

/-- The texts that the filter takes for the session or for a shared one. -/
def filterNames (session : String) : List String :=
  let cleanSess := cleanSession (PyString.strip session)
  [cleanSess, "session_" ++ cleanSess, "global", "hermes_persistent"]

/-- `_build_session_filter`: the conditions of `should`. -/
def buildSessionFilter (session : String) : Option (List FieldCondition) :=
  if PyString.strip session ∈ unfiltered then none
  else some [.matchAny (filterNames session), .isNull, .isEmpty]

/-- The engine lets the point through: one of the conditions holds. -/
def passes (filter : Option (List FieldCondition)) (metadata : PyDict String Json) : Bool :=
  match filter with
  | none => true
  | some should => should.any (FieldCondition.holds (metadata.get? "session_id"))

/-! ## Who may read a point -/

/-- A request of the session sees what belongs to the owner. -/
def Reads (owner session : String) : Prop :=
  owner = globalSession ∨ cleanSession owner = cleanSession session ∨
    cleanSession owner ∈ defaultNames ∧ cleanSession session ∈ defaultNames

variable (rt : Runtime) (lex : Lexicon) (key : String) (metadata : PyDict String Json)
  (session : String)

/-- The owner by the metadata: the text of `session_id`, or else of `source_session_id`, if it is
not false. -/
def metadataOwner : Option String :=
  let item (name : String) := (metadata.get? name).filter rt.truthy
  ((item "session_id").or (item "source_session_id")).map rt.pyStr

/-- The point is the session's to read: its key names a session that is, or names none and begins
as a persistent one, or else the metadata name no owner or one that is. -/
def Readable : Prop :=
  match sessionOfKey lex key with
  | some owner => Reads owner session
  | none =>
    PyString.startsWithAny (lex.lower key) persistentKeyPrefixes = true ∨
      ∀ owner, metadataOwner rt metadata = some owner →
        owner = "hermes_persistent" ∨ Reads owner session

/-- The metadata name no session at all. -/
def Unset : Prop :=
  metadata.get? "session_id" = none ∨ metadata.get? "session_id" = some .null ∨
    metadata.get? "session_id" = some (.arr [])

/-- The metadata name the session in one of the filter's spellings, or a shared one. -/
def Spelled : Prop :=
  ∃ name ∈ filterNames session, Json.str name ∈ fieldValues (metadata.get? "session_id")

/-- The engine holds back a point that the session may read: its `session_id` is set, and to another
text than the filter looks for. -/
structure HeldBack : Prop where
  filtered : PyString.strip session ∉ unfiltered
  set : ¬Unset metadata
  other : ¬Spelled metadata session
  readable : Readable rt lex key metadata session

variable {rt lex key metadata session}

lemma accessible_iff {owner : String} :
    isSessionAccessible (some owner) (some session) = true ↔ Reads owner session := by
  unfold isSessionAccessible Reads defaultNames
  simp only [Option.map_some, Option.getD_some, List.mem_cons, List.not_mem_nil, or_false]
  split_ifs with hglobal hdefault
  · simp [hglobal]
  · rw [decide_eq_true_eq]
    constructor
    · exact fun h => Or.inr (Or.inr ⟨hdefault, h⟩)
    · rintro (h | h | h)
      · exact absurd h hglobal
      · rwa [← h]
      · exact h.2
  · rw [decide_eq_true_eq]
    constructor
    · exact fun h => Or.inr (Or.inl h.2.symm)
    · rintro (h | h | h)
      · exact absurd h hglobal
      · refine ⟨fun hempty => hdefault (Or.inr (Or.inr ?_)), h.symm⟩
        rw [h, hempty]
      · exact absurd h.1 hdefault

lemma reads_global : Reads globalSession session := Or.inl rfl

/-- The filter that runs on the results. -/
lemma accessible_effective_iff :
    isSessionAccessible (extractEffectiveSession rt lex key metadata) (some session) = true ↔
      Readable rt lex key metadata session := by
  unfold extractEffectiveSession Readable metadataOwner
  cases hkey : sessionOfKey lex key with
  | some owner => exact accessible_iff
  | none =>
    dsimp only
    by_cases hpersistent :
        PyString.startsWithAny (lex.lower key) persistentKeyPrefixes = true
    · rw [if_pos hpersistent, accessible_iff]
      exact iff_of_true reads_global (Or.inl hpersistent)
    rw [if_neg hpersistent]
    cases ((metadata.get? "session_id").filter rt.truthy).or
        ((metadata.get? "source_session_id").filter rt.truthy) with
    | none => exact iff_of_true rfl (Or.inr nofun)
    | some v =>
      rw [or_iff_right hpersistent]
      simp only [Option.map_some, Option.some.injEq, forall_eq']
      split_ifs with hshared
      · rw [accessible_iff]
        refine iff_of_true reads_global ?_
        rcases hshared with h | h
        · exact Or.inl h
        · exact Or.inr (Or.inl h)
      · rw [accessible_iff]
        exact ⟨Or.inr, fun h => h.resolve_left fun heq => hshared (Or.inl heq)⟩

lemma holds_matchAny {names : List String} {field : Option Json} :
    (FieldCondition.matchAny names).holds field = true ↔
      ∃ name ∈ names, Json.str name ∈ fieldValues field := by
  unfold FieldCondition.holds
  rw [List.any_eq_true]
  constructor
  · rintro ⟨v, hv, hone⟩
    cases v with
    | str name => exact ⟨name, of_decide_eq_true hone, hv⟩
    | _ => exact absurd hone Bool.false_ne_true
  · rintro ⟨name, hname, hv⟩
    exact ⟨.str name, hv, decide_eq_true hname⟩

lemma passes_iff : passes (buildSessionFilter session) metadata = true ↔
    PyString.strip session ∈ unfiltered ∨ Unset metadata ∨ Spelled metadata session := by
  unfold passes buildSessionFilter
  by_cases hoff : PyString.strip session ∈ unfiltered
  · rw [if_pos hoff]
    exact iff_of_true rfl (Or.inl hoff)
  have hunset : (FieldCondition.isNull.holds (metadata.get? "session_id") ||
      FieldCondition.isEmpty.holds (metadata.get? "session_id")) = true ↔ Unset metadata := by
    unfold FieldCondition.holds Unset
    cases metadata.get? "session_id" with
    | none => simp
    | some v =>
      cases v with
      | arr items => cases items <;> simp
      | _ => simp
  rw [if_neg hoff]
  dsimp only
  rw [List.any_cons, List.any_cons, List.any_cons, List.any_nil, Bool.or_false, Bool.or_eq_true,
    holds_matchAny, hunset]
  constructor
  · rintro (h | h)
    · exact Or.inr (Or.inr h)
    · exact Or.inr (Or.inl h)
  · rintro (h | h | h)
    · exact absurd h hoff
    · exact Or.inr h
    · exact Or.inl h

/-- **The engine's filter** loses nothing that the filter on the results would accept, if and only
if the point is not held back. -/
theorem passes_of_accessible_iff (rt : Runtime) (lex : Lexicon) (session key : String)
    (metadata : PyDict String Json) :
    (isSessionAccessible (extractEffectiveSession rt lex key metadata) (some session) = true →
      passes (buildSessionFilter session) metadata = true) ↔
    ¬HeldBack rt lex key metadata session := by
  rw [accessible_effective_iff, passes_iff]
  constructor
  · intro h hheld
    rcases h hheld.readable with h | h | h
    · exact hheld.filtered h
    · exact hheld.set h
    · exact hheld.other h
  · intro h hreadable
    by_contra hno
    rw [not_or, not_or] at hno
    exact h ⟨hno.1, hno.2.1, hno.2.2, hreadable⟩

/-- A fact that another session wrote is everybody's, and the engine holds it back. -/
theorem fact_of_other_session_held_back :
    isSessionAccessible (extractEffectiveSession .sample sampleLexicon "fact:alpha:plan"
      (PyDict.ofEntries [("session_id", .str "B")])) (some "A") = true ∧
    passes (buildSessionFilter "A") (PyDict.ofEntries [("session_id", .str "B")]) = false := by
  decide

end SessionFilter

end AtlasMemory
