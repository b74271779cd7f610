import AtlasMemory.Foundations.PythonBinding

/-!
# The safety scanner of generated skills

`ASTSafetyScanner`: the scanner that a handler passes before it is written as a skill.  It parses
the source and looks at each node of the tree by itself: at names, at calls of a name or of an
attribute, and at the mode of a call of `open`.  The parser is a parameter.
-/

namespace AtlasMemory

open Python

/-- The exceptions of `ast.parse`. -/
inductive ParseError where
  | syntaxError (lineno : Option ℕ) (msg : String)
  | exception (text : String)

namespace ASTSafetyScanner

/-! ## The lists of the scanner -/

def forbiddenCalls : List String := ["eval", "exec", "compile", "__import__"]

/-- Each module with the attributes that are forbidden, or `none` for all of them. -/
def forbiddenModuleCalls : List (String × Option (List String)) :=
  [("os", some ["system", "popen", "remove", "unlink"]), ("subprocess", none),
    ("shutil", some ["rmtree"])]

/-- The attributes that are forbidden regardless of what they are taken from. -/
def forbiddenUnqualifiedAttrs : List String := ["system", "popen", "rmtree", "unlink"]

def dangerousOpenModes : List Char := ['w', 'a', 'x', '+']

def isDangerousMode (mode : String) : Bool := mode.toList.any (· ∈ dangerousOpenModes)

/-! ## The checks on one node -/

/-- The base of an attribute, where it is a name. -/
def baseName : Node → String
  | .name _ id _ => id
  | _ => ""

/-- The check of a call of `base_name.attr_name`. -/
def isUnsafe (baseName attrName : String) : Bool :=
  match forbiddenModuleCalls.lookup baseName with
  | some none => true
  | some (some blockedAttrs) => attrName ∈ blockedAttrs
  | none => attrName ∈ forbiddenUnqualifiedAttrs

/-- A keyword argument `mode` that is a constant text. -/
def keywordMode : Node → Option String
  | .keyword (some "mode") (.constant (.str mode)) => some mode
  | _ => none

/-- `_extract_open_mode`. -/
def extractOpenMode (args keywords : List Node) : Option String :=
  match (args[1]? : Option Node) with
  | some (.constant (.str mode)) => some mode
  | _ => keywords.findSome? keywordMode

def calleeViolations (lineno : ℕ) : Node → List String
  | .name _ id _ =>
    if id ∈ forbiddenCalls then [s!"Line {lineno}: unsafe call to {id}"] else []
  | .attribute value attr =>
    let base := baseName value
    let fullCall := if base ≠ "" then s!"{base}.{attr}" else attr
    if isUnsafe base attr then [s!"Line {lineno}: unsafe call to {fullCall}"] else []
  | _ => []

/-- The check of the mode of `open`. -/
def openViolations (lineno : ℕ) (func : Node) (args keywords : List Node) : List String :=
  match func with
  | .name _ "open" _ =>
    match extractOpenMode args keywords with
    | some mode =>
      if isDangerousMode mode then
        [s!"Line {lineno}: unsafe call to open with write mode '{mode}'"]
      else []
    | none => []
  | _ => []

def nodeViolations : Node → List String
  | .name lineno id _ =>
    if id ∈ forbiddenCalls then
      [s!"Line {lineno}: unsafe reference to forbidden identifier '{id}'"]
    else []
  | .call lineno func args keywords =>
    calleeViolations lineno func ++ openViolations lineno func args keywords
  | _ => []

/-- `scan_code`. -/
def scanCode (parse : String → Except ParseError Module) (code : String) : List String :=
  match parse code with
  | .error (.syntaxError lineno msg) =>
    let line := match lineno with
      | none | some 0 => "unknown"
      | some n => toString n
    [s!"SyntaxError on line {line}: {msg}"]
  | .error (.exception text) => [s!"SyntaxError: {text}"]
  | .ok tree => tree.root.walk.flatMap nodeViolations

/-! ## The forms that the scanner matches -/

/-- A node of one of the forms that the scanner matches. -/
inductive Matched : Node → Prop
  | reference {l : ℕ} {x : String} {k : NameContext} (hx : x ∈ forbiddenCalls) :
      Matched (.name l x k)
  | nameCall {l l' : ℕ} {x : String} {k : NameContext} {args keywords : List Node}
      (hx : x ∈ forbiddenCalls) : Matched (.call l (.name l' x k) args keywords)
  | memberCall {l : ℕ} {e : Node} {a : String} {args keywords : List Node}
      (h : isUnsafe (baseName e) a) : Matched (.call l (.attribute e a) args keywords)
  | openCall {l l' : ℕ} {k : NameContext} {args keywords : List Node} {mode : String}
      (hmode : extractOpenMode args keywords = some mode) (h : isDangerousMode mode) :
      Matched (.call l (.name l' "open" k) args keywords)

lemma calleeViolations_ne_nil {l : ℕ} {func : Node} (args keywords : List Node)
    (h : calleeViolations l func ≠ []) : Matched (.call l func args keywords) := by
  cases func with
  | name l' x k =>
      by_cases hx : x ∈ forbiddenCalls
      · exact .nameCall hx
      · exact absurd (if_neg hx) h
  | «attribute» e a =>
      by_cases hu : isUnsafe (baseName e) a
      · exact .memberCall hu
      · exact absurd (if_neg hu) h
  | _ => exact absurd rfl h

lemma openViolations_ne_nil {l : ℕ} {func : Node} {args keywords : List Node}
    (h : openViolations l func args keywords ≠ []) : Matched (.call l func args keywords) := by
  unfold openViolations at h
  split at h
  · cases hmode : extractOpenMode args keywords with
    | none => exact absurd (by rw [hmode]) h
    | some mode =>
        rw [hmode] at h
        by_cases hd : isDangerousMode mode
        · exact .openCall hmode hd
        · exact absurd (if_neg hd) h
  · exact absurd rfl h

/-- A node gives a violation exactly when it has one of the forms. -/
lemma nodeViolations_ne_nil {n : Node} : nodeViolations n ≠ [] ↔ Matched n := by
  constructor
  · intro h
    cases n with
    | name l x k =>
        by_cases hx : x ∈ forbiddenCalls
        · exact .reference hx
        · exact absurd (if_neg hx) h
    | call l func args keywords =>
        by_cases hc : calleeViolations l func = []
        · refine openViolations_ne_nil fun ho => h ?_
          show calleeViolations l func ++ openViolations l func args keywords = []
          rw [hc, ho, List.append_nil]
        · exact calleeViolations_ne_nil args keywords hc
    | _ => exact absurd rfl h
  · intro h
    cases h with
    | reference hx => simp [nodeViolations, hx]
    | nameCall hx => simp [nodeViolations, calleeViolations, hx]
    | memberCall hu => simp [nodeViolations, calleeViolations, hu]
    | openCall hmode hd => simp [nodeViolations, openViolations, hmode, hd]

variable {parse : String → Except ParseError Module} {code : String} {m : Module}

/-- A source that does not parse is reported. -/
lemma scanCode_of_error {e : ParseError} (h : parse code = .error e) :
    scanCode parse code ≠ [] := by
  unfold scanCode
  rw [h]
  cases e <;> simp

/-- The scanner reports nothing on a tree none of whose nodes has one of the forms. -/
lemma scanCode_eq_nil (h : parse code = .ok m) :
    scanCode parse code = [] ↔ ∀ s, m.Within s → ¬Matched s.node := by
  unfold scanCode
  rw [h]
  show m.root.walk.flatMap nodeViolations = [] ↔ _
  rw [List.flatMap_eq_nil_iff]
  constructor
  · intro hall s hs hmatched
    have hmem := (TreeWalk.mem_walk Node.counts).mpr (Module.below_of_within hs)
    exact nodeViolations_ne_nil.mpr hmatched (hall _ hmem)
  · intro hnone n hn
    obtain ⟨s, hs, rfl⟩ := Module.within_of_below ((TreeWalk.mem_walk Node.counts).mp hn)
    by_contra hne
    exact hnone s hs (nodeViolations_ne_nil.mp hne)

end ASTSafetyScanner

end AtlasMemory
