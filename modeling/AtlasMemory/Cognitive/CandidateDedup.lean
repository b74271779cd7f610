import AtlasMemory.Cognitive.Packing

/-!
# Duplicates among the candidates

The model of `ScoringPipeline.dedup_candidates` and of `compute_content_fingerprint`.  Two candidates
are duplicates if their fingerprints are equal.  The fingerprint of a text begins with its first
tokens and ends with its checksum; before it is taken, a label in front of the first colon and the
marks of the predicate are removed, and case and white space are normalised.  A candidate with a key
and without a source is told apart by its key as well, and so is one with a short value.

What follows the tables of the character standard, and the checksum, are in a `ScoringEnv`.  A
candidate is a dictionary with its identity, which stands for a missing key.
-/

namespace AtlasMemory

/-- What the removal of duplicates takes from its environment. -/
structure ScoringEnv where
  rt : Runtime
  /-- `text.lower()`. -/
  lower : String → String
  /-- The characters that `\w` matches. -/
  isWord : Char → Bool
  isWord_colon : isWord ':' = false
  /-- `s.isdigit()`. -/
  isDigits : String → Bool
  /-- `format(zlib.crc32(s.encode("utf-8")), "08x")`. -/
  checksum : String → String
  checksum_ne_empty : ∀ s, checksum s ≠ ""
  checksum_colon : ∀ s, ':' ∉ (checksum s).toList

/-- A candidate. -/
structure CandidateDict where
  /-- `id(c)`. -/
  ident : ℕ
  fields : PyDict String Json

namespace Fingerprint

/-! ## Texts -/

/-- `text.split()`. -/
def words (cs : List Char) : List (List Char) :=
  (cs.splitOnP PyText.isPySpace).filter fun w => !w.isEmpty

/-- The text after a label of at most three words. -/
def stripLabel (cs : List Char) : List Char :=
  if ':' ∈ cs ∧ (words (cs.takeWhile fun c => c ≠ ':')).length ≤ 3 then
    PyText.stripList PyText.isPySpace (cs.dropWhile fun c => c ≠ ':').tail
  else cs

def statedMark : List Char := ":stated_memory".toList

/-- Whether a character of a pattern matches regardless of case: beside the two cases of a letter
the long s is one more form of `s`. -/
def matchesAnyCase (p c : Char) : Bool := c = p || c = p.toUpper || (p = 's' && c = 'ſ')

/-- Whether a text begins with a pattern that ends at the end of a word. -/
def beginsWithMark (isWord : Char → Bool) : List Char → List Char → Bool
  | [], [] => true
  | [], c :: _ => !isWord c
  | _ :: _, [] => false
  | p :: ps, c :: cs => matchesAnyCase p c && beginsWithMark isWord ps cs

/-- `re.sub(r":stated_memory\b", "", text, flags=re.I)`, with `skip` characters of a match left. -/
def removeMarks (isWord : Char → Bool) : ℕ → List Char → List Char
  | _, [] => []
  | skip + 1, _ :: cs => removeMarks isWord skip cs
  | 0, c :: cs =>
    if beginsWithMark isWord statedMark (c :: cs) then
      removeMarks isWord (statedMark.length - 1) cs
    else c :: removeMarks isWord 0 cs

/-- `re.sub(r"\s+", " ", text)`, within a run of white space or not. -/
def collapseSpaces : Bool → List Char → List Char
  | _, [] => []
  | inRun, c :: cs =>
    if PyText.isPySpace c then
      if inRun then collapseSpaces true cs else ' ' :: collapseSpaces true cs
    else c :: collapseSpaces false cs

variable (env : ScoringEnv)

/-- `re.sub(r"\s+", " ", text.strip().lower())`. -/
def normalText (text : String) : String :=
  String.ofList (collapseSpaces false (env.lower (PyString.strip text)).toList)

/-- The text of which the checksum is taken. -/
def reducedText (text : String) : String :=
  normalText env (String.ofList
    (removeMarks env.isWord 0 (stripLabel (PyString.strip text).toList)))

def tokenPrefix (clean : String) : String :=
  let found := (clean.toList.splitOnP fun c => !env.isWord c).filter fun w => !w.isEmpty
  let tokens := found.filter fun w => 3 ≤ w.length || env.isDigits (String.ofList w)
  String.ofList (List.intercalate ['_'] (tokens.take 8))

/-- `compute_content_fingerprint`. -/
def computeContentFingerprint (text : String) : String :=
  let clean := reducedText env text
  if tokenPrefix env clean = "" then env.checksum clean
  else tokenPrefix env clean ++ "::" ++ env.checksum clean

/-! ## Candidates -/

variable (c : CandidateDict)

/-- `c.get(name)`. -/
def field (name : String) : Json := c.fields.getD name .null

/-- `str(c.get("object", "") or c.get("value", "")).strip()`. -/
def objVal : String :=
  let object := c.fields.getD "object" (.str "")
  PyString.strip (env.rt.pyStr
    (if env.rt.truthy object then object else c.fields.getD "value" (.str "")))

/-- `str(c.get("key") or c.get("subject") or id(c)).strip()`. -/
def candKey : String :=
  PyString.strip (
    if env.rt.truthy (field c "key") then env.rt.pyStr (field c "key")
    else if env.rt.truthy (field c "subject") then env.rt.pyStr (field c "subject")
    else toString c.ident)

/-- Whether a value is short: a number, a flag, a word or two. -/
def isAtomicValue (obj : String) : Bool := obj.length ≤ 16 || (words obj.toList).length ≤ 2

/-- How a candidate is told apart. -/
inductive Kind
  /-- By its content and its own key. -/
  | manual
  /-- By its key and its content. -/
  | atomic
  /-- By its content alone. -/
  | content
  deriving DecidableEq

def kind : Kind :=
  if c.fields.contains "key" && !c.fields.contains "source" then .manual
  else if isAtomicValue (objVal env c) && candKey env c ≠ "" &&
      !PyString.startsWith (candKey env c) "<" then .atomic
  else .content

/-- The key by which a candidate is told apart. -/
def keyOf : String :=
  match kind env c with
  | .manual => env.rt.pyStr (field c "key")
  | .atomic | .content => candKey env c

def fingerprint : String :=
  let content := computeContentFingerprint env (objVal env c)
  match kind env c with
  | .manual => if content = "" then keyOf env c else content ++ "::" ++ keyOf env c
  | .atomic => if content = "" then keyOf env c else keyOf env c ++ "::" ++ content
  | .content => if content = "" then keyOf env c else content

/-! ## Removal -/

/-- `get_record_authority_score`. -/
def recordAuthorityScore (subj : String) : ℕ :=
  let s := env.lower subj
  if PyString.startsWithAny s ["rule:", "user_rule:", "user:rule:", "preference:", "constraint:"] ||
      PyString.hasInfix ":rule:" s then 110
  else if PyString.startsWithAny s ["hermes:user_md:", "hermes:memory_md:"] then 100
  else if PyString.startsWith s "mnemosyne:canonical_facts:" then 70
  else if PyString.startsWith s "mnemosyne:mnemosyne_working_memory:" then 30
  else if PyString.startsWith s "fact:" then 80
  else if PyString.startsWith s "database_" || !PyString.hasChar ':' s then 90
  else 50

/-- `float(c.get(name, 0.0) or 0.0)`. -/
def score (name : String) : Option PyFloat :=
  Packing.floatOr env.rt (c.fields.getD name (.number (env.rt.floatLit 0)))

/-- `dedup_rank_key`. -/
def dedupRankKey : Option (ℕ × PyFloat × PyFloat) := do
  let graph ← score env c "graph_score"
  let vec ← score env c "vector_score"
  return (recordAuthorityScore env (env.rt.pyStr (c.fields.getD "subject" (.str ""))), graph, vec)

/-- `x < y` for two rank keys. -/
def rankKeyLt (x y : ℕ × PyFloat × PyFloat) : Bool :=
  if x.1 = y.1 then PyFloat.pairLt x.2 y.2 else x.1 < y.1

/-- `max(x, y)`. -/
def maxScore (x y : PyFloat) : PyFloat := if x.lt y then y else x

/-- The candidate that stays of two with one fingerprint, with the scores of both. -/
def merge (prev c : CandidateDict) : Option CandidateDict := do
  let curVs ← score env c "vector_score"
  let prevVs ← score env prev "vector_score"
  let curGs ← score env c "graph_score"
  let prevGs ← score env prev "graph_score"
  let mergedGraph := maxScore prevGs curGs
  let hit := env.rt.truthy (field prev "graph_hit") || env.rt.truthy (field c "graph_hit") ||
    (PyFloat.finite 0).lt mergedGraph
  let target := if rankKeyLt (← dedupRankKey env prev) (← dedupRankKey env c) then c else prev
  return { target with
    fields := ((target.fields.set "vector_score" (env.rt.jsonFloat (maxScore prevVs curVs))).set
      "graph_score" (env.rt.jsonFloat mergedGraph)).set "graph_hit" (.bool hit) }

def takeUp (dedup : PyDict String CandidateDict) (c : CandidateDict) :
    Option (PyDict String CandidateDict) :=
  match dedup.get? (fingerprint env c) with
  | none => some (dedup.set (fingerprint env c) c)
  | some prev => (merge env prev c).map fun target => dedup.set (fingerprint env c) target

/-- `dedup_candidates`. -/
def dedupCandidates (candidates : List CandidateDict) : Option (List CandidateDict) :=
  (candidates.foldlM (takeUp env) ∅).map PyDict.values

end Fingerprint

end AtlasMemory
