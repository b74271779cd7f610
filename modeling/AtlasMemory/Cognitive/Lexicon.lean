import AtlasMemory.Foundations.Json
import AtlasMemory.Foundations.PyText
import AtlasMemory.Foundations.SqlText
import Mathlib.Data.Finset.Image
import Mathlib.Data.Finset.Sort

/-!
# The lexicon

The model of `lexicon.py`: the word lists of the arbiter and the functions that take tokens, stems,
prohibited terms, exclusive targets and governed actions out of a text.

Two of the word lists are loaded when the module is imported, the stop words from the language
assets and the developer tools from the domain profiles; they are components of a `Lexicon`, and so
are the functions that follow the tables of the character standard, such as lower-casing.  A set of the
source is a finite set here, since nothing that is computed from one depends on an order.
-/

namespace PyString

/-- `s.split(sep)` for a separator of one character. -/
def split (sep : Char) (s : String) : List String :=
  (s.toList.splitOnP fun c => decide (c = sep)).map String.ofList

/-- `sep in s` for one character. -/
def hasChar (c : Char) (s : String) : Bool := decide (c ∈ s.toList)

/-- `s in t`. -/
def hasInfix (s t : String) : Bool := t.toList.tails.any fun cs => s.toList.isPrefixOf cs

/-- `s.endswith(suf)`. -/
def endsWith (s suf : String) : Bool := suf.toList.isSuffixOf s.toList

/-- `s.startswith(pres)` for a tuple. -/
def startsWithAny (s : String) (pres : List String) : Bool := pres.any (startsWith s)

end PyString

namespace AtlasMemory

/-- What the lexicon takes from its environment. -/
structure Lexicon where
  /-- `text.lower()`. -/
  lower : String → String
  /-- The stop words of the language assets. -/
  combinedStopwords : Finset String
  /-- `DEVELOPER_TOOLS`. -/
  developerTools : Finset String
  /-- `list(s)` of a set, in the order in which the interpreter iterates it. -/
  listOf : Finset String → List String
  /-- `s.isdigit()`. -/
  isDigits : String → Bool
  /-- `re.fullmatch(r"[\d\W_]+", s)`. -/
  isUnlettered : String → Bool

namespace Lexicon

/-! ## Word lists -/

/-- `EXCLUSIVITY_WORDS`. -/
def exclusivityWords : List String :=
  ["wyłącznie", "tylko", "jedynie", "sole", "solely", "exclusively", "only"]

/-- `PROHIBITION_WORDS`. -/
def prohibitionWords : List String :=
  ["nie", "not", "brak", "never", "nigdy", "zabronione", "zabronił", "zabrania", "zakaz",
    "zakazane", "odrzucona", "bypasses", "usunięty", "forbid", "forbidden", "prohibited",
    "disallow", "disallowed", "bez", "zabraniać", "zabroniony"]

/-- `AFFIRMATIVE_WORDS`. -/
def affirmativeWords : List String :=
  ["uses", "używa", "używać", "używamy", "is", "jest", "requires", "enabled", "active", "zawsze",
    "always", "allow", "allowed", "wykonujemy", "zezwala", "pozwala", "zezwól", "stosujemy",
    "stosuje", "stosować", "dozwolone", "dozwolony", "dozwolona", "wykonaj"]

/-- `CONTROL_WORDS`. -/
def controlWords : List String := exclusivityWords ++ prohibitionWords ++ affirmativeWords

/-- `GENERIC_WORDS`. -/
def genericWords : List String :=
  ["narzędzia", "narzędzie", "narzędzi", "tool", "tools", "funkcja", "funkcji", "metoda", "metody",
    "sposób", "sposobu", "kod", "kodu", "rzecz", "rzeczy", "rule", "state", "fact", "config",
    "system", "memory", "atlas", "test", "variable", "item", "default", "wartość", "parametr",
    "opcja", "użytkownika", "action", "task", "preference", "sensor", "architecture"]

/-- `ACTION_PREFIXES`. -/
def actionPrefixes : List String :=
  ["wdraż", "deploy", "instal", "urucham", "commit", "push", "merge", "budow", "build", "test",
    "zapis", "sync", "read", "writ", "zarządz", "edycj", "logow", "pobier", "usuw", "dostęp",
    "access", "stor"]

/-- `ENVIRONMENT_TOKENS`. -/
def environmentTokens : List String :=
  ["staging", "prod", "production", "dev", "development", "test", "testing", "local"]

/-- `FUNCTIONAL_SLOTS`. -/
def functionalSlots : List String :=
  ["port", "ip", "status", "version", "email", "role", "active", "engine", "host", "state", "mode",
    "protocol", "timeout", "ttl", "temperature", "speed", "name", "license", "branch_strategy",
    "file_ops", "auth"]

/-- `KNOWN_NAMESPACES`. -/
def knownNamespaces : List String :=
  ["fact", "rule", "temp", "user", "system", "config", "session", "agent", "state", "service",
    "preference", "constraint", "metric", "observation", "incident", "probe", "sop", "atlas",
    "action", "architecture"]

/-- The suffixes that `polish_stem` strips, in order. -/
def stemSuffixes : List String :=
  ["owania", "owanie", "owaniu", "owaniach", "owaniami", "alności", "alność", "alnością", "ościach",
    "ościami", "ościom", "nością", "ności", "ność", "owemu", "owych", "owymi", "owego", "owej",
    "owym", "iach", "iami", "iom", "ach", "ami", "om", "cja", "cję", "cji", "cją", "cje", "cjo",
    "ego", "emu", "ych", "ymi", "ym", "em", "am", "om", "ie", "ej", "ze", "a", "e", "y", "i", "o",
    "u", "ę", "ą"]

/-- `explicit_prohib`. -/
def explicitProhibitions : List String :=
  ["zakaz", "zakazane", "zabronione", "zabrania", "zabronił", "nigdy", "never", "forbid",
    "forbidden", "prohibited", "disallow", "disallowed", "zabraniać", "zabroniony"]

/-- The words that make a prohibition of the negation before them. -/
def negatedVerbs : List String :=
  ["wolno", "zezwala", "pozwala", "należy", "używa", "używać", "używaj", "loguj", "uruchamiaj"]

variable (lex : Lexicon)

/-- `STOP_WORDS`. -/
def stopWords : Finset String :=
  lex.combinedStopwords.filter fun w => w ∉ exclusivityWords ∧ w ∉ prohibitionWords

/-! ## Tokens and stems -/

/-- `[a-zA-Z0-9ąćęłńóśźżĄĆĘŁŃÓŚŹŻ]`. -/
def isWordChar (c : Char) : Bool :=
  ('a' ≤ c && c ≤ 'z') || ('A' ≤ c && c ≤ 'Z') || ('0' ≤ c && c ≤ '9') ||
    "ąćęłńóśźżĄĆĘŁŃÓŚŹŻ".toList.contains c

/-- The words of at least three characters. -/
def wordsOf (s : String) : List String :=
  ((s.toList.splitOnP fun c => !isWordChar c).filter fun w => 3 ≤ w.length).map String.ofList

/-- `polish_stem`. -/
def polishStem (word : String) : String :=
  let w := lex.lower word
  if PyString.startsWithAny w ["zewnątrz", "zewnętrz"] then "zewnątrz"
  else if w.length ≤ 4 then w
  else
    match stemSuffixes.find? fun suf => PyString.endsWith w suf && 4 ≤ w.length - suf.length with
    | some suf => String.ofList (w.toList.take (w.length - suf.length))
    | none => w

/-- `extract_tokens`. -/
def extractTokens (text : String) : Finset String :=
  ((wordsOf (lex.lower text)).filter fun t => t ∉ lex.stopWords).toFinset

/-- `extract_stems`. -/
def extractStems (tokens : Finset String) : Finset String := tokens.image lex.polishStem

/-- The words that a prohibition at the front of a clause governs; the words after it are given. -/
def governedBy (w : String) (rest : List String) : List String :=
  let negation := decide (w = "nie") || decide (w = "not")
  let isProhib := decide (w ∈ explicitProhibitions) ||
    (negation && match rest with
      | next :: _ => decide (next ∈ negatedVerbs)
      | [] => false)
  if isProhib then
    (((if negation then rest.drop 1 else rest).take 5).filter fun next =>
      next ∉ lex.stopWords ∧ next ∉ prohibitionWords ∧ next ∉ genericWords)
  else []

def prohibitedIn : List String → List String
  | [] => []
  | w :: rest => lex.governedBy w rest ++ prohibitedIn rest

/-- `extract_prohibited_terms`. -/
def extractProhibitedTerms (text : String) : Finset String :=
  let clauses := text.toList.splitOnP fun c => ".;,\n|—–()".toList.contains c
  (clauses.flatMap fun clause =>
    lex.prohibitedIn (wordsOf (lex.lower (String.ofList clause)))).toFinset

/-- `extract_governed_action`. -/
def extractGovernedAction (tokens : Finset String) : Finset String :=
  tokens.filter fun t => actionPrefixes.any (PyString.startsWith (lex.polishStem t))

/-! ## Exclusive targets

The pattern is matched with backtracking: a matcher lists what is left of the text after each of the
ways to match at its front, in the order in which they are tried. -/

/-- The ways to match at the front of a text. -/
abbrev Matcher := List Char → List (List Char)

namespace Matcher

def word (w : String) : Matcher := fun cs =>
  if w.toList.isPrefixOf cs then [cs.drop w.length] else []

def andThen (m n : Matcher) : Matcher := fun cs => (m cs).flatMap n

/-- `m?`. -/
def optional (m : Matcher) : Matcher := fun cs => m cs ++ [cs]

/-- `(?:m|n|…)`. -/
def oneOf (ms : List Matcher) : Matcher := fun cs => ms.flatMap fun m => m cs

/-- As many white space characters as possible, but at least `least`. -/
def spaces (least : ℕ) : Matcher := fun cs =>
  let n := (cs.takeWhile PyText.isPySpace).length
  (List.range (n + 1 - least)).map fun i => cs.drop (n - i)

end Matcher

open Matcher in
/-- The pattern of `extract_exclusive_target` up to its group. -/
def exclusivePattern : Matcher :=
  let modifier := oneOf (["wyłącznie", "tylko", "jedynie", "solely", "exclusively", "only"].map word)
  let link := oneOf [word "przez", ((word "za").andThen (spaces 1)).andThen (word "pomocą"),
    word "via", word "through", word "in", ((word "w").andThen (spaces 1)).andThen (word "języku"),
    word "w", word "jako", word "dla"]
  ((modifier.andThen (spaces 1)).andThen (optional link)).andThen (spaces 0)

/-- The group: up to 35 word characters or white space, at least three. -/
def targetGroup (cs : List Char) : Option (List Char) :=
  let phrase := (cs.takeWhile fun c => isWordChar c || PyText.isPySpace c).take 35
  if 3 ≤ phrase.length then some phrase else none

/-- The match at the front of the text: the group, and the length of the match. -/
def exclusiveMatch (cs : List Char) : Option (List Char × ℕ) :=
  (exclusivePattern cs).findSome? fun rest =>
    (targetGroup rest).map fun phrase => (phrase, cs.length - rest.length + phrase.length)

/-- The groups of the matches from left to right; the first argument counts the characters of a
match that are still to be skipped. -/
def exclusivePhrases : ℕ → List Char → List (List Char)
  | _, [] => []
  | skip + 1, _ :: cs => exclusivePhrases skip cs
  | 0, c :: cs =>
    match exclusiveMatch (c :: cs) with
    | some (phrase, n) => phrase :: exclusivePhrases (n - 1) cs
    | none => exclusivePhrases 0 cs

/-- The words at which the head of a phrase ends. -/
def contextDelimiters : List String :=
  ["w", "we", "na", "dla", "z", "ze", "od", "do", "podczas", "przed", "po", "oraz", "i", "a", "ale",
    "gdy"]

/-- The text starts with a delimiter as a whole word. -/
def delimiterAt (cs : List Char) : Bool :=
  contextDelimiters.any fun w => w.toList.isPrefixOf cs &&
    match cs.drop w.length with
    | c :: _ => !isWordChar c
    | [] => true

/-- The phrase up to the first delimiter; the first argument says whether a word goes on. -/
def headPart : Bool → List Char → List Char
  | _, [] => []
  | inWord, c :: cs =>
    if (!inWord && delimiterAt (c :: cs)) || ";,.:()\"'".toList.contains c then []
    else c :: headPart (isWordChar c) cs

def targetsIn (phrase : List Char) : Finset String :=
  let head := PyString.strip (String.ofList (headPart false phrase))
  (lex.extractTokens (if head ≠ "" then head else String.ofList phrase)).filter fun t =>
    t ∉ controlWords ∧ t ∉ genericWords

/-- `extract_exclusive_target`. -/
def extractExclusiveTarget (text : String) : Finset String :=
  (exclusivePhrases 0 (lex.lower text).toList).foldl (fun acc phrase => acc ∪ lex.targetsIn phrase) ∅

end Lexicon

/-- A lexicon for evaluating the model on short texts without letters beyond ASCII. -/
def sampleLexicon : Lexicon where
  lower := SqlText.lower
  combinedStopwords := {"the"}
  developerTools := {"docker"}
  listOf s := s.sort fun a b => a ≤ b
  isDigits s := decide (s ≠ "") && s.toList.all isDigit
  isUnlettered s := decide (s ≠ "") && s.toList.all fun c => !c.isAlpha

end AtlasMemory
