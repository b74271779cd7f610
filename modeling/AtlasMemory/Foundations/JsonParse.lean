import AtlasMemory.Foundations.Json
import AtlasMemory.Foundations.PyDict
import AtlasMemory.Foundations.PyText

/-!
# Reading JSON text

The standard reader: white space between tokens, strict string literals (no control characters)
with the usual escapes, a surrogate pair written as two escapes joined into one character, the
three literals for special floating point values, and dictionaries built from the members in
order, so that a repeated name keeps its place and takes the last value.

The reader is recursive with fuel; the length of the text is always enough, since every recursive
step consumes a character.  A number is the longest run of characters that may occur in one: what a
shorter match would leave of that run could not follow a value, so the accepted texts are the
same.
-/

namespace Json

open PyText

/-! ## Tokens -/

def isSpace : PyChar → Bool
  | .scalar c => c = ' ' || c = '\t' || c = '\n' || c = '\r'
  | _ => false

def skipSpace (cs : PyText) : PyText := cs.dropWhile isSpace

def simpleEscape (c : Char) : Option Char :=
  if c = '"' then some '"'
  else if c = '\\' then some '\\'
  else if c = '/' then some '/'
  else if c = 'b' then some (Char.ofNat 8)
  else if c = 'f' then some (Char.ofNat 12)
  else if c = 'n' then some '\n'
  else if c = 'r' then some '\r'
  else if c = 't' then some '\t'
  else none

/-- The body of a string literal up to the closing quote, as code points with a mark on those that
were written as `\uXXXX`, and the rest of the text. -/
def scanUnits : PyText → Option (List (PyChar × Bool) × PyText)
  | [] => none
  | .scalar c :: cs =>
    if c = '"' then some ([], cs)
    else if c = '\\' then
      match cs with
      | .scalar 'u' :: a :: b :: c :: d :: cs => do
        let n ← hexPrefix 4 0 [a, b, c, d]
        let unit ← chr n
        let (units, rest) ← scanUnits cs
        return ((unit, true) :: units, rest)
      | .scalar e :: cs => do
        let unit ← simpleEscape e
        let (units, rest) ← scanUnits cs
        return ((.scalar unit, false) :: units, rest)
      | _ => none
    else if c.toNat < 32 then none
    else (scanUnits cs).map fun r => ((.scalar c, false) :: r.1, r.2)
  | u :: cs => (scanUnits cs).map fun r => ((u, false) :: r.1, r.2)

/-- Join the surrogate pairs that were written as two escapes. -/
def joinUnits : List (PyChar × Bool) → PyText
  | (.high h, true) :: (.low l, true) :: us => .scalar (join h l) :: joinUnits us
  | u :: us => u.1 :: joinUnits us
  | [] => []

/-- A string literal after the opening quote. -/
def scanString (cs : PyText) : Option (PyText × PyText) :=
  (scanUnits cs).map fun r => (joinUnits r.1, r.2)

/-- Whether a code point may occur in a number. -/
def isNumberUnit : PyChar → Bool
  | .scalar c => isNumberChar c
  | _ => false

/-- The characters of a run of scalar values. -/
def scalars : PyText → List Char
  | .scalar c :: cs => c :: scalars cs
  | _ => []

def scanNumber (cs : PyText) : Option (Json × PyText) :=
  let lit := scalars (cs.takeWhile isNumberUnit)
  if h : isNumber lit = true then
    some (.number ⟨String.ofList lit, by rw [String.toList_ofList]; exact h⟩,
      cs.dropWhile isNumberUnit)
  else none

/-- Drop a keyword from the front of the text. -/
def dropKeyword : List Char → PyText → Option PyText
  | [], cs => some cs
  | k :: ks, .scalar c :: cs => if k = c then dropKeyword ks cs else none
  | _ :: _, _ => none

@[simp] lemma dropKeyword_nil (cs : PyText) : dropKeyword [] cs = some cs := rfl

@[simp] lemma dropKeyword_cons (k c : Char) (ks : List Char) (cs : PyText) :
    dropKeyword (k :: ks) (.scalar c :: cs) = if k = c then dropKeyword ks cs else none := rfl

/-- A value that is no string, array or object. -/
def scanScalar (cs : PyText) : Option (Json × PyText) :=
  let keyword (word : String) (v : Json) := (dropKeyword word.toList cs).map fun r => (v, r)
  (keyword "null" .null).orElse fun _ =>
  (keyword "true" (.bool true)).orElse fun _ =>
  (keyword "false" (.bool false)).orElse fun _ =>
  (keyword "NaN" .notANumber).orElse fun _ =>
  (keyword "Infinity" .infinity).orElse fun _ =>
  (keyword "-Infinity" .negInfinity).orElse fun _ =>
  scanNumber cs

/-! ## Values -/

def dictOf (members : List (String × Json)) : List (String × Json) :=
  members.foldl (fun d m => PyDict.assign m.1 m.2 d) []

mutual

def parseValue : ℕ → PyText → Option (Json × PyText)
  | 0, _ => none
  | n + 1, cs =>
    match cs with
    | .scalar '"' :: cs => (scanString cs).map fun r => (.str (toText r.1), r.2)
    | .scalar '[' :: cs =>
      match skipSpace cs with
      | .scalar ']' :: rest => some (.arr [], rest)
      | cs => (parseItems n cs).map fun r => (.arr r.1, r.2)
    | .scalar '{' :: cs =>
      match skipSpace cs with
      | .scalar '}' :: rest => some (.obj [], rest)
      | cs => (parseMembers n cs).map fun r => (.obj (dictOf r.1), r.2)
    | cs => scanScalar cs

/-- The items of an array, up to the closing bracket. -/
def parseItems : ℕ → PyText → Option (List Json × PyText)
  | 0, _ => none
  | n + 1, cs => do
    let (v, rest) ← parseValue n cs
    match skipSpace rest with
    | .scalar ']' :: rest => some ([v], rest)
    | .scalar ',' :: rest => (parseItems n (skipSpace rest)).map fun r => (v :: r.1, r.2)
    | _ => none

/-- The members of an object, up to the closing brace. -/
def parseMembers : ℕ → PyText → Option (List (String × Json) × PyText)
  | 0, _ => none
  | n + 1, cs =>
    match cs with
    | .scalar '"' :: cs => do
      let (k, rest) ← scanString cs
      match skipSpace rest with
      | .scalar ':' :: rest => do
        let (v, rest) ← parseValue n (skipSpace rest)
        match skipSpace rest with
        | .scalar '}' :: rest => some ([(toText k, v)], rest)
        | .scalar ',' :: rest =>
          (parseMembers n (skipSpace rest)).map fun r => ((toText k, v) :: r.1, r.2)
        | _ => none
      | _ => none
    | _ => none

end

/-- `json.loads`; `none` when it raises. -/
def loads (t : PyText) : Option Json :=
  match parseValue (t.length + 1) (skipSpace t) with
  | some (v, rest) => if skipSpace rest = [] then some v else none
  | none => none

end Json
