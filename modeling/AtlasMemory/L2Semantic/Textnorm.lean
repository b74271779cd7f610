import AtlasMemory.Foundations.JsonParse

/-!
# Normalisation of stored text

The model of `textnorm.py`: literal escape sequences in stored text are undone, up to eight times,
and surrogates are repaired.  The four substitutions run one after the other over the whole text;
each is a left-to-right scan for a backslash followed by the right characters.
-/

namespace AtlasMemory

namespace Textnorm

open PyText

def backslash : PyChar := .scalar '\\'

/-- The number behind a backslash, `letter` and `n` hexadecimal digits; the text starts behind the
backslash. -/
def hexEscapeAt (letter : Char) (n : ℕ) : PyText → Option ℕ
  | .scalar c :: cs => if c = letter then hexPrefix n 0 cs else none
  | _ => none

/-- The characters that a backslash may precede in `_UNESCAPE_TABLE`, with what they stand for. -/
def unescapeTable (c : Char) : Option Char :=
  if c = 'n' then some '\n'
  else if c = 't' then some '\t'
  else if c = 'r' then some '\r'
  else if c = 'b' then some (Char.ofNat 8)
  else if c = 'f' then some (Char.ofNat 12)
  else if c = '/' then some '/'
  else if c = '\\' then some '\\'
  else if c = '\'' then some '\''
  else if c = '"' then some '"'
  else none

/-- `_LITERAL_ESCAPE_RE` matches at the front of the text; a double quote is not among its
characters. -/
def literalEscapeAt : PyText → Bool
  | .scalar c :: cs => c = '\\' &&
      ((hexEscapeAt 'u' 4 cs).isSome || (hexEscapeAt 'U' 8 cs).isSome ||
        (hexEscapeAt 'x' 2 cs).isSome ||
        match cs with
        | .scalar e :: _ => decide (e ≠ '"') && (unescapeTable e).isSome
        | _ => false)
  | _ => false

/-- `_has_literal_escape`. -/
def hasLiteralEscape (t : PyText) : Bool := t.tails.any literalEscapeAt

/-- Substitute the matches of a backslash, `letter` and `n` hexadecimal digits; the first argument
counts the code points of a match that are still to be skipped.  `none` when `chr` raises. -/
def subHex (letter : Char) (n : ℕ) : ℕ → PyText → Option PyText
  | _, [] => some []
  | skip + 1, _ :: cs => subHex letter n skip cs
  | 0, c :: cs =>
    if c = backslash then
      match hexEscapeAt letter n cs with
      | some code => (chr code).bind fun u => (subHex letter n (n + 1) cs).map (u :: ·)
      | none => (subHex letter n 0 cs).map (c :: ·)
    else (subHex letter n 0 cs).map (c :: ·)

def subSimple : PyText → PyText
  | .scalar c :: .scalar e :: cs =>
    if c = '\\' then
      match unescapeTable e with
      | some u => .scalar u :: subSimple cs
      | none => .scalar c :: subSimple (.scalar e :: cs)
    else .scalar c :: subSimple (.scalar e :: cs)
  | c :: cs => c :: subSimple cs
  | [] => []

/-- `_regex_unescape`; the fifth substitution puts back what it matches. -/
def regexUnescape (t : PyText) : Option PyText := do
  let t ← subHex 'u' 4 0 t
  let t ← subHex 'U' 8 0 t
  let t ← subHex 'x' 2 0 t
  return subSimple t

/-- The JSON string that the whole of a stripped text is. -/
def wholeString : PyText → Option PyText
  | .scalar '"' :: cs => (Json.scanString cs).bind fun r => if r.2 = [] then some r.1 else none
  | _ => none

/-- `_unescape_one_pass`. -/
def unescapeOnePass (t : PyText) : Option PyText :=
  match wholeString (strip t) with
  | some s => some s
  | none => regexUnescape t

/-- The loop of `normalize_stored_text`, with at most the given number of passes. -/
def unescapePasses : ℕ → PyText → Option PyText
  | 0, t => some t
  | n + 1, t => do
    let candidate ← unescapeOnePass t
    if candidate = t then some t else unescapePasses n candidate

/-- `_repair_surrogates`: pairs are joined, lone halves dropped. -/
def repairSurrogates : PyText → PyText
  | .high h :: .low l :: cs => .scalar (join h l) :: repairSurrogates cs
  | .scalar c :: cs => .scalar c :: repairSurrogates cs
  | _ :: cs => repairSurrogates cs
  | [] => []

/-- `normalize_stored_text`; on an exception the original text is returned. -/
def normalizeStoredText (t : PyText) : PyText :=
  let normalized := if hasLiteralEscape t then unescapePasses 8 t else some t
  match normalized with
  | some t' => repairSurrogates t'
  | none => t

end Textnorm

end AtlasMemory
