import Mathlib.Data.List.Basic
import Mathlib.Data.String.Basic

/-!
# Text comparison in the database

`LOWER` and `LIKE` of an SQL engine without locale support: both fold the twenty-six letters of
the Latin alphabet and no other character.
-/

namespace SqlText

/-- Lower case of an ASCII letter; any other character is kept. -/
def lowerChar (c : Char) : Char :=
  if 'A' ≤ c ∧ c ≤ 'Z' then Char.ofNat (c.toNat + 32) else c

/-- `LOWER(s)`. -/
def lower (s : String) : String := String.ofList (s.toList.map lowerChar)

/-- `s LIKE p` on characters: `%` stands for any text and `_` for any character. -/
def likeChars : List Char → List Char → Bool
  | [], s => s.isEmpty
  | c :: p, s =>
    if c = '%' then s.tails.any (likeChars p)
    else match s with
      | [] => false
      | d :: s => (c = '_' || lowerChar c = lowerChar d) && likeChars p s

/-- `s LIKE pattern`. -/
def like (pattern s : String) : Bool := likeChars pattern.toList s.toList

example : like "probe:%" "PROBE:1" = true := by decide

end SqlText
