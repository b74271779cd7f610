import Mathlib.Data.List.Sort
import Mathlib.Data.List.TakeWhile
import Mathlib.Data.Nat.Digits.Lemmas
import Mathlib.Data.String.Basic

/-!
# JSON values and their text

JSON values as a scripting language has them, and the text its standard serialiser writes: `", "`
and `": "` as separators, every character outside printable ASCII escaped, characters beyond the
basic plane as a surrogate pair.  A number is kept as its literal, so that it is compared and
written back without rounding; the grammar of the literal is a field.

An object is a list of members in order.  That the names are distinct, as in every object that
was built from a dictionary, is the predicate `Distinct`.
-/

def isDigit (c : Char) : Bool := '0' ≤ c && c ≤ '9'

namespace Json

/-! ## Number literals -/

/-- The characters from which a number literal is built. -/
def isNumberChar (c : Char) : Bool :=
  isDigit c || c = '-' || c = '+' || c = '.' || c = 'e' || c = 'E'

/-- A non-empty run of digits, then `rest`. -/
def matchDigits (rest : List Char → Bool) (cs : List Char) : Bool :=
  !(cs.takeWhile isDigit).isEmpty && rest (cs.dropWhile isDigit)

/-- `([eE][-+]?\d+)?` at the end. -/
def matchExponent : List Char → Bool
  | [] => true
  | c :: cs =>
    (c = 'e' || c = 'E') && match cs with
      | '-' :: cs | '+' :: cs => matchDigits List.isEmpty cs
      | cs => matchDigits List.isEmpty cs

/-- `(\.\d+)?`, then the exponent. -/
def matchFraction : List Char → Bool
  | '.' :: cs => matchDigits matchExponent cs
  | cs => matchExponent cs

/-- `0|[1-9]\d*`, then the fraction. -/
def matchInteger : List Char → Bool
  | '0' :: cs => matchFraction cs
  | cs => matchDigits matchFraction cs

/-- `-?(0|[1-9]\d*)(\.\d+)?([eE][-+]?\d+)?`. -/
def isNumber : List Char → Bool
  | '-' :: cs => matchInteger cs
  | cs => matchInteger cs

end Json

/-- The literal of a number. -/
structure NumberLit where
  text : String
  valid : Json.isNumber text.toList = true
  deriving DecidableEq

namespace NumberLit

/-- The decimal digits of a natural number. -/
def decimal (n : ℕ) : List Char :=
  if n = 0 then ['0'] else (Nat.digits 10 n).reverse.map fun d => Char.ofNat (48 + d)

lemma isDigit_ofNat : ∀ d < 10, isDigit (Char.ofNat (48 + d)) = true := by decide

lemma ofNat_ne_zero : ∀ d < 10, d ≠ 0 → Char.ofNat (48 + d) ≠ '0' := by decide

lemma isDigit_of_mem_decimal {n : ℕ} {c : Char} (hc : c ∈ decimal n) : isDigit c = true := by
  unfold decimal at hc
  split_ifs at hc with h
  · rw [List.mem_singleton.mp hc]
    decide
  · obtain ⟨d, hd, rfl⟩ := List.mem_map.mp hc
    exact isDigit_ofNat d (Nat.digits_lt_base (by omega) (List.mem_reverse.mp hd))

/-- The digits of a positive number start with one that is not zero. -/
lemma exists_decimal_eq_cons {n : ℕ} (h : n ≠ 0) : ∃ c cs, decimal n = c :: cs ∧ c ≠ '0' := by
  have hne : Nat.digits 10 n ≠ [] := Nat.digits_ne_nil_iff_ne_zero.mpr h
  have hlast := Nat.getLast_digit_ne_zero 10 h
  have hlt := Nat.digits_lt_base (by omega : 1 < 10) (List.getLast_mem hne)
  refine ⟨Char.ofNat (48 + (Nat.digits 10 n).getLast hne),
    ((Nat.digits 10 n).dropLast.reverse.map fun d => Char.ofNat (48 + d)), ?_,
    ofNat_ne_zero _ hlt hlast⟩
  rw [decimal, if_neg h]
  conv_lhs => rw [← List.dropLast_append_getLast hne]
  simp

lemma matchDigits_of_forall {rest : List Char → Bool} {cs : List Char} (hne : cs ≠ [])
    (h : ∀ c ∈ cs, isDigit c = true) : Json.matchDigits rest cs = rest [] := by
  have htake : cs.takeWhile isDigit = cs := List.takeWhile_eq_self_iff.mpr h
  have hdrop : cs.dropWhile isDigit = [] := List.dropWhile_eq_nil_iff.mpr h
  simp [Json.matchDigits, htake, hdrop, hne]

lemma matchInteger_decimal (n : ℕ) : Json.matchInteger (decimal n) = true := by
  by_cases h : n = 0
  · subst h
    decide
  · obtain ⟨c, cs, heq, hc⟩ := exists_decimal_eq_cons h
    have hall : ∀ c' ∈ c :: cs, isDigit c' = true := fun c' hc' =>
      isDigit_of_mem_decimal (heq ▸ hc')
    rw [heq, Json.matchInteger, matchDigits_of_forall (List.cons_ne_nil c cs) hall]
    · rfl
    · rintro cs' heq'
      exact hc (List.cons.inj heq').1

/-- `str(n)` of an integer. -/
def ofInt (n : ℤ) : NumberLit where
  text := String.ofList (if n < 0 then '-' :: decimal n.natAbs else decimal n.natAbs)
  valid := by
    rw [String.toList_ofList]
    split_ifs with h
    · exact matchInteger_decimal n.natAbs
    · by_cases h₀ : n.natAbs = 0
      · rw [h₀]
        decide
      · obtain ⟨c, cs, heq, hc⟩ := exists_decimal_eq_cons h₀
        have hdigit := isDigit_of_mem_decimal (heq ▸ List.mem_cons_self : c ∈ decimal n.natAbs)
        rw [heq, Json.isNumber, ← heq]
        · exact matchInteger_decimal n.natAbs
        · rintro cs' heq'
          rw [(List.cons.inj heq').1] at hdigit
          exact absurd hdigit (by decide)

end NumberLit

/-- A JSON value; `notANumber`, `infinity` and `negInfinity` are the three literals beyond the
standard that the serialiser writes for special floating point values. -/
inductive Json
  | null
  | bool (b : Bool)
  | number (n : NumberLit)
  | notANumber
  | infinity
  | negInfinity
  | str (s : String)
  | arr (items : List Json)
  | obj (members : List (String × Json))

namespace Json

/-! ## Writing -/

def hexDigit (n : ℕ) : Char := if n < 10 then Char.ofNat (48 + n) else Char.ofNat (87 + n)

/-- `\uXXXX`. -/
def unicodeEscape (n : ℕ) : List Char :=
  ['\\', 'u', hexDigit (n / 4096 % 16), hexDigit (n / 256 % 16), hexDigit (n / 16 % 16),
    hexDigit (n % 16)]

/-- One character of a string literal, with `ensure_ascii`. -/
def escapeChar (c : Char) : List Char :=
  if c = '"' then ['\\', '"']
  else if c = '\\' then ['\\', '\\']
  else if c = '\n' then ['\\', 'n']
  else if c = '\r' then ['\\', 'r']
  else if c = '\t' then ['\\', 't']
  else if c.toNat = 12 then ['\\', 'f']
  else if c.toNat = 8 then ['\\', 'b']
  else if 32 ≤ c.toNat ∧ c.toNat ≤ 126 then [c]
  else if c.toNat < 65536 then unicodeEscape c.toNat
  else unicodeEscape (55296 + (c.toNat - 65536) / 1024 % 1024) ++
    unicodeEscape (56320 + (c.toNat - 65536) % 1024)

def quote (s : String) : List Char := '"' :: s.toList.flatMap escapeChar ++ ['"']

mutual

/-- `json.dumps`, as characters. -/
def write : Json → List Char
  | .null => "null".toList
  | .bool true => "true".toList
  | .bool false => "false".toList
  | .number n => n.text.toList
  | .notANumber => "NaN".toList
  | .infinity => "Infinity".toList
  | .negInfinity => "-Infinity".toList
  | .str s => quote s
  | .arr items => '[' :: writeItems items ++ [']']
  | .obj members => '{' :: writeMembers members ++ ['}']

def writeItems : List Json → List Char
  | [] => []
  | [v] => write v
  | v :: w :: vs => write v ++ ',' :: ' ' :: writeItems (w :: vs)

def writeMembers : List (String × Json) → List Char
  | [] => []
  | [(k, v)] => quote k ++ ':' :: ' ' :: write v
  | (k, v) :: m :: ms => quote k ++ ':' :: ' ' :: write v ++ ',' :: ' ' :: writeMembers (m :: ms)

end

@[simp] lemma write_null : write .null = "null".toList := rfl
@[simp] lemma write_true : write (.bool true) = "true".toList := rfl
@[simp] lemma write_false : write (.bool false) = "false".toList := rfl
@[simp] lemma write_number (n : NumberLit) : write (.number n) = n.text.toList := rfl
@[simp] lemma write_notANumber : write .notANumber = "NaN".toList := rfl
@[simp] lemma write_infinity : write .infinity = "Infinity".toList := rfl
@[simp] lemma write_negInfinity : write .negInfinity = "-Infinity".toList := rfl
@[simp] lemma write_str (s : String) : write (.str s) = quote s := rfl
@[simp] lemma write_arr (items : List Json) :
    write (.arr items) = '[' :: writeItems items ++ [']'] := rfl
@[simp] lemma write_obj (members : List (String × Json)) :
    write (.obj members) = '{' :: writeMembers members ++ ['}'] := rfl

@[simp] lemma writeItems_nil : writeItems [] = [] := rfl
@[simp] lemma writeItems_singleton (v : Json) : writeItems [v] = write v := rfl
@[simp] lemma writeItems_cons_cons (v w : Json) (vs : List Json) :
    writeItems (v :: w :: vs) = write v ++ ',' :: ' ' :: writeItems (w :: vs) := rfl

@[simp] lemma writeMembers_nil : writeMembers [] = [] := rfl
@[simp] lemma writeMembers_singleton (m : String × Json) :
    writeMembers [m] = quote m.1 ++ ':' :: ' ' :: write m.2 := rfl
@[simp] lemma writeMembers_cons_cons (m m' : String × Json) (ms : List (String × Json)) :
    writeMembers (m :: m' :: ms) =
      quote m.1 ++ ':' :: ' ' :: write m.2 ++ ',' :: ' ' :: writeMembers (m' :: ms) := rfl

mutual

/-- The names in every object are distinct. -/
def Distinct : Json → Prop
  | .arr items => DistinctItems items
  | .obj members => (members.map Prod.fst).Nodup ∧ DistinctMembers members
  | _ => True

/-- The names in every object among the items are distinct. -/
def DistinctItems : List Json → Prop
  | [] => True
  | v :: vs => Distinct v ∧ DistinctItems vs

/-- The names in every object among the values of the members are distinct. -/
def DistinctMembers : List (String × Json) → Prop
  | [] => True
  | m :: ms => Distinct m.2 ∧ DistinctMembers ms

end

/-- `json.dumps(v)`. -/
def dumps (v : Json) : String := String.ofList (write v)

mutual

/-- The value with the members of every object sorted by name. -/
def sortKeys : Json → Json
  | .arr items => .arr (sortKeysItems items)
  | .obj members => .obj ((sortKeysMembers members).insertionSort fun m m' => m.1 ≤ m'.1)
  | v => v

def sortKeysItems : List Json → List Json
  | [] => []
  | v :: vs => sortKeys v :: sortKeysItems vs

def sortKeysMembers : List (String × Json) → List (String × Json)
  | [] => []
  | (k, v) :: ms => (k, sortKeys v) :: sortKeysMembers ms

end

/-- `json.dumps(v, sort_keys=True)`. -/
def dumpsSorted (v : Json) : String := dumps (sortKeys v)

example : dumps (.arr [.null, .bool true, .str "\"ż\n"]) =
    "[null, true, \"\\\"\\u017c\\n\"]" := by decide

end Json
