import AtlasMemory.Foundations.Json
import AtlasMemory.Foundations.PyFloat

/-!
# The standard library that the code calls

The digest, the text of a floating point number, the number of a text, and the text of a value
come from the standard library of the source language.  They are the components of a `Runtime`,
over which the model and its results are generic.  Of the digest only that it is never empty is
fixed, and of the numbers only that `1.0` is read back as it was written.
-/

namespace AtlasMemory

/-- The library functions that the code calls. -/
structure Runtime where
  /-- `hashlib.sha256(s.encode("utf-8")).hexdigest()`. -/
  hexdigest : String → String
  hexdigest_ne_empty : ∀ s, hexdigest s ≠ ""
  /-- `repr(x)` of a finite floating point number other than `-0.0`. -/
  floatLit : ℚ → NumberLit
  /-- `float(s)` of a text; `none` when it raises. -/
  parseFloat : String → Option PyFloat
  parseFloat_one : parseFloat (floatLit 1).text = some (.finite 1)
  /-- `str(v)` of a value. -/
  pyStr : Json → String

namespace Runtime

/-- `str(x)` of a floating point number. -/
def floatStr (rt : Runtime) : PyFloat → String
  | .finite x => (rt.floatLit x).text
  | .negZero => "-0.0"
  | .posInf => "inf"
  | .negInf => "-inf"
  | .nan => "nan"

/-- The JSON form of a floating point number. -/
def jsonFloat (rt : Runtime) : PyFloat → Json
  | .finite x => .number (rt.floatLit x)
  | .negZero => .number ⟨"-0.0", by decide⟩
  | .posInf => .infinity
  | .negInf => .negInfinity
  | .nan => .notANumber

/-- `float(v)` of a value read from JSON; `none` when it raises. -/
def floatOfJson (rt : Runtime) : Json → Option PyFloat
  | .number n => rt.parseFloat n.text
  | .bool b => some (.finite (if b then 1 else 0))
  | .notANumber => some .nan
  | .infinity => some .posInf
  | .negInfinity => some .negInf
  | .str s => rt.parseFloat s
  | .null | .arr _ | .obj _ => none

/-- `bool(v)`. -/
def truthy (rt : Runtime) : Json → Bool
  | .null => false
  | .bool b => b
  | .number n =>
    match rt.parseFloat n.text with
    | some x => !x.isZero
    | none => true
  | .notANumber | .infinity | .negInfinity => true
  | .str s => decide (s ≠ "")
  | .arr items => !items.isEmpty
  | .obj members => !members.isEmpty

/-- A runtime for evaluating the model: the digest marks its input, and the small integral numbers
are printed as they are. -/
def sample : Runtime where
  hexdigest s := "#" ++ s
  hexdigest_ne_empty s h := by
    have hlist := congrArg String.toList h
    rw [String.toList_append] at hlist
    exact absurd hlist (List.cons_ne_nil _ _)
  floatLit x :=
    if x = 0 then ⟨"0.0", by decide⟩
    else if x = 1 then ⟨"1.0", by decide⟩
    else if x = 2 then ⟨"2.0", by decide⟩
    else .ofInt x.num
  parseFloat s :=
    if s = "0.0" then some (.finite 0)
    else if s = "1.0" then some (.finite 1)
    else if s = "2.0" then some (.finite 2)
    else none
  parseFloat_one := by decide
  pyStr v :=
    match v with
    | .str s => s
    | v => v.dumps

lemma sample_injective : Function.Injective sample.hexdigest := by
  intro s t h
  have hlist := congrArg String.toList h
  simp only [sample, String.toList_append] at hlist
  exact String.toList_inj.mp (List.append_cancel_left hlist)

end Runtime

/-- The kinds of exceptions that the modelled calls raise. -/
inductive ErrorKind
  | valueError
  | typeError
  | integrityError
  | operationalError
  | attributeError
  | keyError
  | permissionError
  | runtimeError
  deriving DecidableEq

/-- An exception with its message. -/
structure PyError where
  kind : ErrorKind
  message : String
  deriving DecidableEq

lemma exists_of_bind_eq_ok {ε α β : Type} {x : Except ε α} {f : α → Except ε β} {b : β}
    (h : x.bind f = .ok b) : ∃ a, x = .ok a ∧ f a = .ok b := by
  cases x with
  | error err => exact absurd h (by simp [Except.bind])
  | ok a => exact ⟨a, rfl, h⟩

end AtlasMemory
