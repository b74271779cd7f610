import Mathlib.Data.List.Basic
import Mathlib.Data.List.DropRight
import Mathlib.Data.String.Basic

/-!
# Text with surrogates

A string of the scripting language is a sequence of code points in which the surrogate code points
may stand alone.  `PyChar` separates the scalar values, which are the characters of ordinary text,
from the two halves of a surrogate pair; `ofString` embeds ordinary text.
-/

/-- A code point: a scalar value, or one half of a surrogate pair. -/
inductive PyChar
  | scalar (c : Char)
  | high (n : Fin 1024)
  | low (n : Fin 1024)
  deriving DecidableEq

/-- A text that may contain lone surrogates. -/
abbrev PyText := List PyChar

namespace PyText

def ofChars (cs : List Char) : PyText := cs.map PyChar.scalar

def ofString (s : String) : PyText := ofChars s.toList

/-- The character that a pair of surrogates stands for. -/
def join (h l : Fin 1024) : Char := Char.ofNat (65536 + h * 1024 + l)

/-- `chr(n)`, which raises beyond the last code point. -/
def chr (n : ℕ) : Option PyChar :=
  if n < 55296 then some (.scalar (Char.ofNat n))
  else if n < 56320 then some (.high (Fin.ofNat 1024 (n - 55296)))
  else if n < 57344 then some (.low (Fin.ofNat 1024 (n - 56320)))
  else if n < 1114112 then some (.scalar (Char.ofNat n))
  else none

def hexValue (c : Char) : Option ℕ :=
  if '0' ≤ c ∧ c ≤ '9' then some (c.toNat - 48)
  else if 'a' ≤ c ∧ c ≤ 'f' then some (c.toNat - 87)
  else if 'A' ≤ c ∧ c ≤ 'F' then some (c.toNat - 55)
  else none

/-- The value of the first `n` characters, if all are hexadecimal digits, continuing from `acc`. -/
def hexPrefix : ℕ → ℕ → PyText → Option ℕ
  | 0, acc, _ => some acc
  | n + 1, acc, .scalar c :: cs => (hexValue c).bind fun d => hexPrefix n (16 * acc + d) cs
  | _ + 1, _, _ => none

/-- The characters that `str.strip()` removes. -/
def isPySpace (c : Char) : Bool :=
  (9 ≤ c.toNat && c.toNat ≤ 13) || (28 ≤ c.toNat && c.toNat ≤ 32) || c.toNat = 133 ||
  c.toNat = 160 || c.toNat = 5760 || (8192 ≤ c.toNat && c.toNat ≤ 8202) || c.toNat = 8232 ||
  c.toNat = 8233 || c.toNat = 8239 || c.toNat = 8287 || c.toNat = 12288

/-- Remove the items that satisfy `p` from both ends. -/
def stripList {α : Type*} (p : α → Bool) (l : List α) : List α :=
  ((l.dropWhile p).reverse.dropWhile p).reverse

/-- `text.strip()`. -/
def strip (t : PyText) : PyText :=
  stripList (fun
    | .scalar c => isPySpace c
    | .high _ | .low _ => false) t

/-- The text with a lone surrogate replaced by the replacement character. -/
def toText (t : PyText) : String :=
  String.ofList (t.map fun
    | .scalar c => c
    | .high _ | .low _ => '\uFFFD')

@[simp] lemma toText_ofString (s : String) : toText (ofString s) = s := by
  simp [toText, ofString, ofChars, Function.comp_def]

@[simp] lemma ofChars_nil : ofChars [] = [] := rfl

@[simp] lemma ofChars_cons (c : Char) (cs : List Char) :
    ofChars (c :: cs) = .scalar c :: ofChars cs := rfl

@[simp] lemma ofChars_append (cs ds : List Char) :
    ofChars (cs ++ ds) = ofChars cs ++ ofChars ds := by
  simp [ofChars]

end PyText

namespace PyString

/-- Remove the characters that satisfy `p` from both ends: `s.strip(chars)`. -/
def stripWith (p : Char → Bool) (s : String) : String :=
  String.ofList (PyText.stripList p s.toList)

/-- `s.strip()`. -/
def strip (s : String) : String := stripWith PyText.isPySpace s

/-- `s.startswith(pre)`. -/
def startsWith (s pre : String) : Bool := pre.toList.isPrefixOf s.toList

end PyString

/-!
## Stripping

What stripping does to a list, from its two halves: it drops from the left and then from the right,
the two commute, and each is idempotent.  So a stripped text is not stripped any further, and only
the part after a prefix without space is stripped from the right.
-/

namespace PyText

variable {α : Type*} (p : α → Bool)

lemma stripList_eq (l : List α) : stripList p l = (l.dropWhile p).rdropWhile p := rfl

lemma rdropWhile_cons (a : α) (l : List α) :
    (a :: l).rdropWhile p =
      if l.rdropWhile p = [] ∧ p a = true then [] else a :: l.rdropWhile p := by
  unfold List.rdropWhile
  rw [List.reverse_cons, List.dropWhile_append]
  by_cases hl : l.reverse.dropWhile p = []
  · by_cases ha : p a = true
    · simp [hl, ha]
    · simp [hl, ha]
  · simp [hl]

lemma dropWhile_rdropWhile (l : List α) :
    (l.rdropWhile p).dropWhile p = (l.dropWhile p).rdropWhile p := by
  induction l with
  | nil => rfl
  | cons a l ih =>
    by_cases ha : p a = true
    · rw [List.dropWhile_cons_of_pos ha, ← ih, rdropWhile_cons]
      by_cases hl : l.rdropWhile p = []
      · rw [if_pos ⟨hl, ha⟩, hl]
      · rw [if_neg (by simp [hl]), List.dropWhile_cons_of_pos ha]
    · rw [List.dropWhile_cons_of_neg ha, rdropWhile_cons, if_neg (by simp [ha]),
        List.dropWhile_cons_of_neg ha]

lemma stripList_rdropWhile (l : List α) : stripList p (l.rdropWhile p) = stripList p l := by
  rw [stripList_eq, stripList_eq, dropWhile_rdropWhile, List.rdropWhile_idempotent]

lemma stripList_stripList (l : List α) : stripList p (stripList p l) = stripList p l := by
  rw [stripList_eq p l, stripList_rdropWhile, stripList_eq, List.dropWhile_idempotent]

lemma stripList_append_of_not {l : List α} (h : ∀ a ∈ l, p a = false) (hl : l ≠ [])
    (r : List α) : stripList p (l ++ r) = l ++ r.rdropWhile p := by
  have hright : (l ++ r).rdropWhile p = l ++ r.rdropWhile p := by
    clear hl
    induction l with
    | nil => rfl
    | cons a l ih =>
      have ha : p a = false := h a List.mem_cons_self
      rw [List.cons_append, rdropWhile_cons, if_neg (by simp [ha]),
        ih fun b hb => h b (List.mem_cons_of_mem _ hb), List.cons_append]
  obtain ⟨a, l', rfl⟩ := List.exists_cons_of_ne_nil hl
  have ha : p a = false := h a List.mem_cons_self
  rw [stripList_eq, List.cons_append, List.dropWhile_cons_of_neg (by simp [ha])]
  exact hright

/-- A list with something else at both ends is left as it is. -/
lemma stripList_of_ends {a b : α} (ha : p a = false) (hb : p b = false) (l : List α) :
    stripList p (a :: (l ++ [b])) = a :: (l ++ [b]) := by
  rw [stripList_eq, List.dropWhile_cons_of_neg (by simp [ha]), ← List.cons_append]
  exact List.rdropWhile_concat_neg p (a :: l) b (by simp [hb])

lemma rdropWhile_append_of_pos {r : List α} (h : ∀ a ∈ r, p a = true) (l : List α) :
    (l ++ r).rdropWhile p = l.rdropWhile p := by
  unfold List.rdropWhile
  rw [List.reverse_append, List.dropWhile_append_of_pos fun a ha => h a (List.mem_reverse.mp ha)]

/-- A change of the items that leaves `p` as it is passes through. -/
lemma stripList_map {f : α → α} (hf : ∀ a, p (f a) = p a) (l : List α) :
    stripList p (l.map f) = (stripList p l).map f := by
  have hcomp : p ∘ f = p := funext hf
  simp only [stripList, List.dropWhile_map, ← List.map_reverse, hcomp]

end PyText

namespace PyString

@[simp] lemma strip_strip (s : String) : strip (strip s) = strip s := by
  simp [strip, stripWith, PyText.stripList_stripList]

end PyString
