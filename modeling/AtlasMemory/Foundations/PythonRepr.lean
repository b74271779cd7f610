import AtlasMemory.Foundations.JsonRoundTrip
import AtlasMemory.Foundations.PythonLexemes
import Mathlib.Data.Bool.AllAny

/-!
# The text that Python gives of a value

`repr` of the values that JSON has: a text is quoted, with everything escaped that could end the
literal or its line, and lists and dictionaries are displays of their items.  `run_reprValue` says
that the text of a value is read back as the lexemes of its display, in which each text is one
literal.  Which characters beyond ASCII are printable is a parameter.
-/

namespace Python

open Json (hexDigit)

/-! ## Texts -/

/-- The last `n` hexadecimal digits of a number. -/
def hexText (n value : ℕ) : List Char :=
  (List.range n).reverse.map fun i => hexDigit (value / 16 ^ i % 16)

variable (isPrintable : Char → Bool)

def reprChar (q c : Char) : List Char :=
  if c = q ∨ c = '\\' then ['\\', c]
  else if c = '\t' then ['\\', 't']
  else if c = '\n' then ['\\', 'n']
  else if c = '\r' then ['\\', 'r']
  else if c.toNat < 32 ∨ c.toNat = 127 then '\\' :: 'x' :: hexText 2 c.toNat
  else if c.toNat < 127 ∨ isPrintable c then [c]
  else if c.toNat < 256 then '\\' :: 'x' :: hexText 2 c.toNat
  else if c.toNat < 65536 then '\\' :: 'u' :: hexText 4 c.toNat
  else '\\' :: 'U' :: hexText 8 c.toNat

/-- The quote of a text: a double one only where it saves escapes. -/
def reprQuote (s : List Char) : Char := if '\'' ∈ s ∧ '"' ∉ s then '"' else '\''

def reprBody (s : List Char) : List Char := s.flatMap (reprChar isPrintable (reprQuote s))

/-- `repr(s)` of a text. -/
def reprStr (s : List Char) : List Char :=
  reprQuote s :: reprBody isPrintable s ++ [reprQuote s]

/-! ## Values -/

mutual
/-- `repr(v)`. -/
def reprValue : Json → List Char
  | .null => ['N', 'o', 'n', 'e']
  | .bool true => ['T', 'r', 'u', 'e']
  | .bool false => ['F', 'a', 'l', 's', 'e']
  | .number n => n.text.toList
  | .notANumber => ['n', 'a', 'n']
  | .infinity => ['i', 'n', 'f']
  | .negInfinity => ['-', 'i', 'n', 'f']
  | .str s => reprStr isPrintable s.toList
  | .arr [] => ['[', ']']
  | .arr (v :: vs) => '[' :: (reprValue v ++ reprItems vs ++ [']'])
  | .obj [] => ['{', '}']
  | .obj (m :: ms) => '{' :: (reprMember m ++ reprMembers ms ++ ['}'])
def reprItems : List Json → List Char
  | [] => []
  | v :: vs => ',' :: ' ' :: (reprValue v ++ reprItems vs)
def reprMember : String × Json → List Char
  | (k, v) => reprStr isPrintable k.toList ++ ':' :: ' ' :: reprValue v
def reprMembers : List (String × Json) → List Char
  | [] => []
  | m :: ms => ',' :: ' ' :: (reprMember m ++ reprMembers ms)
end

def strLexeme (s : List Char) : Lexeme := .string [] (reprQuote s) false (reprBody isPrintable s)

mutual
/-- The lexemes of the display of a value. -/
def display : Json → List Lexeme
  | .null => [.name ['N', 'o', 'n', 'e']]
  | .bool true => [.name ['T', 'r', 'u', 'e']]
  | .bool false => [.name ['F', 'a', 'l', 's', 'e']]
  | .number n => plain [] n.text.toList
  | .notANumber => [.name ['n', 'a', 'n']]
  | .infinity => [.name ['i', 'n', 'f']]
  | .negInfinity => [.char '-', .name ['i', 'n', 'f']]
  | .str s => [strLexeme isPrintable s.toList]
  | .arr [] => [.char '[', .char ']']
  | .arr (v :: vs) => .char '[' :: (display v ++ displayItems vs ++ [.char ']'])
  | .obj [] => [.char '{', .char '}']
  | .obj (m :: ms) => .char '{' :: (displayMember m ++ displayMembers ms ++ [.char '}'])
/-- The lexemes of the items after the first one. -/
def displayItems : List Json → List Lexeme
  | [] => []
  | v :: vs => .char ',' :: .char ' ' :: (display v ++ displayItems vs)
def displayMember : String × Json → List Lexeme
  | (k, v) => strLexeme isPrintable k.toList :: .char ':' :: .char ' ' :: display v
/-- The lexemes of the members after the first one. -/
def displayMembers : List (String × Json) → List Lexeme
  | [] => []
  | m :: ms => .char ',' :: .char ' ' :: (displayMember m ++ displayMembers ms)
end

/-! ## A quoted text is one literal -/

variable {isPrintable} {q : Char}

lemma isQuote_reprQuote (s : List Char) : isQuote (reprQuote s) := by
  unfold reprQuote
  split_ifs <;> decide

lemma hexDigit_plain : ∀ d < 16, isHexDigit (hexDigit d) ∧ hexDigit d ≠ '\\' ∧
    hexDigit d ≠ '\n' ∧ ¬isQuote (hexDigit d) ∧ 32 ≤ (hexDigit d).toNat := by decide

lemma exists_of_mem_hexText {n value : ℕ} {c : Char} (h : c ∈ hexText n value) :
    ∃ d < 16, c = hexDigit d := by
  obtain ⟨i, -, rfl⟩ := List.mem_map.mp h
  exact ⟨_, Nat.mod_lt _ (by omega), rfl⟩

lemma length_hexText (n value : ℕ) : (hexText n value).length = n := by simp [hexText]

lemma closesSingle_escape (c : Char) (cs : List Char) :
    closesSingle q false ('\\' :: c :: cs) = closesSingle q false cs := rfl

lemma closesSingle_cons {c : Char} (hq : c ≠ q) (hback : c ≠ '\\') (hline : c ≠ '\n')
    (cs : List Char) : closesSingle q false (c :: cs) = closesSingle q false cs := by
  simp [closesSingle, hq, hback, hline]

lemma closesSingle_hexText (hq : isQuote q) (n value : ℕ) (cs : List Char) :
    closesSingle q false (hexText n value ++ cs) = closesSingle q false cs := by
  have hall : ∀ c ∈ hexText n value, ∃ d < 16, c = hexDigit d := fun c => exists_of_mem_hexText
  generalize hexText n value = ds at hall
  induction ds with
  | nil => rfl
  | cons c ds ih =>
      obtain ⟨d, hd, rfl⟩ := hall c List.mem_cons_self
      obtain ⟨-, hback, hline, hnq, -⟩ := hexDigit_plain d hd
      have hne : hexDigit d ≠ q := by
        rintro rfl
        exact hnq hq
      rw [List.cons_append, closesSingle_cons hne hback hline]
      exact ih fun c hc => hall c (List.mem_cons_of_mem _ hc)

lemma closesSingle_reprChar (hq : isQuote q) (c : Char) (cs : List Char) :
    closesSingle q false (reprChar isPrintable q c ++ cs) = closesSingle q false cs := by
  unfold reprChar
  split_ifs with h₁ h₂ h₃ h₄ h₅ h₆ h₇ h₈
  · exact closesSingle_escape c cs
  · exact closesSingle_escape 't' cs
  · exact closesSingle_escape 'n' cs
  · exact closesSingle_escape 'r' cs
  · exact (closesSingle_escape 'x' _).trans (closesSingle_hexText hq 2 _ cs)
  · rw [not_or] at h₁
    exact closesSingle_cons h₁.1 h₁.2 h₃ cs
  · exact (closesSingle_escape 'x' _).trans (closesSingle_hexText hq 2 _ cs)
  · exact (closesSingle_escape 'u' _).trans (closesSingle_hexText hq 4 _ cs)
  · exact (closesSingle_escape 'U' _).trans (closesSingle_hexText hq 8 _ cs)

/-- The body of a quoted text does not end the literal. -/
lemma closes_reprBody (s : List Char) :
    closes (reprQuote s) false (reprBody isPrintable s) := by
  have hq := isQuote_reprQuote s
  show closesSingle (reprQuote s) false (s.flatMap (reprChar isPrintable (reprQuote s))) = true
  generalize reprQuote s = q at hq ⊢
  induction s with
  | nil => rfl
  | cons c cs ih => rw [List.flatMap_cons, closesSingle_reprChar hq, ih]

lemma run_reprStr (s : List Char) {next : Char} (hnext : isDelimiting next) :
    run .code (reprStr isPrintable s ++ [next]) =
      some (.code, [strLexeme isPrintable s, .char next]) :=
  run_literal (isQuote_reprQuote s) hnext (closes_reprBody s)

/-! ## The text of a value -/

lemma isDelimiting_or_isWordChar {c : Char} (h : Json.isNumberChar c) :
    isWordChar c ∨ isDelimiting c := by
  simp only [Json.isNumberChar, Bool.or_eq_true, decide_eq_true_eq] at h
  rcases h with ((((h | rfl) | rfl) | rfl) | rfl) | rfl
  · left
    simp only [isDigit, Bool.and_eq_true, decide_eq_true_eq] at h
    simp [isWordChar, h]
  all_goals decide

lemma run_number (n : NumberLit) {next : Char} (hnext : isDelimiting next) :
    run .code (n.text.toList ++ [next]) =
      some (.code, plain [] n.text.toList ++ [.char next]) :=
  run_plain (w := []) hnext fun c hc =>
    isDelimiting_or_isWordChar (Json.forall_of_isNumber n.valid c hc)

/-- A piece that ends between lexemes, after a delimiting character. -/
lemma run_delimiting_append {c : Char} {cs : List Char} {out : List Lexeme} (hc : isDelimiting c)
    (h : run .code cs = some (.code, out)) :
    run .code (c :: cs) = some (.code, .char c :: out) :=
  (run_append_code (run_delimiting hc)).mpr ⟨out, h, rfl⟩

lemma run_letters {w : List Char} {next : Char} (hnext : isDelimiting next) (hne : w ≠ [])
    (hw : ∀ c ∈ w, isWordChar c) (hname : wordLexeme w = .name w) :
    run .code (w ++ [next]) = some (.code, [.name w, .char next]) := by
  rw [← hname]
  exact run_word hne hw hnext

/-- The text is read as the lexemes, whatever delimiting character follows. -/
def ReadsAs (text : List Char) (ls : List Lexeme) : Prop :=
  ∀ next, isDelimiting next → run .code (text ++ [next]) = some (.code, ls ++ [.char next])

lemma ReadsAs.append {c : Char} {text rest : List Char} {ls out : List Lexeme}
    (h : ReadsAs text ls) (hc : isDelimiting c) (hrest : run .code rest = some (.code, out)) :
    run .code (text ++ c :: rest) = some (.code, ls ++ .char c :: out) := by
  have hshape : text ++ c :: rest = (text ++ [c]) ++ rest := by simp
  rw [hshape, run_append_code (h c hc)]
  exact ⟨out, hrest, by simp⟩

lemma readsAs_bracketed {o e : Char} {text : List Char} {ls : List Lexeme} (ho : isDelimiting o)
    (h : run .code (text ++ [e]) = some (.code, ls ++ [.char e])) :
    ReadsAs (o :: (text ++ [e])) (.char o :: (ls ++ [.char e])) := by
  intro next hnext
  have hall := run_delimiting_append ho h
  exact (run_append_code hall).mpr ⟨_, run_delimiting hnext, rfl⟩

mutual
/-- The text of a value is read as the lexemes of its display. -/
theorem run_reprValue : ∀ v : Json, ReadsAs (reprValue isPrintable v) (display isPrintable v)
  | .null | .bool true | .bool false | .notANumber | .infinity => by
      intro next hn
      rw [reprValue, display]
      exact run_letters hn (by decide) (List.all_iff_forall_prop.mp (by decide)) (by decide)
  | .negInfinity => fun _ hn => by
      exact run_delimiting_append (by decide)
        (run_letters (w := ['i', 'n', 'f']) hn (by decide) (List.all_iff_forall_prop.mp (by decide))
          (by decide))
  | .number n => fun _ hn => run_number n hn
  | .str s => fun _ hn => run_reprStr s.toList hn
  | .arr [] => @readsAs_bracketed '[' ']' [] [] (by decide) (run_delimiting (by decide))
  | .arr (v :: vs) => by
      rw [reprValue, display]
      exact readsAs_bracketed (by decide) (run_reprItems vs (run_reprValue v))
  | .obj [] => @readsAs_bracketed '\x7b' '\x7d' [] [] (by decide) (run_delimiting (by decide))
  | .obj (m :: ms) => by
      rw [reprValue, display]
      exact readsAs_bracketed (by decide) (run_reprMembers ms (run_reprMember m))
/-- The items of a list after what was read so far, up to the bracket that closes it. -/
theorem run_reprItems : ∀ (vs : List Json) {text : List Char} {ls : List Lexeme},
    ReadsAs text ls → run .code (text ++ reprItems isPrintable vs ++ [']']) =
      some (.code, ls ++ displayItems isPrintable vs ++ [.char ']'])
  | [], text, ls, h => by
      rw [reprItems, displayItems, List.append_nil, List.append_nil]
      exact h ']' (by decide)
  | v :: vs, text, ls, h => by
      have hrest := run_delimiting_append (c := ' ') (by decide)
        (run_reprItems vs (run_reprValue v))
      have hall := h.append (c := ',') (by decide) hrest
      simpa [reprItems, displayItems] using hall
/-- A member of a dictionary. -/
theorem run_reprMember : ∀ m : String × Json,
    ReadsAs (reprMember isPrintable m) (displayMember isPrintable m)
  | (k, v) => by
      intro next hn
      have hkey : ReadsAs (reprStr isPrintable k.toList) [strLexeme isPrintable k.toList] :=
        fun _ h => run_reprStr k.toList h
      have hvalue := run_delimiting_append (c := ' ') (by decide) (run_reprValue v next hn)
      have hall := hkey.append (c := ':') (by decide) hvalue
      simpa [reprMember, displayMember] using hall
/-- The members of a dictionary after what was read so far, up to the brace that closes it. -/
theorem run_reprMembers : ∀ (ms : List (String × Json)) {text : List Char} {ls : List Lexeme},
    ReadsAs text ls → run .code (text ++ reprMembers isPrintable ms ++ ['}']) =
      some (.code, ls ++ displayMembers isPrintable ms ++ [.char '}'])
  | [], text, ls, h => by
      rw [reprMembers, displayMembers, List.append_nil, List.append_nil]
      exact h '}' (by decide)
  | m :: ms, text, ls, h => by
      have hrest := run_delimiting_append (c := ' ') (by decide)
        (run_reprMembers ms (run_reprMember m))
      have hall := h.append (c := ',') (by decide) hrest
      simpa [reprMembers, displayMembers] using hall
end

/-! ## Its characters and its escapes -/

/-- A character that is no control character. -/
def Visible (cs : List Char) : Prop := ∀ c ∈ cs, 32 ≤ c.toNat

lemma visible_nil : Visible [] := nofun

lemma visible_cons {c : Char} {cs : List Char} (hc : 32 ≤ c.toNat) (h : Visible cs) :
    Visible (c :: cs) := List.forall_mem_cons.mpr ⟨hc, h⟩

lemma visible_append {a b : List Char} (ha : Visible a) (hb : Visible b) : Visible (a ++ b) :=
  List.forall_mem_append.mpr ⟨ha, hb⟩

lemma visible_hexText (n value : ℕ) : Visible (hexText n value) := by
  intro c hc
  obtain ⟨d, hd, rfl⟩ := exists_of_mem_hexText hc
  exact (hexDigit_plain d hd).2.2.2.2

lemma visible_escape {c : Char} {cs : List Char} (hc : 32 ≤ c.toNat) (h : Visible cs) :
    Visible ('\\' :: c :: cs) := visible_cons (by decide) (visible_cons hc h)

lemma visible_of_isQuote (hq : isQuote q) : 32 ≤ q.toNat := by
  rcases isQuote_iff.mp hq with rfl | rfl <;> decide

lemma visible_reprChar (hq : isQuote q) (c : Char) : Visible (reprChar isPrintable q c) := by
  unfold reprChar
  split_ifs with h₁ h₂ h₃ h₄ h₅ h₆ h₇ h₈
  · refine visible_escape ?_ visible_nil
    rcases h₁ with rfl | rfl
    · exact visible_of_isQuote hq
    · decide
  · exact visible_escape (by decide) visible_nil
  · exact visible_escape (by decide) visible_nil
  · exact visible_escape (by decide) visible_nil
  · exact visible_escape (by decide) (visible_hexText 2 _)
  · exact visible_cons (by omega) visible_nil
  · exact visible_escape (by decide) (visible_hexText 2 _)
  · exact visible_escape (by decide) (visible_hexText 4 _)
  · exact visible_escape (by decide) (visible_hexText 8 _)

lemma visible_reprStr (s : List Char) : Visible (reprStr isPrintable s) := by
  have hq := isQuote_reprQuote s
  refine visible_append (visible_cons (visible_of_isQuote hq) ?_)
    (visible_cons (visible_of_isQuote hq) visible_nil)
  intro c hc
  obtain ⟨d, -, hd⟩ := List.mem_flatMap.mp hc
  exact visible_reprChar hq d c hd

lemma visible_number (n : NumberLit) : Visible n.text.toList := by
  intro c hc
  have hchar := Json.forall_of_isNumber n.valid c hc
  simp only [Json.isNumberChar, Bool.or_eq_true, decide_eq_true_eq] at hchar
  rcases hchar with ((((h | rfl) | rfl) | rfl) | rfl) | rfl
  · simp only [isDigit, Bool.and_eq_true, decide_eq_true_eq] at h
    have hle : ('0' : Char).toNat ≤ c.toNat := h.1
    have hzero : ('0' : Char).toNat = 48 := rfl
    omega
  all_goals decide

mutual
/-- The text of a value has no control characters. -/
theorem visible_reprValue : ∀ v : Json, Visible (reprValue isPrintable v)
  | .null | .bool true | .bool false | .notANumber | .infinity | .negInfinity | .arr []
  | .obj [] => by
      rw [reprValue]
      exact List.all_iff_forall_prop.mp (by decide)
  | .number n => visible_number n
  | .str s => visible_reprStr s.toList
  | .arr (v :: vs) => by
      rw [reprValue]
      exact visible_cons (by decide) (visible_append
        (visible_append (visible_reprValue v) (visible_reprItems vs))
        (visible_cons (by decide) visible_nil))
  | .obj (m :: ms) => by
      rw [reprValue]
      exact visible_cons (by decide) (visible_append
        (visible_append (visible_reprMember m) (visible_reprMembers ms))
        (visible_cons (by decide) visible_nil))
theorem visible_reprItems : ∀ vs : List Json, Visible (reprItems isPrintable vs)
  | [] => visible_nil
  | v :: vs => by
      rw [reprItems]
      exact visible_cons (by decide) (visible_cons (by decide)
        (visible_append (visible_reprValue v) (visible_reprItems vs)))
theorem visible_reprMember : ∀ m : String × Json, Visible (reprMember isPrintable m)
  | (k, v) => by
      rw [reprMember]
      exact visible_append (visible_reprStr k.toList)
        (visible_cons (by decide) (visible_cons (by decide) (visible_reprValue v)))
theorem visible_reprMembers : ∀ ms : List (String × Json), Visible (reprMembers isPrintable ms)
  | [] => visible_nil
  | m :: ms => by
      rw [reprMembers]
      exact visible_cons (by decide) (visible_cons (by decide)
        (visible_append (visible_reprMember m) (visible_reprMembers ms)))
end

variable {isCharName : List Char → Bool}

lemma escapesOk_cons {c : Char} (h : c ≠ '\\') (cs : List Char) :
    escapesOk isCharName true (c :: cs) = escapesOk isCharName true cs := by
  rw [escapesOk]
  all_goals simp [h]

lemma escapesOk_hexText (n value : ℕ) (cs : List Char) :
    escapesOk isCharName true (hexText n value ++ cs) = escapesOk isCharName true cs := by
  have hall : ∀ c ∈ hexText n value, ∃ d < 16, c = hexDigit d := fun c => exists_of_mem_hexText
  generalize hexText n value = ds at hall
  induction ds with
  | nil => rfl
  | cons c ds ih =>
      obtain ⟨d, hd, rfl⟩ := hall c List.mem_cons_self
      rw [List.cons_append, escapesOk_cons (hexDigit_plain d hd).2.1]
      exact ih fun c hc => hall c (List.mem_cons_of_mem _ hc)

lemma hexDigits_hexText (n value : ℕ) (cs : List Char) :
    hexDigits n (hexText n value ++ cs) = true := by
  have htake : (hexText n value ++ cs).take n = hexText n value := by
    rw [List.take_append_of_le_length (length_hexText n value).ge,
      List.take_of_length_le (length_hexText n value).le]
  rw [hexDigits, htake, length_hexText]
  simp only [decide_true, Bool.true_and, List.all_eq_true]
  intro c hc
  obtain ⟨d, hd, rfl⟩ := exists_of_mem_hexText hc
  exact (hexDigit_plain d hd).1

lemma inRange_hexText (c : Char) (cs : List Char) : inRange (hexText 8 c.toNat ++ cs) = true := by
  have hlt : c.toNat < 1114112 := by
    rcases c.valid with h | ⟨-, h⟩
    · have : c.toNat < 55296 := h
      omega
    · exact h
  have hzero : ∀ i, 6 ≤ i → c.toNat / 16 ^ i % 16 = 0 := by
    intro i hi
    have hpow : 16 ^ 6 ≤ 16 ^ i := Nat.pow_le_pow_right (by omega) hi
    rw [Nat.div_eq_of_lt (by omega)]
  have h₇ := hzero 7 (by omega)
  have h₆ := hzero 6 (by omega)
  have hdigits : hexText 8 c.toNat = ['0', '0', hexDigit (c.toNat / 16 ^ 5 % 16),
      hexDigit (c.toNat / 16 ^ 4 % 16), hexDigit (c.toNat / 16 ^ 3 % 16),
      hexDigit (c.toNat / 16 ^ 2 % 16), hexDigit (c.toNat / 16 ^ 1 % 16),
      hexDigit (c.toNat / 16 ^ 0 % 16)] := by
    unfold hexText
    simp only [List.range, List.range.loop, List.reverse_cons, List.reverse_nil, List.nil_append,
      List.cons_append, List.map_cons, List.map_nil, h₇, h₆]
    rfl
  have hcases : c.toNat / 16 ^ 5 % 16 = 0 ∨ c.toNat / 16 ^ 5 % 16 = 1 ∧
      c.toNat / 16 ^ 4 % 16 = 0 := by omega
  rw [hdigits]
  rcases hcases with h₅ | ⟨h₅, h₄⟩
  · rw [h₅]
    rfl
  · rw [h₅, h₄]
    rfl

lemma escapesOk_reprChar (hq : isQuote q) (c : Char) (cs : List Char) :
    escapesOk isCharName true (reprChar isPrintable q c ++ cs) =
      escapesOk isCharName true cs := by
  unfold reprChar
  split_ifs with h₁ h₂ h₃ h₄ h₅ h₆ h₇ h₈
  · have hplain : c ≠ 'x' ∧ c ≠ 'u' ∧ c ≠ 'U' ∧ c ≠ 'N' := by
      rcases h₁ with rfl | rfl
      · rcases isQuote_iff.mp hq with rfl | rfl <;> decide
      · decide
    show escapesOk isCharName true ('\\' :: c :: cs) = _
    rw [escapesOk]
    all_goals simp [hplain]
  · rfl
  · rfl
  · rfl
  · show (hexDigits 2 (hexText 2 c.toNat ++ cs) && escapesOk _ true (hexText 2 c.toNat ++ cs)) = _
    rw [hexDigits_hexText, escapesOk_hexText, Bool.true_and]
  · rw [not_or] at h₁
    exact escapesOk_cons h₁.2 cs
  · show (hexDigits 2 (hexText 2 c.toNat ++ cs) && escapesOk _ true (hexText 2 c.toNat ++ cs)) = _
    rw [hexDigits_hexText, escapesOk_hexText, Bool.true_and]
  · show ((!true || hexDigits 4 (hexText 4 c.toNat ++ cs)) &&
      escapesOk _ true (hexText 4 c.toNat ++ cs)) = _
    rw [hexDigits_hexText, escapesOk_hexText]
    rfl
  · show ((!true || (hexDigits 8 (hexText 8 c.toNat ++ cs) &&
      inRange (hexText 8 c.toNat ++ cs))) && escapesOk _ true (hexText 8 c.toNat ++ cs)) = _
    rw [hexDigits_hexText, inRange_hexText, escapesOk_hexText]
    rfl

lemma readable_strLexeme (s : List Char) :
    (strLexeme isPrintable s).readable isCharName = true := by
  have hq := isQuote_reprQuote s
  show escapesOk isCharName true (s.flatMap (reprChar isPrintable (reprQuote s))) = true
  generalize reprQuote s = q at hq ⊢
  induction s with
  | nil => rfl
  | cons c cs ih => rw [List.flatMap_cons, escapesOk_reprChar hq, ih]

lemma readable_wordLexeme (w : List Char) : (wordLexeme w).readable isCharName = true := by
  unfold wordLexeme
  split
  · rfl
  · split_ifs <;> rfl

lemma readable_plain (text w : List Char) : ∀ l ∈ plain w text, l.readable isCharName = true := by
  induction text generalizing w with
  | nil =>
      intro l hl
      cases w with
      | nil => cases hl
      | cons c cs =>
          rw [plain, List.mem_singleton] at hl
          · rw [hl]
            exact readable_wordLexeme _
          · rintro ⟨⟩
  | cons c cs ih =>
      intro l hl
      rw [plain] at hl
      split_ifs at hl with hc hw
      · exact ih _ l hl
      · rcases List.mem_cons.mp hl with rfl | hl
        · rfl
        · exact ih _ l hl
      · rcases List.mem_cons.mp hl with rfl | hl
        · exact readable_wordLexeme _
        · rcases List.mem_cons.mp hl with rfl | hl
          · rfl
          · exact ih _ l hl

/-- The values of all literals can be read. -/
def Readable (isCharName : List Char → Bool) (ls : List Lexeme) : Prop :=
  ∀ l ∈ ls, l.readable isCharName = true

lemma readable_nil : Readable isCharName [] := nofun

lemma readable_cons {l : Lexeme} {ls : List Lexeme} (hl : l.readable isCharName = true)
    (h : Readable isCharName ls) : Readable isCharName (l :: ls) :=
  List.forall_mem_cons.mpr ⟨hl, h⟩

lemma readable_append {a b : List Lexeme} (ha : Readable isCharName a)
    (hb : Readable isCharName b) : Readable isCharName (a ++ b) :=
  List.forall_mem_append.mpr ⟨ha, hb⟩

mutual
/-- The literals of a display can be read. -/
theorem readable_display : ∀ v : Json, Readable isCharName (display isPrintable v)
  | .null | .bool true | .bool false | .notANumber | .infinity => by
      rw [display]
      exact readable_cons rfl readable_nil
  | .negInfinity | .arr [] | .obj [] => by
      rw [display]
      exact readable_cons rfl (readable_cons rfl readable_nil)
  | .number n => readable_plain n.text.toList []
  | .str s => readable_cons (readable_strLexeme s.toList) readable_nil
  | .arr (v :: vs) => by
      rw [display]
      exact readable_cons rfl (readable_append
        (readable_append (readable_display v) (readable_displayItems vs))
        (readable_cons rfl readable_nil))
  | .obj (m :: ms) => by
      rw [display]
      exact readable_cons rfl (readable_append
        (readable_append (readable_displayMember m) (readable_displayMembers ms))
        (readable_cons rfl readable_nil))
theorem readable_displayItems :
    ∀ vs : List Json, Readable isCharName (displayItems isPrintable vs)
  | [] => readable_nil
  | v :: vs => by
      rw [displayItems]
      exact readable_cons rfl (readable_cons rfl
        (readable_append (readable_display v) (readable_displayItems vs)))
theorem readable_displayMember :
    ∀ m : String × Json, Readable isCharName (displayMember isPrintable m)
  | (k, v) => by
      rw [displayMember]
      exact readable_cons (readable_strLexeme k.toList)
        (readable_cons rfl (readable_cons rfl (readable_display v)))
theorem readable_displayMembers :
    ∀ ms : List (String × Json), Readable isCharName (displayMembers isPrintable ms)
  | [] => readable_nil
  | m :: ms => by
      rw [displayMembers]
      exact readable_cons rfl (readable_cons rfl
        (readable_append (readable_displayMember m) (readable_displayMembers ms)))
end

end Python
