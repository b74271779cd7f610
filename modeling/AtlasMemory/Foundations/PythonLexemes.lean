import AtlasMemory.Foundations.PythonSyntax

/-!
# The lexemes of a Python source

How Python splits a source into string literals, comments, words and single characters.  What the
grammar makes of the lexemes is a parameter, so that a literal counts with the grammar as one unit.
The literals of a source are found by one pass over its characters; `run_append_iff` lets the pass
be followed through the pieces of a source, and `run_single_iff` and `run_triple_iff` say when a
literal ends at the quotes that are meant to end it.

A prefix `f` is treated as any other prefix, as in the versions whose formatted literals are one
token.
-/

namespace Python

/-! ## Lexemes -/

inductive Lexeme where
  | name (word : List Char)
  | number (word : List Char)
  | char (c : Char)
  | comment (text : List Char)
  /-- A literal with its prefix, its quote, and whether the quote is tripled. -/
  | string (pre : List Char) (quote : Char) (triple : Bool) (body : List Char)
  deriving DecidableEq

def isWordChar (c : Char) : Bool :=
  ('a' ≤ c && c ≤ 'z') || ('A' ≤ c && c ≤ 'Z') || ('0' ≤ c && c ≤ '9') || c = '_' || 128 ≤ c.toNat

def isQuote (c : Char) : Bool := c = '\'' || c = '"'

/-- The words that are the prefix of a literal when a quote follows. -/
def isStringPrefix (word : List Char) : Bool :=
  String.ofList (word.map Char.toLower) ∈ ["r", "b", "u", "f", "br", "rb", "fr", "rf"]

/-- A word is a number when it starts with a digit. -/
def wordLexeme : List Char → Lexeme
  | [] => .name []
  | c :: cs => if '0' ≤ c ∧ c ≤ '9' then .number (c :: cs) else .name (c :: cs)

/-! ## The pass over the characters -/

/-- What the pass is in the middle of. -/
inductive Mode where
  | code
  | word (text : List Char)
  | comment (text : List Char)
  | oneQuote (pre : List Char) (quote : Char)
  /-- An empty literal, or the opening of a tripled one. -/
  | twoQuotes (pre : List Char) (quote : Char)
  | single (pre : List Char) (quote : Char) (body : List Char) (escaped : Bool)
  /-- A tripled literal, with the number of quotes that stand at the end so far. -/
  | triple (pre : List Char) (quote : Char) (body : List Char) (escaped : Bool) (quotes : ℕ)
  deriving DecidableEq

/-- A character outside words, comments and literals. -/
def stepCode (c : Char) : Mode × List Lexeme :=
  if isWordChar c then (.word [c], [])
  else if isQuote c then (.oneQuote [] c, [])
  else if c = '#' then (.comment [], [])
  else (.code, [.char c])

/-- A character of a literal with single quotes; a line break ends the source in an error. -/
def stepSingle (pre : List Char) (q : Char) (body : List Char) (escaped : Bool) (c : Char) :
    Option (Mode × List Lexeme) :=
  if escaped then some (.single pre q (body ++ [c]) false, [])
  else if c = '\\' then some (.single pre q (body ++ [c]) true, [])
  else if c = q then some (.code, [.string pre q false body])
  else if c = '\n' then none
  else some (.single pre q (body ++ [c]) false, [])

/-- A character of a literal with tripled quotes. -/
def stepTriple (pre : List Char) (q : Char) (body : List Char) (escaped : Bool) (quotes : ℕ)
    (c : Char) : Mode × List Lexeme :=
  if escaped then (.triple pre q (body ++ [c]) false 0, [])
  else if c = '\\' then (.triple pre q (body ++ List.replicate quotes q ++ [c]) true 0, [])
  else if c = q then
    if quotes = 2 then (.code, [.string pre q true body])
    else (.triple pre q body false (quotes + 1), [])
  else (.triple pre q (body ++ List.replicate quotes q ++ [c]) false 0, [])

/-- One character: what the pass is in the middle of then, and the lexemes that ended. -/
def step : Mode → Char → Option (Mode × List Lexeme)
  | .code, c => some (stepCode c)
  | .word w, c =>
    if isWordChar c then some (.word (w ++ [c]), [])
    else if isQuote c && isStringPrefix w then some (.oneQuote w c, [])
    else some ((stepCode c).1, wordLexeme w :: (stepCode c).2)
  | .comment t, c =>
    if c = '\n' then some (.code, [.comment t, .char c]) else some (.comment (t ++ [c]), [])
  | .oneQuote pre q, c =>
    if c = q then some (.twoQuotes pre q, []) else stepSingle pre q [] false c
  | .twoQuotes pre q, c =>
    if c = q then some (.triple pre q [] false 0, [])
    else some ((stepCode c).1, .string pre q false [] :: (stepCode c).2)
  | .single pre q body escaped, c => stepSingle pre q body escaped c
  | .triple pre q body escaped quotes, c => some (stepTriple pre q body escaped quotes c)

def run : Mode → List Char → Option (Mode × List Lexeme)
  | m, [] => some (m, [])
  | m, c :: cs =>
    match step m c with
    | none => none
    | some (m', ended) =>
      match run m' cs with
      | none => none
      | some (last, rest) => some (last, ended ++ rest)

/-- Every line break is read as `\n`. -/
def translateNewlines : List Char → List Char
  | [] => []
  | '\r' :: '\n' :: cs => '\n' :: translateNewlines cs
  | '\r' :: cs => '\n' :: translateNewlines cs
  | c :: cs => c :: translateNewlines cs

/-- The last line is ended where it is not. -/
def endLine (cs : List Char) : List Char := if cs.getLast? = some '\n' then cs else cs ++ ['\n']

/-- The lexemes of a source; `none` where it has a null character or a literal does not end. -/
def lexemes (source : List Char) : Option (List Lexeme) :=
  if Char.ofNat 0 ∈ source then none
  else
    match run .code (endLine (translateNewlines source)) with
    | some (.code, ls) => some ls
    | _ => none

/-! ## The escapes of a literal -/

def isHexDigit (c : Char) : Bool :=
  ('0' ≤ c && c ≤ '9') || ('a' ≤ c && c ≤ 'f') || ('A' ≤ c && c ≤ 'F')

/-- The characters start with `n` hexadecimal digits. -/
def hexDigits (n : ℕ) (cs : List Char) : Bool := (cs.take n).length = n && (cs.take n).all isHexDigit

/-- The code point of `\U` is in range: at most `0010FFFF`. -/
def inRange (cs : List Char) : Bool :=
  cs.take 3 = ['0', '0', '0'] || cs.take 4 = ['0', '0', '1', '0']

/-- `\x`, `\u`, `\U` and `\N` are followed by what they need; the last three are escapes of texts
only.  Any other character may follow a backslash. -/
def escapesOk (isCharName : List Char → Bool) (text : Bool) : List Char → Bool
  | [] => true
  | '\\' :: 'x' :: cs => hexDigits 2 cs && escapesOk isCharName text cs
  | '\\' :: 'u' :: cs => (!text || hexDigits 4 cs) && escapesOk isCharName text cs
  | '\\' :: 'U' :: cs => (!text || (hexDigits 8 cs && inRange cs)) && escapesOk isCharName text cs
  | '\\' :: 'N' :: cs =>
    (!text || (cs.head? = some '{' && '}' ∈ cs &&
      isCharName ((cs.drop 1).takeWhile (· ≠ '}')))) && escapesOk isCharName text cs
  | '\\' :: _ :: cs => escapesOk isCharName text cs
  | _ :: cs => escapesOk isCharName text cs

/-- The value of a literal can be read; of a raw one it is as it stands. -/
def Lexeme.readable (isCharName : List Char → Bool) : Lexeme → Bool
  | .string pre _ _ body =>
    if 'r' ∈ pre.map Char.toLower then true
    else if 'b' ∈ pre.map Char.toLower then
      body.all (·.toNat < 128) && escapesOk isCharName false body
    else escapesOk isCharName true body
  | _ => true

/-- What parsing takes from elsewhere: the names of characters, and the tree of some lexemes. -/
structure Grammar where
  isCharName : List Char → Bool
  tree : List Lexeme → Option Module

/-- `ast.parse`. -/
def Grammar.parse (g : Grammar) (source : List Char) : Option Module :=
  match lexemes source with
  | none => none
  | some ls => if ls.all (·.readable g.isCharName) then g.tree ls else none

/-! ## Following the pass -/

lemma run_cons_iff {m last : Mode} {c : Char} {cs : List Char} {out : List Lexeme} :
    run m (c :: cs) = some (last, out) ↔ ∃ m' ended rest, step m c = some (m', ended) ∧
      run m' cs = some (last, rest) ∧ out = ended ++ rest := by
  rw [run]
  cases hstep : step m c with
  | none => simp
  | some p =>
      obtain ⟨m', ended⟩ := p
      dsimp only
      cases hrun : run m' cs with
      | none =>
          refine iff_of_false nofun ?_
          rintro ⟨m₁, ended₁, rest, heq, hrest, -⟩
          injection heq with heq
          injection heq with hm _
          subst hm
          rw [hrun] at hrest
          exact nomatch hrest
      | some r =>
          obtain ⟨last', rest⟩ := r
          simp only [Option.some.injEq, Prod.mk.injEq]
          constructor
          · rintro ⟨rfl, rfl⟩
            exact ⟨m', ended, rest, ⟨rfl, rfl⟩, hrun, rfl⟩
          · rintro ⟨m₁, ended₁, rest₁, ⟨rfl, rfl⟩, hrest, rfl⟩
            rw [hrun] at hrest
            injection hrest with hrest
            injection hrest with hlast hout
            exact ⟨hlast, by rw [hout]⟩

/-- The pass over two pieces is the pass over the first and, from where it ends, over the second. -/
lemma run_append_iff {a b : List Char} : ∀ {m last : Mode} {out : List Lexeme},
    run m (a ++ b) = some (last, out) ↔ ∃ m' first rest, run m a = some (m', first) ∧
      run m' b = some (last, rest) ∧ out = first ++ rest := by
  induction a with
  | nil =>
      intro m last out
      constructor
      · intro h
        exact ⟨m, [], out, rfl, h, rfl⟩
      · rintro ⟨m', first, rest, hm, hrest, rfl⟩
        injection hm with hm
        injection hm with hm hfirst
        rw [← hfirst, List.nil_append, List.nil_append, hm, hrest]
  | cons c cs ih =>
      intro m last out
      rw [List.cons_append, run_cons_iff]
      constructor
      · rintro ⟨m', ended, rest, hstep, hrun, rfl⟩
        obtain ⟨m₁, first, rest₁, hfirst, hrest, rfl⟩ := ih.mp hrun
        exact ⟨m₁, ended ++ first, rest₁, run_cons_iff.mpr ⟨m', ended, first, hstep, hfirst, rfl⟩,
          hrest, (List.append_assoc _ _ _).symm⟩
      · rintro ⟨m₁, first, rest, hfirst, hrest, rfl⟩
        obtain ⟨m', ended, first', hstep, hrun, rfl⟩ := run_cons_iff.mp hfirst
        exact ⟨m', ended, first' ++ rest, hstep, ih.mpr ⟨m₁, first', rest, hrun, hrest, rfl⟩,
          List.append_assoc _ _ _⟩

/-- After a piece that ends between lexemes the pass starts anew. -/
lemma run_append_code {m last : Mode} {a b : List Char} {first out : List Lexeme}
    (h : run m a = some (.code, first)) :
    run m (a ++ b) = some (last, out) ↔ ∃ rest, run .code b = some (last, rest) ∧
      out = first ++ rest := by
  rw [run_append_iff]
  constructor
  · rintro ⟨m', first', rest, ha, hb, hout⟩
    rw [h] at ha
    injection ha with ha
    injection ha with hm hfirst
    subst hm hfirst
    exact ⟨rest, hb, hout⟩
  · rintro ⟨rest, hb, hout⟩
    exact ⟨.code, first, rest, h, hb, hout⟩

/-! ## Where a literal ends -/

/-- In a literal with single quotes the body does not end the literal, nor its line, and its last
character does not escape the quote. -/
def closesSingle (q : Char) : Bool → List Char → Bool
  | escaped, [] => !escaped
  | true, _ :: cs => closesSingle q false cs
  | false, c :: cs =>
    if c = '\\' then closesSingle q true cs else c ≠ q && c ≠ '\n' && closesSingle q false cs

/-- In a literal with tripled quotes the body has no three quotes in a row, and its last character
is no quote and does not escape one. -/
def closesTriple (q : Char) : Bool → ℕ → List Char → Bool
  | escaped, quotes, [] => !escaped && quotes = 0
  | true, _, _ :: cs => closesTriple q false 0 cs
  | false, quotes, c :: cs =>
    if c = '\\' then closesTriple q true 0 cs
    else if c = q then quotes < 2 && closesTriple q false (quotes + 1) cs
    else closesTriple q false 0 cs

variable {pre : List Char} {q : Char}

lemma run_single {body : List Char} (hq : q ≠ '\\') : ∀ {acc : List Char} {escaped : Bool},
    closesSingle q escaped body →
      run (.single pre q acc escaped) (body ++ [q]) =
        some (.code, [.string pre q false (acc ++ body)]) := by
  induction body with
  | nil =>
      intro acc escaped h
      have hopen : escaped = false := by simpa [closesSingle] using h
      subst hopen
      simp [run, step, stepSingle, hq]
  | cons c cs ih =>
      intro acc escaped h
      rw [List.cons_append, run_cons_iff]
      have hacc : acc ++ c :: cs = (acc ++ [c]) ++ cs := by simp
      cases escaped with
      | true => exact ⟨_, [], _, rfl, ih h, by rw [hacc]; rfl⟩
      | false =>
          rw [closesSingle] at h
          by_cases hback : c = '\\'
          · rw [if_pos hback] at h
            exact ⟨.single pre q (acc ++ [c]) true, [], _, by simp [step, stepSingle, hback], ih h,
              by rw [hacc]; rfl⟩
          · rw [if_neg hback] at h
            simp only [Bool.and_eq_true, decide_eq_true_eq] at h
            obtain ⟨⟨hne, hline⟩, hrest⟩ := h
            exact ⟨.single pre q (acc ++ [c]) false, [], _,
              by simp [step, stepSingle, hback, hne, hline], ih hrest, by rw [hacc]; rfl⟩

/-- The first literal that ends has at least the characters passed so far. -/
lemma run_single_extends : ∀ {cs acc : List Char} {escaped : Bool} {l : Lexeme}
    {out : List Lexeme}, run (.single pre q acc escaped) cs = some (.code, l :: out) →
      ∃ more, l = .string pre q false (acc ++ more) := by
  intro cs
  induction cs with
  | nil =>
      intro acc escaped l out h
      exact nomatch h
  | cons c cs ih =>
      intro acc escaped l out h
      obtain ⟨m', ended, rest, hstep, hrun, hout⟩ := run_cons_iff.mp h
      have hmore : ∀ {e : Bool}, m' = .single pre q (acc ++ [c]) e → ended = [] →
          ∃ more, l = .string pre q false (acc ++ more) := by
        rintro e rfl rfl
        rw [List.nil_append] at hout
        subst hout
        obtain ⟨more, hl⟩ := ih hrun
        exact ⟨c :: more, by rw [hl]; simp⟩
      change stepSingle pre q acc escaped c = _ at hstep
      unfold stepSingle at hstep
      split_ifs at hstep with hesc hback hq hline
      · injection hstep with hstep
        injection hstep with hm he
        exact hmore hm.symm he.symm
      · injection hstep with hstep
        injection hstep with hm he
        exact hmore hm.symm he.symm
      · injection hstep with hstep
        injection hstep with hm he
        rw [← he] at hout
        exact ⟨[], by rw [List.append_nil]; exact (List.cons.inj hout).1⟩
      · injection hstep with hstep
        injection hstep with hm he
        exact hmore hm.symm he.symm

lemma closesSingle_of_run {rest : List Char} {out : List Lexeme} {body : List Char} :
    ∀ {acc : List Char} {escaped : Bool},
      run (.single pre q acc escaped) (body ++ q :: rest) =
        some (.code, .string pre q false (acc ++ body) :: out) → closesSingle q escaped body := by
  induction body with
  | nil =>
      intro acc escaped h
      cases escaped with
      | false => rfl
      | true =>
          -- The quote is part of the body, so the literal that ends is longer.
          obtain ⟨m', ended, rest', hstep, hrun, hout⟩ := run_cons_iff.mp h
          injection hstep with hstep
          injection hstep with hm he
          subst hm he
          rw [List.nil_append] at hout
          rw [← hout] at hrun
          obtain ⟨more, hl⟩ := run_single_extends hrun
          injection hl with _ _ _ hbody
          exact absurd (congrArg List.length hbody) (by simp)
  | cons c cs ih =>
      intro acc escaped h
      obtain ⟨m', ended, rest', hstep, hrun, hout⟩ := run_cons_iff.mp h
      have hacc : acc ++ c :: cs = (acc ++ [c]) ++ cs := by simp
      have hcont : ∀ {e : Bool}, m' = .single pre q (acc ++ [c]) e → ended = [] →
          closesSingle q e cs := by
        rintro e rfl rfl
        rw [List.nil_append] at hout
        rw [← hout, hacc] at hrun
        exact ih hrun
      change stepSingle pre q acc escaped c = _ at hstep
      unfold stepSingle at hstep
      split_ifs at hstep with hesc hback hquote hline
      · injection hstep with hstep
        injection hstep with hm he
        rw [hesc]
        exact hcont hm.symm he.symm
      · injection hstep with hstep
        injection hstep with hm he
        rw [show escaped = false from by simpa using hesc, closesSingle, if_pos hback]
        exact hcont hm.symm he.symm
      · injection hstep with hstep
        injection hstep with hm he
        rw [← he] at hout
        injection (List.cons.inj hout).1 with _ _ _ hbody
        exact absurd (congrArg List.length hbody) (by simp)
      · injection hstep with hstep
        injection hstep with hm he
        rw [show escaped = false from by simpa using hesc, closesSingle, if_neg hback]
        simp only [Bool.and_eq_true, decide_eq_true_eq]
        exact ⟨⟨hquote, hline⟩, hcont hm.symm he.symm⟩

lemma run_triple {body : List Char} (hq : q ≠ '\\') : ∀ {acc : List Char} {escaped : Bool}
    {quotes : ℕ}, (escaped = true → quotes = 0) → closesTriple q escaped quotes body →
      run (.triple pre q acc escaped quotes) (body ++ [q, q, q]) =
        some (.code, [.string pre q true (acc ++ List.replicate quotes q ++ body)]) := by
  induction body with
  | nil =>
      intro acc escaped quotes _ h
      obtain ⟨hopen, hnone⟩ : escaped = false ∧ quotes = 0 := by simpa [closesTriple] using h
      subst hopen hnone
      simp [run, step, stepTriple, hq]
  | cons c cs ih =>
      intro acc escaped quotes hesc h
      rw [List.cons_append, run_cons_iff]
      have hacc : acc ++ List.replicate quotes q ++ c :: cs =
          (acc ++ List.replicate quotes q ++ [c]) ++ cs := by simp
      have hnone : ∀ more : List Char, acc ++ List.replicate quotes q ++ [c] ++
          List.replicate 0 q ++ more = acc ++ List.replicate quotes q ++ c :: more := by simp
      cases escaped with
      | true =>
          have hzero := hesc rfl
          subst hzero
          refine ⟨_, [], _, rfl, ih nofun h, ?_⟩
          simp
      | false =>
          rw [closesTriple] at h
          by_cases hback : c = '\\'
          · rw [if_pos hback] at h
            refine ⟨.triple pre q (acc ++ List.replicate quotes q ++ [c]) true 0, [], _, ?_,
              ih (fun _ => rfl) h, by rw [hnone]; rfl⟩
            simp [step, stepTriple, hback]
          · rw [if_neg hback] at h
            by_cases hquote : c = q
            · rw [if_pos hquote] at h
              simp only [Bool.and_eq_true, decide_eq_true_eq] at h
              obtain ⟨hlt, hrest⟩ := h
              refine ⟨.triple pre q acc false (quotes + 1), [], _, ?_, ih nofun hrest, ?_⟩
              · have hne : quotes ≠ 2 := by omega
                subst hquote
                simp [step, stepTriple, hback, hne]
              · rw [List.replicate_succ', hquote]
                simp
            · rw [if_neg hquote] at h
              refine ⟨.triple pre q (acc ++ List.replicate quotes q ++ [c]) false 0, [], _, ?_,
                ih nofun h, by rw [hnone]; rfl⟩
              simp [step, stepTriple, hback, hquote]

lemma run_triple_extends : ∀ {cs acc : List Char} {escaped : Bool} {quotes : ℕ} {l : Lexeme}
    {out : List Lexeme}, run (.triple pre q acc escaped quotes) cs = some (.code, l :: out) →
      ∃ more, l = .string pre q true (acc ++ more) := by
  intro cs
  induction cs with
  | nil =>
      intro acc escaped quotes l out h
      exact nomatch h
  | cons c cs ih =>
      intro acc escaped quotes l out h
      obtain ⟨m', ended, rest, hstep, hrun, hout⟩ := run_cons_iff.mp h
      have hmore : ∀ {seen : List Char} {e : Bool} {n : ℕ},
          m' = .triple pre q (acc ++ seen) e n → ended = [] →
            ∃ more, l = .string pre q true (acc ++ more) := by
        rintro seen e n rfl rfl
        rw [List.nil_append] at hout
        subst hout
        obtain ⟨more, hl⟩ := ih hrun
        exact ⟨seen ++ more, by rw [hl, List.append_assoc]⟩
      injection hstep with hstep
      unfold stepTriple at hstep
      split_ifs at hstep with hesc hback hq htwo
      · injection hstep with hm he
        exact hmore hm.symm he.symm
      · injection hstep with hm he
        rw [List.append_assoc] at hm
        exact hmore hm.symm he.symm
      · injection hstep with hm he
        rw [← he] at hout
        exact ⟨[], by rw [List.append_nil]; exact (List.cons.inj hout).1⟩
      · injection hstep with hm he
        exact @hmore [] false (quotes + 1) (by rw [List.append_nil]; exact hm.symm) he.symm
      · injection hstep with hm he
        rw [List.append_assoc] at hm
        exact hmore hm.symm he.symm

lemma closesTriple_of_run {rest : List Char} {out : List Lexeme} {body : List Char}
    (hq : q ≠ '\\') : ∀ {acc : List Char} {escaped : Bool} {quotes : ℕ},
      (escaped = true → quotes = 0) → quotes < 3 →
      run (.triple pre q acc escaped quotes) (body ++ q :: q :: q :: rest) =
        some (.code, .string pre q true (acc ++ List.replicate quotes q ++ body) :: out) →
      closesTriple q escaped quotes body := by
  induction body with
  | nil =>
      intro acc escaped quotes hesc hlt h
      cases escaped with
      | true =>
          obtain ⟨m', ended, rest', hstep, hrun, hout⟩ := run_cons_iff.mp h
          injection hstep with hstep
          injection hstep with hm he
          subst hm he
          rw [List.nil_append] at hout
          rw [← hout] at hrun
          obtain ⟨more, hl⟩ := run_triple_extends hrun
          injection hl with _ _ _ hbody
          have hzero := hesc rfl
          exact absurd (congrArg List.length hbody) (by simp [hzero])
      | false =>
          -- One or two quotes that stand at the end already end the literal too early.
          have hcases : quotes = 0 ∨ quotes = 1 ∨ quotes = 2 := by omega
          have hclosed : run (.triple pre q acc false quotes) (List.replicate (3 - quotes) q) =
              some (.code, [.string pre q true acc]) := by
            rcases hcases with rfl | rfl | rfl <;> simp [List.replicate, run, step, stepTriple, hq]
          have hsplit : [] ++ q :: q :: q :: rest =
              List.replicate (3 - quotes) q ++ (List.replicate quotes q ++ rest) := by
            rcases hcases with rfl | rfl | rfl <;> simp [List.replicate]
          rw [hsplit] at h
          obtain ⟨rest', -, hout⟩ := (run_append_code hclosed).mp h
          injection (List.cons.inj hout).1 with _ _ _ hbody
          have hlen := congrArg List.length hbody
          have hzero : quotes = 0 := by simpa using hlen
          rw [hzero]
          rfl
  | cons c cs ih =>
      intro acc escaped quotes hesc hlt h
      obtain ⟨m', ended, rest', hstep, hrun, hout⟩ := run_cons_iff.mp h
      have hcont : ∀ {acc' : List Char} {e : Bool} {n : ℕ}, m' = .triple pre q acc' e n →
          ended = [] → acc ++ List.replicate quotes q ++ c :: cs =
            acc' ++ List.replicate n q ++ cs → (e = true → n = 0) → n < 3 →
            closesTriple q e n cs := by
        rintro acc' e n rfl rfl heq he hn
        rw [List.nil_append] at hout
        rw [← hout, heq] at hrun
        exact ih he hn hrun
      injection hstep with hstep
      unfold stepTriple at hstep
      split_ifs at hstep with hescaped hback hquote htwo
      · injection hstep with hm he
        rw [hescaped]
        have hzero := hesc hescaped
        exact hcont hm.symm he.symm (by simp [hzero]) nofun (by omega)
      · injection hstep with hm he
        rw [show escaped = false from by simpa using hescaped, closesTriple, if_pos hback]
        exact hcont hm.symm he.symm (by simp) (fun _ => rfl) (by omega)
      · injection hstep with hm he
        rw [← he] at hout
        injection (List.cons.inj hout).1 with _ _ _ hbody
        exact absurd (congrArg List.length hbody) (by simp)
      · injection hstep with hm he
        rw [show escaped = false from by simpa using hescaped, closesTriple, if_neg hback,
          if_pos hquote]
        simp only [Bool.and_eq_true, decide_eq_true_eq]
        refine ⟨by omega, hcont hm.symm he.symm ?_ nofun (by omega)⟩
        rw [List.replicate_succ', hquote]
        simp
      · injection hstep with hm he
        rw [show escaped = false from by simpa using hescaped, closesTriple, if_neg hback,
          if_neg hquote]
        exact hcont hm.symm he.symm (by simp) nofun (by omega)

/-! ## A literal in its place -/

/-- The quotes that a literal is written between. -/
def delimiter (q : Char) (triple : Bool) : List Char := if triple then [q, q, q] else [q]

/-- A literal with this body ends at the quotes that are meant to end it. -/
def closes (q : Char) (triple : Bool) (body : List Char) : Bool :=
  if triple then closesTriple q false 0 body else closesSingle q false body

/-- A character that neither goes on with a word nor opens or ends a literal. -/
def isDelimiting (c : Char) : Bool := !isWordChar c && !isQuote c && c ≠ '#'

lemma stepCode_of_isDelimiting {c : Char} (h : isDelimiting c) : stepCode c = (.code, [.char c]) := by
  simp only [isDelimiting, Bool.and_eq_true, Bool.not_eq_true', decide_eq_true_eq] at h
  obtain ⟨⟨hword, hquote⟩, hhash⟩ := h
  simp [stepCode, hword, hquote, hhash]

lemma run_delimiting {c : Char} (h : isDelimiting c) :
    run .code [c] = some (.code, [.char c]) := by
  simp [run, step, stepCode_of_isDelimiting h]

lemma isQuote_iff : isQuote q ↔ q = '\'' ∨ q = '"' := by
  simp [isQuote]

lemma ne_backslash_of_isQuote (h : isQuote q) : q ≠ '\\' := by
  rintro rfl
  exact absurd h (by decide)

lemma stepCode_of_isQuote (h : isQuote q) : stepCode q = (.oneQuote [] q, []) := by
  rcases isQuote_iff.mp h with rfl | rfl <;> decide

lemma run_quote (h : isQuote q) (cs : List Char) :
    run .code (q :: cs) = run (.oneQuote [] q) cs := by
  rw [run]
  simp only [step, stepCode_of_isQuote h]
  cases run (.oneQuote [] q) cs <;> rfl

/-- The second character of a literal that is not tripled is read like the others. -/
lemma run_oneQuote {c : Char} (h : c ≠ q) (cs : List Char) :
    run (.oneQuote pre q) (c :: cs) = run (.single pre q [] false) (c :: cs) := by
  rw [run, run]
  simp [step, h]

lemma run_threeQuotes (h : isQuote q) (cs : List Char) :
    run .code (q :: q :: q :: cs) = run (.triple [] q [] false 0) cs := by
  rw [run_quote h]
  simp only [run, step, if_true]
  cases run (.triple [] q [] false 0) cs <;> rfl

/-- A literal whose body does not end it is one lexeme. -/
lemma run_literal (hq : isQuote q) {triple : Bool} {body : List Char} {next : Char}
    (hnext : isDelimiting next) (h : closes q triple body) :
    run .code (delimiter q triple ++ body ++ delimiter q triple ++ [next]) =
      some (.code, [.string [] q triple body, .char next]) := by
  have hback := ne_backslash_of_isQuote hq
  cases triple with
  | true =>
      have hrun : run (.triple [] q [] false 0) (body ++ [q, q, q]) =
          some (.code, [.string [] q true body]) := run_triple hback nofun h
      show run .code (q :: q :: q :: body ++ [q, q, q] ++ [next]) = _
      rw [List.cons_append, List.cons_append, List.cons_append, List.cons_append,
        List.cons_append, List.cons_append, run_threeQuotes hq, run_append_code hrun]
      exact ⟨_, run_delimiting hnext, rfl⟩
  | false =>
      show run .code (q :: body ++ [q] ++ [next]) = _
      rw [List.cons_append, List.cons_append, run_quote hq]
      cases body with
      | nil =>
          have hne : next ≠ q := by
            rintro rfl
            simp [isDelimiting, hq] at hnext
          simp [run, step, hne, stepCode_of_isDelimiting hnext]
      | cons c cs =>
          have hc : c ≠ q := by
            rintro rfl
            simp [closes, closesSingle, hback] at h
          have hrun : run (.single [] q [] false) (c :: cs ++ [q]) =
              some (.code, [.string [] q false (c :: cs)]) := run_single hback h
          rw [List.cons_append, List.cons_append, run_oneQuote hc, ← List.cons_append,
            ← List.cons_append, run_append_code hrun]
          exact ⟨_, run_delimiting hnext, rfl⟩

/-- Where the first lexeme is the literal with the whole body, the body does not end it. -/
lemma closes_of_run (hq : isQuote q) {triple : Bool} {body rest : List Char}
    {out : List Lexeme} (h : run .code (delimiter q triple ++ body ++ delimiter q triple ++ rest) =
      some (.code, .string [] q triple body :: out)) : closes q triple body := by
  have hback := ne_backslash_of_isQuote hq
  cases triple with
  | true =>
      have hshape : delimiter q true ++ body ++ delimiter q true ++ rest =
          q :: q :: q :: (body ++ q :: q :: q :: rest) := by simp [delimiter]
      rw [hshape, run_threeQuotes hq] at h
      exact closesTriple_of_run hback nofun (by omega) h
  | false =>
      have hshape : delimiter q false ++ body ++ delimiter q false ++ rest =
          q :: (body ++ q :: rest) := by simp [delimiter]
      rw [hshape, run_quote hq] at h
      cases body with
      | nil => rfl
      | cons c cs =>
          by_cases hc : c = q
          · -- Two quotes at the start are an empty literal or open a tripled one.
            subst hc
            rw [List.cons_append] at h
            obtain ⟨m', ended, out', hstep, hrun, hout⟩ := run_cons_iff.mp h
            simp only [step, if_true] at hstep
            injection hstep with hstep
            injection hstep with hm he
            subst hm he
            rw [List.nil_append] at hout
            rw [← hout] at hrun
            cases hcs : cs ++ c :: rest with
            | nil => simp at hcs
            | cons d ds =>
                rw [hcs] at hrun
                obtain ⟨m₁, ended₁, out₁, hstep₁, hrun₁, hout₁⟩ := run_cons_iff.mp hrun
                simp only [step] at hstep₁
                split_ifs at hstep₁ with hd
                · injection hstep₁ with hstep₁
                  injection hstep₁ with hm he
                  subst hm he
                  rw [List.nil_append] at hout₁
                  rw [← hout₁] at hrun₁
                  obtain ⟨more, hl⟩ := run_triple_extends hrun₁
                  injection hl with _ _ htriple _
                  exact absurd htriple (by decide)
                · injection hstep₁ with hstep₁
                  injection hstep₁ with hm he
                  rw [← he] at hout₁
                  injection (List.cons.inj hout₁).1 with _ _ _ hbody
                  exact absurd hbody (by simp)
          · rw [List.cons_append, run_oneQuote hc] at h
            exact closesSingle_of_run h

/-! ## Text without literals -/

/-- The lexemes of a text of words and delimiting characters, after the word so far. -/
def plain : List Char → List Char → List Lexeme
  | [], [] => []
  | w, [] => [wordLexeme w]
  | w, c :: cs =>
    if isWordChar c then plain (w ++ [c]) cs
    else (if w = [] then [] else [wordLexeme w]) ++ .char c :: plain [] cs

/-- The mode of the pass after some characters of a word. -/
def pending (w : List Char) : Mode := if w = [] then .code else .word w

lemma step_pending_word (w : List Char) {c : Char} (h : isWordChar c) :
    step (pending w) c = some (.word (w ++ [c]), []) := by
  unfold pending
  split_ifs with hw
  · simp [step, stepCode, h, hw]
  · simp [step, h]

lemma step_pending_delimiting (w : List Char) {c : Char} (h : isDelimiting c) :
    step (pending w) c =
      some (.code, (if w = [] then [] else [wordLexeme w]) ++ [.char c]) := by
  have hcode := stepCode_of_isDelimiting h
  simp only [isDelimiting, Bool.and_eq_true, Bool.not_eq_true', decide_eq_true_eq] at h
  unfold pending
  split_ifs with hw
  · simp [step, hcode]
  · simp [step, hcode, h.1.1, h.1.2]

lemma run_plain {next : Char} (hnext : isDelimiting next) {text : List Char} :
    ∀ {w : List Char}, (∀ c ∈ text, isWordChar c ∨ isDelimiting c) →
      run (pending w) (text ++ [next]) = some (.code, plain w text ++ [.char next]) := by
  induction text with
  | nil =>
      intro w _
      rw [List.nil_append, run_cons_iff]
      refine ⟨.code, _, [], step_pending_delimiting w hnext, rfl, ?_⟩
      cases w <;> simp [plain]
  | cons c cs ih =>
      intro w h
      have hcs : ∀ c ∈ cs, isWordChar c ∨ isDelimiting c := fun d hd =>
        h d (List.mem_cons_of_mem _ hd)
      rw [List.cons_append, run_cons_iff]
      by_cases hc : isWordChar c
      · have hpending : Mode.word (w ++ [c]) = pending (w ++ [c]) := by simp [pending]
        refine ⟨.word (w ++ [c]), [], _, step_pending_word w hc, by rw [hpending]; exact ih hcs, ?_⟩
        simp [plain, hc]
      · have hd := (h c List.mem_cons_self).resolve_left hc
        refine ⟨.code, _, _, step_pending_delimiting w hd, ih (w := []) hcs, ?_⟩
        simp [plain, hc]

lemma plain_word {text : List Char} : ∀ {w : List Char}, w ++ text ≠ [] →
    (∀ c ∈ text, isWordChar c) → plain w text = [wordLexeme (w ++ text)] := by
  induction text with
  | nil =>
      intro w hne _
      cases w with
      | nil => exact absurd rfl hne
      | cons c cs => simp [plain]
  | cons c cs ih =>
      intro w _ h
      have hc := h c List.mem_cons_self
      rw [plain, if_pos hc, ih (by simp) fun d hd => h d (List.mem_cons_of_mem _ hd)]
      simp

lemma run_word {w : List Char} {next : Char} (hne : w ≠ []) (hw : ∀ c ∈ w, isWordChar c)
    (hnext : isDelimiting next) :
    run .code (w ++ [next]) = some (.code, [wordLexeme w, .char next]) := by
  have hrun := @run_plain next hnext w [] fun c hc => Or.inl (hw c hc)
  rw [plain_word (w := []) (by simpa using hne) hw] at hrun
  exact hrun

/-! ## Line breaks -/

lemma translateNewlines_of_not_mem {a b : List Char} (h : '\r' ∉ a) :
    translateNewlines (a ++ b) = a ++ translateNewlines b := by
  induction a with
  | nil => rfl
  | cons c cs ih =>
      rw [List.mem_cons, not_or] at h
      rw [List.cons_append, List.cons_append, translateNewlines, ih h.2]
      · rintro ds rfl
        exact absurd rfl h.1
      · rintro rfl
        exact absurd rfl h.1

lemma translateNewlines_return {cs : List Char} (h : ∀ ds, cs ≠ '\n' :: ds) :
    translateNewlines ('\r' :: cs) = '\n' :: translateNewlines cs := by
  cases cs with
  | nil => rfl
  | cons d ds =>
      have hd : d ≠ '\n' := by
        rintro rfl
        exact h ds rfl
      rw [translateNewlines]
      rintro es heq
      exact hd (List.cons.inj heq).1

/-- A piece that is not followed by `\n` is translated by itself. -/
lemma translateNewlines_append {c : Char} (h : c ≠ '\n') (a b : List Char) :
    translateNewlines (a ++ c :: b) = translateNewlines a ++ translateNewlines (c :: b) := by
  fun_induction translateNewlines a with
  | case1 => rfl
  | case2 cs ih =>
      show '\n' :: translateNewlines (cs ++ c :: b) = _
      rw [ih]
      rfl
  | case3 cs hcs ih =>
      rw [List.cons_append, translateNewlines_return, ih]
      · rfl
      · intro ds heq
        cases cs with
        | nil => exact h (List.cons.inj heq).1
        | cons d es => exact hcs es (by rw [(List.cons.inj heq).1])
  | case4 d cs h₁ h₂ ih =>
      have hd : d ≠ '\r' := h₂
      rw [List.cons_append, translateNewlines, ih]
      · rfl
      · rintro es rfl
        exact absurd rfl hd
      · exact hd

end Python
