import AtlasMemory.Foundations.PythonRepr

/-!
# Source templates

A template is fixed code with gaps: words, numbers, displays of values, and literals into which
texts are put as they are.  `lexemes_render_iff` says when a filled template is read as it is meant:
when every word that stands for a name is one, and no text ends the literal it stands in.
-/

namespace Python

/-- What fills a gap of a template. -/
inductive Filling where
  | name (word : List Char)
  | number (n : ℕ)
  | value (v : Json)
  | literal (quote : Char) (triple : Bool) (body : List Char)

/-- A part of a template: code, or a gap with the code up to the next one. -/
inductive Part where
  | code (text : List Char)
  | gap (filling : Filling) (after : List Char)

/-- A character that code may have. -/
def Allowed (c : Char) : Prop := c ≠ '\r' ∧ c ≠ Char.ofNat 0

instance (c : Char) : Decidable (Allowed c) := inferInstanceAs (Decidable (_ ∧ _))

/-- A literal without prefix and without escapes, or no literal. -/
def Lexeme.isPlain : Lexeme → Bool
  | .string pre _ _ body => pre = [] && '\\' ∉ body
  | _ => true

/-- Code that ends between lexemes, with plain literals only. -/
def isCode (text : List Char) : Bool :=
  text.all (Allowed ·) && (run .code text).any fun r => r.1 = .code && r.2.all (·.isPlain)

def followsGap (after : List Char) : Bool := after.head?.any isDelimiting && isCode after

def codeLexemes (text : List Char) : List Lexeme := ((run .code text).map Prod.snd).getD []

namespace Filling

variable (isPrintable : Char → Bool)

def text : Filling → List Char
  | name word => word
  | number n => NumberLit.decimal n
  | value v => reprValue isPrintable v
  | literal q triple body => delimiter q triple ++ body ++ delimiter q triple

/-- The text with its line breaks as they are read. -/
def readText : Filling → List Char
  | literal q triple body => delimiter q triple ++ translateNewlines body ++ delimiter q triple
  | f => f.text isPrintable

/-- The lexemes that the text is meant to have. -/
def lexemes : Filling → List Lexeme
  | name word => [.name word]
  | number n => [.number (NumberLit.decimal n)]
  | value v => display isPrintable v
  | literal q triple body => [.string [] q triple (translateNewlines body)]

/-- The filling is of its kind, whatever texts it has. -/
def Ok : Filling → Prop
  | name word => word ≠ [] ∧ ∀ c ∈ word, isWordChar c
  | literal q _ _ => isQuote q
  | number _ | value _ => True

/-- The escapes of the text are complete. -/
def EscapesOk (isCharName : List Char → Bool) : Filling → Prop
  | literal _ _ body => escapesOk isCharName true (translateNewlines body)
  | name _ | number _ | value _ => True

/-- The word is a name, and the text does not end its literal. -/
def Fits : Filling → Prop
  | name word => wordLexeme word = .name word
  | literal q triple body => Char.ofNat 0 ∉ body ∧ closes q triple (translateNewlines body)
  | number _ | value _ => True

end Filling

namespace Part

variable (isPrintable : Char → Bool)

def render : Part → List Char
  | code text => text
  | gap f after => f.text isPrintable ++ after

/-- The text with its line breaks as they are read. -/
def readText : Part → List Char
  | code text => text
  | gap f after => f.readText isPrintable ++ after

/-- The lexemes that a part is meant to have. -/
def lexemes : Part → List Lexeme
  | code text => codeLexemes text
  | gap f after => f.lexemes isPrintable ++ codeLexemes after

/-- The part is well formed, whatever texts are put into the gap. -/
def Ok : Part → Prop
  | code text => isCode text
  | gap f after => f.Ok ∧ followsGap after

/-- The escapes of the text in the gap are complete. -/
def EscapesOk (isCharName : List Char → Bool) : Part → Prop
  | code _ => True
  | gap f _ => f.EscapesOk isCharName

def Fits : Part → Prop
  | code _ => True
  | gap f _ => f.Fits

end Part

/-! ## Code -/

lemma run_of_isCode {text : List Char} (h : isCode text) :
    run .code text = some (.code, codeLexemes text) := by
  unfold isCode at h
  rw [Bool.and_eq_true, Option.any_eq_true] at h
  obtain ⟨⟨m, ls⟩, hsome, hm⟩ := h.2
  have hmode : m = .code := by simp_all
  subst hmode
  rw [codeLexemes, hsome]
  rfl

lemma isPlain_of_isCode {text : List Char} (h : isCode text) :
    ∀ l ∈ codeLexemes text, l.isPlain := by
  have hrun := run_of_isCode h
  unfold isCode at h
  rw [Bool.and_eq_true, hrun] at h
  simpa using h.2

lemma allowed_of_isCode {text : List Char} (h : isCode text) : ∀ c ∈ text, Allowed c := by
  unfold isCode at h
  simp only [Bool.and_eq_true, List.all_eq_true, decide_eq_true_eq] at h
  exact h.1

lemma translateNewlines_of_allowed {a b : List Char} (h : ∀ c ∈ a, Allowed c) :
    translateNewlines (a ++ b) = a ++ translateNewlines b :=
  translateNewlines_of_not_mem fun hr => (h _ hr).1 rfl

/-- What is read as it is meant before any delimiting character is so before code. -/
lemma ReadsAs.append_code {text after : List Char} {ls : List Lexeme} (h : ReadsAs text ls)
    (hafter : followsGap after) :
    run .code (text ++ after) = some (.code, ls ++ codeLexemes after) := by
  unfold followsGap at hafter
  rw [Bool.and_eq_true] at hafter
  obtain ⟨hhead, hcode⟩ := hafter
  cases after with
  | nil => exact nomatch hhead
  | cons c cs =>
      have hc : isDelimiting c := by simpa using hhead
      obtain ⟨rest, hrest, hout⟩ :=
        (run_append_code (run_delimiting hc)).mp (run_of_isCode hcode)
      have hlexemes : codeLexemes (c :: cs) = [.char c] ++ rest := hout
      rw [hlexemes]
      exact h.append hc hrest

/-! ## Gaps -/

variable {isPrintable : Char → Bool}

lemma allowed_of_isWordChar {c : Char} (h : isWordChar c) : Allowed c := by
  constructor
  · rintro rfl
    exact absurd h (by decide)
  · rintro rfl
    exact absurd h (by decide)

lemma allowed_of_visible {cs : List Char} (h : Visible cs) : ∀ c ∈ cs, Allowed c := by
  intro c hc
  have hvisible := h c hc
  constructor
  · rintro rfl
    exact absurd hvisible (by decide)
  · rintro rfl
    exact absurd hvisible (by decide)

lemma forall_allowed_delimiter {q : Char} (hq : isQuote q) (triple : Bool) :
    ∀ c ∈ delimiter q triple, Allowed c := by
  have hallowed : Allowed q := by
    rcases isQuote_iff.mp hq with rfl | rfl <;> decide
  cases triple <;> simp [delimiter, hallowed]

lemma isWordChar_decimal {n : ℕ} : ∀ c ∈ NumberLit.decimal n, isWordChar c := by
  intro c hc
  have hdigit := NumberLit.isDigit_of_mem_decimal hc
  simp only [isDigit, Bool.and_eq_true, decide_eq_true_eq] at hdigit
  simp [isWordChar, hdigit]

lemma decimal_ne_nil (n : ℕ) : NumberLit.decimal n ≠ [] := by
  by_cases hn : n = 0
  · rw [hn]
    decide
  · obtain ⟨c, cs, heq, -⟩ := NumberLit.exists_decimal_eq_cons hn
    rw [heq]
    exact List.cons_ne_nil c cs

lemma wordLexeme_decimal (n : ℕ) :
    wordLexeme (NumberLit.decimal n) = .number (NumberLit.decimal n) := by
  cases hcs : NumberLit.decimal n with
  | nil => exact absurd hcs (decimal_ne_nil n)
  | cons c cs =>
      have hdigit := NumberLit.isDigit_of_mem_decimal (hcs ▸ List.mem_cons_self : c ∈ _)
      simp only [isDigit, Bool.and_eq_true, decide_eq_true_eq] at hdigit
      exact if_pos hdigit

namespace Filling

variable {f : Filling}

lemma readsAs (h : f.Ok) (hfits : f.Fits) :
    ReadsAs (f.readText isPrintable) (f.lexemes isPrintable) := by
  cases f with
  | name word =>
      have hname : wordLexeme word = .name word := hfits
      intro next hnext
      have hrun := run_word h.1 h.2 hnext
      rw [hname] at hrun
      exact hrun
  | number n =>
      intro next hnext
      have hrun := run_word (decimal_ne_nil n) isWordChar_decimal hnext
      rw [wordLexeme_decimal] at hrun
      exact hrun
  | value v => exact run_reprValue v
  | literal q triple body => exact fun _ hnext => run_literal h hnext hfits.2

/-- Outside literals a filling has no null characters and no carriage returns. -/
lemma forall_allowed (h : f.Ok) (hf : ∀ q triple body, f ≠ literal q triple body) :
    ∀ c ∈ f.text isPrintable, Allowed c := by
  cases f with
  | name word => exact fun c hc => allowed_of_isWordChar (h.2 c hc)
  | number n => exact fun c hc => allowed_of_isWordChar (isWordChar_decimal c hc)
  | value v => exact allowed_of_visible (visible_reprValue v)
  | literal q triple body => exact absurd rfl (hf q triple body)

end Filling

namespace Part

variable {p : Part}

/-- The line breaks of a part are read without regard to what follows it. -/
lemma translateNewlines_render (h : p.Ok) (rest : List Char) :
    translateNewlines (p.render isPrintable ++ rest) =
      p.readText isPrintable ++ translateNewlines rest := by
  cases p with
  | code text => exact translateNewlines_of_allowed (allowed_of_isCode h)
  | gap f after =>
      obtain ⟨hok, hafter⟩ := h
      unfold followsGap at hafter
      rw [Bool.and_eq_true] at hafter
      have hrest : translateNewlines (after ++ rest) = after ++ translateNewlines rest :=
        translateNewlines_of_allowed (allowed_of_isCode hafter.2)
      show translateNewlines (f.text isPrintable ++ after ++ rest) =
        f.readText isPrintable ++ after ++ translateNewlines rest
      rw [List.append_assoc, List.append_assoc]
      cases f with
      | literal q triple body =>
          have hq : isQuote q := hok
          have hdelim := forall_allowed_delimiter hq triple
          have hline : q ≠ '\n' := by
            rcases isQuote_iff.mp hq with rfl | rfl <;> decide
          obtain ⟨tail, htail⟩ : ∃ tail, delimiter q triple = q :: tail := by
            cases triple <;> exact ⟨_, rfl⟩
          have hclose : translateNewlines (delimiter q triple ++ (after ++ rest)) =
              delimiter q triple ++ (after ++ translateNewlines rest) := by
            rw [translateNewlines_of_allowed hdelim, hrest]
          have hbody : translateNewlines (body ++ (delimiter q triple ++ (after ++ rest))) =
              translateNewlines body ++ (delimiter q triple ++ (after ++ translateNewlines rest)) :=
            by
              rw [htail, List.cons_append] at hclose ⊢
              rw [translateNewlines_append hline, hclose]
          simp only [Filling.text, Filling.readText, List.append_assoc]
          rw [translateNewlines_of_allowed hdelim, hbody]
      | _ =>
          rw [translateNewlines_of_allowed (Filling.forall_allowed hok (by rintro _ _ _ ⟨⟩)), hrest]
          rfl

/-- A well-formed part that fits is read as it is meant. -/
lemma run_readText (h : p.Ok) (hfits : p.Fits) :
    run .code (p.readText isPrintable) = some (.code, p.lexemes isPrintable) := by
  cases p with
  | code text => exact run_of_isCode h
  | gap f after => exact (Filling.readsAs h.1 hfits).append_code h.2

/-- Where the lexemes start with those that a part is meant to have, its word is a name and its
text does not end its literal. -/
lemma fits_of_run (h : p.Ok) (hnull : Char.ofNat 0 ∉ p.render isPrintable) {rest : List Char}
    {out : List Lexeme} (hrun : run .code (p.readText isPrintable ++ rest) =
      some (.code, p.lexemes isPrintable ++ out)) : p.Fits := by
  cases p with
  | code _ => trivial
  | gap f after =>
      obtain ⟨hok, hafter⟩ := h
      cases f with
      | number _ | value _ => trivial
      | name word =>
          have hword : ReadsAs word [wordLexeme word] := fun _ => run_word hok.1 hok.2
          obtain ⟨out', -, hout⟩ := (run_append_code (hword.append_code hafter)).mp hrun
          exact (List.cons.inj hout).1.symm
      | literal q triple body =>
          refine ⟨fun hmem => hnull ?_, ?_⟩
          · show _ ∈ delimiter q triple ++ body ++ delimiter q triple ++ after
            simp [hmem]
          · have hwhole : run .code (delimiter q triple ++ translateNewlines body ++
                delimiter q triple ++ (after ++ rest)) =
                  some (.code, .string [] q triple (translateNewlines body) ::
                    (codeLexemes after ++ out)) := by
              rw [← List.append_assoc]
              exact hrun
            exact closes_of_run hok hwhole

end Part

/-! ## Templates -/

variable {parts : List Part}

lemma translateNewlines_parts (hok : ∀ p ∈ parts, p.Ok) :
    translateNewlines (parts.flatMap (·.render isPrintable)) =
      parts.flatMap (·.readText isPrintable) := by
  induction parts with
  | nil => rfl
  | cons p ps ih =>
      rw [List.flatMap_cons, List.flatMap_cons,
        Part.translateNewlines_render (hok p List.mem_cons_self),
        ih fun p hp => hok p (List.mem_cons_of_mem _ hp)]

/-- The pass over a filled template gives the lexemes that are meant exactly when all texts fit. -/
lemma run_parts_iff (hok : ∀ p ∈ parts, p.Ok)
    (hnull : Char.ofNat 0 ∉ parts.flatMap (·.render isPrintable)) :
    run .code (parts.flatMap (·.readText isPrintable)) =
        some (.code, parts.flatMap (·.lexemes isPrintable)) ↔ ∀ p ∈ parts, p.Fits := by
  induction parts with
  | nil => simp [run]
  | cons p ps ih =>
      rw [List.flatMap_cons, List.mem_append, not_or] at hnull
      have hp := hok p List.mem_cons_self
      have hps : ∀ p ∈ ps, p.Ok := fun p hp => hok p (List.mem_cons_of_mem _ hp)
      rw [List.flatMap_cons, List.flatMap_cons, List.forall_mem_cons]
      constructor
      · intro hrun
        have hfits := Part.fits_of_run hp hnull.1 hrun
        obtain ⟨rest, hrest, hout⟩ := (run_append_code (Part.run_readText hp hfits)).mp hrun
        rw [← List.append_cancel_left hout] at hrest
        exact ⟨hfits, (ih hps hnull.2).mp hrest⟩
      · rintro ⟨hfits, hall⟩
        exact (run_append_code (Part.run_readText hp hfits)).mpr
          ⟨_, (ih hps hnull.2).mpr hall, rfl⟩

lemma Part.null_not_mem {p : Part} (h : p.Ok) (hfits : p.Fits) :
    Char.ofNat 0 ∉ p.render isPrintable := by
  intro hmem
  cases p with
  | code text => exact (allowed_of_isCode h _ hmem).2 rfl
  | gap f after =>
      obtain ⟨hok, hafter⟩ := h
      unfold followsGap at hafter
      rw [Bool.and_eq_true] at hafter
      rcases List.mem_append.mp hmem with hmem | hmem
      · cases f with
        | literal q triple body =>
            have hquote : Char.ofNat 0 ∉ delimiter q triple := fun h =>
              (forall_allowed_delimiter hok triple _ h).2 rfl
            simp only [Filling.text, List.mem_append] at hmem
            rcases hmem with (h | h) | h
            · exact hquote h
            · exact hfits.1 h
            · exact hquote h
        | _ => exact (Filling.forall_allowed hok (by rintro _ _ _ ⟨⟩) _ hmem).2 rfl
      · exact (allowed_of_isCode hafter.2 _ hmem).2 rfl

/-- **A filled template is read as it is meant** exactly when all texts fit. -/
theorem lexemes_render_iff (hok : ∀ p ∈ parts, p.Ok)
    (hend : (parts.flatMap (·.readText isPrintable)).getLast? = some '\n') :
    lexemes (parts.flatMap (·.render isPrintable)) =
        some (parts.flatMap (·.lexemes isPrintable)) ↔ ∀ p ∈ parts, p.Fits := by
  unfold lexemes
  rw [translateNewlines_parts hok, endLine, if_pos hend]
  by_cases hnull : Char.ofNat 0 ∈ parts.flatMap (·.render isPrintable)
  · rw [if_pos hnull]
    refine iff_of_false nofun fun hfits => ?_
    obtain ⟨p, hp, hmem⟩ := List.mem_flatMap.mp hnull
    exact Part.null_not_mem (hok p hp) (hfits p hp) hmem
  · rw [if_neg hnull, ← run_parts_iff hok hnull]
    constructor
    · intro h
      split at h
      · next ls hrun =>
          injection h with h
          rw [hrun, h]
      · exact nomatch h
    · intro h
      rw [h]

/-! ## What the grammar makes of it -/

variable {isCharName : List Char → Bool}

lemma Lexeme.readable_of_isPlain {l : Lexeme} (h : l.isPlain) : l.readable isCharName := by
  cases l with
  | string pre q triple body =>
      have hparts : pre = [] ∧ '\\' ∉ body := by simpa [Lexeme.isPlain] using h
      obtain ⟨rfl, hback⟩ := hparts
      show escapesOk isCharName true body
      clear h
      induction body with
      | nil => rfl
      | cons c cs ih =>
          rw [List.mem_cons, not_or] at hback
          rw [escapesOk_cons (Ne.symm hback.1)]
          exact ih hback.2
  | _ => rfl

/-- The lexemes of a part are readable exactly when the escapes of its text are complete. -/
lemma Part.readable_lexemes_iff {p : Part} (h : p.Ok) :
    Readable isCharName (p.lexemes isPrintable) ↔ p.EscapesOk isCharName := by
  have hplain : ∀ {text : List Char}, isCode text → Readable isCharName (codeLexemes text) :=
    fun hcode l hl => Lexeme.readable_of_isPlain (isPlain_of_isCode hcode l hl)
  cases p with
  | code text => exact iff_of_true (hplain h) trivial
  | gap f after =>
      obtain ⟨-, hafter⟩ := h
      unfold followsGap at hafter
      rw [Bool.and_eq_true] at hafter
      have hrest := hplain hafter.2
      show Readable isCharName (f.lexemes isPrintable ++ codeLexemes after) ↔ _
      cases f with
      | name word => exact iff_of_true (readable_cons rfl hrest) trivial
      | number n => exact iff_of_true (readable_cons rfl hrest) trivial
      | value v => exact iff_of_true (readable_append (readable_display v) hrest) trivial
      | literal q triple body =>
          exact ⟨fun hall => hall _ List.mem_cons_self, fun hesc => readable_cons hesc hrest⟩

/-- **A filled template has the tree that its lexemes are meant to have**, for every grammar,
exactly when all texts fit and all their escapes are complete. -/
theorem parse_render_iff (hok : ∀ p ∈ parts, p.Ok)
    (hend : (parts.flatMap (·.readText isPrintable)).getLast? = some '\n') :
    (∀ tree m, tree (parts.flatMap (·.lexemes isPrintable)) = some m →
        (Grammar.mk isCharName tree).parse (parts.flatMap (·.render isPrintable)) = some m) ↔
      ∀ p ∈ parts, p.Fits ∧ p.EscapesOk isCharName := by
  have hfits := lexemes_render_iff hok hend
  have hread : Readable isCharName (parts.flatMap (·.lexemes isPrintable)) ↔
      ∀ p ∈ parts, p.EscapesOk isCharName := by
    unfold Readable
    rw [List.forall_mem_flatMap]
    exact forall₂_congr fun p hp => Part.readable_lexemes_iff (hok p hp)
  rw [forall₂_and, ← hfits, ← hread]
  constructor
  · intro h
    -- The grammar that takes nothing but the lexemes that are meant.
    have hone := h (fun ls => if ls = parts.flatMap (·.lexemes isPrintable) then some ⟨[]⟩ else none)
      ⟨[]⟩ (if_pos rfl)
    unfold Grammar.parse at hone
    split at hone
    · exact nomatch hone
    · next ls hls =>
        split_ifs at hone with hall
        dsimp only at hone
        split_ifs at hone with hmeant
        subst hmeant
        exact ⟨hls, List.all_eq_true.mp hall⟩
  · rintro ⟨hls, hall⟩ tree m hm
    unfold Grammar.parse
    rw [hls]
    dsimp only
    rw [if_pos (List.all_eq_true.mpr hall)]
    exact hm

end Python
