import AtlasMemory.Foundations.JsonRemainder
import AtlasMemory.L2Semantic.StateRepository

/-!
# Reading metadata back

Stored metadata are normalised before they are decoded, and the normalisation may undo escapes in
the middle of the JSON text.  It never touches the end of the text, though: a dictionary whose last
item is a number is read back with that item, or is not read at all.
-/

namespace AtlasMemory

open PyText

namespace Textnorm

/-! ## The end of a normalised text -/

section KeepsEnd

/-- A text that no substitution changes and that no escape reaches into: it starts with a space and
has no backslash and no surrogate. -/
structure Inert (tail : PyText) : Prop where
  head : ∃ cs, tail = .scalar ' ' :: cs
  scalar : ∀ u ∈ tail, ∃ c, u = .scalar c
  plain : backslash ∉ tail

variable {tail : PyText}

lemma hexPrefix_length_le {n acc m : ℕ} {q : PyText} (hhead : ∃ cs, tail = .scalar ' ' :: cs)
    (h : hexPrefix n acc (q ++ tail) = some m) : n ≤ q.length := by
  induction n generalizing acc q with
  | zero => exact Nat.zero_le _
  | succ n ih =>
      cases q with
      | nil =>
          obtain ⟨cs, rfl⟩ := hhead
          cases h
      | cons u us =>
          cases u with
          | high k => cases h
          | low k => cases h
          | scalar c =>
              obtain ⟨d, -, hrest⟩ := Option.bind_eq_some_iff.mp h
              exact Nat.succ_le_succ (ih hrest)

lemma hexEscapeAt_length_le {letter : Char} {n m : ℕ} {q : PyText} (hletter : letter ≠ ' ')
    (hhead : ∃ cs, tail = .scalar ' ' :: cs) (h : hexEscapeAt letter n (q ++ tail) = some m) :
    n + 1 ≤ q.length := by
  cases q with
  | nil =>
      obtain ⟨cs, rfl⟩ := hhead
      rw [List.nil_append, hexEscapeAt, if_neg (Ne.symm hletter)] at h
      cases h
  | cons u us =>
      cases u with
      | high k => cases h
      | low k => cases h
      | scalar c =>
          rw [List.cons_append, hexEscapeAt] at h
          split_ifs at h
          exact Nat.succ_le_succ (hexPrefix_length_le hhead h)

lemma subHex_of_plain {letter : Char} {n : ℕ} {t : PyText} (h : backslash ∉ t) :
    subHex letter n 0 t = some t := by
  induction t with
  | nil => rfl
  | cons u us ih =>
      rw [List.mem_cons, not_or] at h
      rw [subHex, if_neg (Ne.symm h.1), ih h.2]
      rfl

lemma subHex_append {letter : Char} {n skip : ℕ} {q t : PyText} (hletter : letter ≠ ' ')
    (htail : Inert tail) (hskip : skip ≤ q.length)
    (h : subHex letter n skip (q ++ tail) = some t) : ∃ q', t = q' ++ tail := by
  induction q generalizing skip t with
  | nil =>
      obtain rfl := Nat.le_zero.mp hskip
      rw [List.nil_append, subHex_of_plain htail.plain] at h
      exact ⟨[], (Option.some.inj h).symm⟩
  | cons u us ih =>
      cases skip with
      | succ skip => exact ih (Nat.le_of_succ_le_succ hskip) h
      | zero =>
          rw [List.cons_append, subHex] at h
          split_ifs at h with hback
          · cases hesc : hexEscapeAt letter n (us ++ tail) with
            | some code =>
                rw [hesc] at h
                obtain ⟨v, -, h⟩ := Option.bind_eq_some_iff.mp h
                obtain ⟨t', ht', rfl⟩ := Option.map_eq_some_iff.mp h
                obtain ⟨q', rfl⟩ := ih (hexEscapeAt_length_le hletter htail.head hesc) ht'
                exact ⟨v :: q', rfl⟩
            | none =>
                rw [hesc] at h
                obtain ⟨t', ht', rfl⟩ := Option.map_eq_some_iff.mp h
                obtain ⟨q', rfl⟩ := ih (Nat.zero_le _) ht'
                exact ⟨u :: q', rfl⟩
          · obtain ⟨t', ht', rfl⟩ := Option.map_eq_some_iff.mp h
            obtain ⟨q', rfl⟩ := ih (Nat.zero_le _) ht'
            exact ⟨u :: q', rfl⟩

lemma subSimple_cons_of_ne {u : PyChar} (h : u ≠ backslash) (cs : PyText) :
    subSimple (u :: cs) = u :: subSimple cs := by
  cases u with
  | high k => rw [subSimple]; nofun
  | low k => rw [subSimple]; nofun
  | scalar c =>
      have hc : c ≠ '\\' := fun heq => h (heq ▸ rfl)
      cases cs with
      | nil => rw [subSimple]; nofun
      | cons e cs =>
          cases e with
          | high k => rw [subSimple]; nofun
          | low k => rw [subSimple]; nofun
          | scalar e => rw [subSimple, if_neg hc]

lemma subSimple_backslash (e : Char) (cs : PyText) :
    subSimple (backslash :: .scalar e :: cs) = match unescapeTable e with
      | some u => .scalar u :: subSimple cs
      | none => backslash :: subSimple (.scalar e :: cs) := by
  rw [backslash, subSimple]
  refine (if_pos rfl).trans ?_
  cases unescapeTable e <;> rfl

lemma subSimple_of_plain {t : PyText} (h : backslash ∉ t) : subSimple t = t := by
  induction t with
  | nil => rw [subSimple]
  | cons u us ih =>
      rw [List.mem_cons, not_or] at h
      rw [subSimple_cons_of_ne (Ne.symm h.1), ih h.2]

/-- The substitution of the one-character escapes keeps the end. -/
lemma subSimple_append (htail : Inert tail) (q : PyText) :
    ∃ q', subSimple (q ++ tail) = q' ++ tail := by
  induction hlen : q.length using Nat.strong_induction_on generalizing q with
  | _ n ih =>
      have hrest : ∀ (u : PyChar) (us : PyText), us.length < n →
          ∃ q', u :: subSimple (us ++ tail) = q' ++ tail := by
        intro u us hlt
        obtain ⟨q', hq'⟩ := ih us.length hlt us rfl
        exact ⟨u :: q', by rw [hq']; rfl⟩
      match q, hlen with
      | [], _ => exact ⟨[], subSimple_of_plain htail.plain⟩
      | u :: us, hlen =>
          have hlt : us.length < n := by
            rw [← hlen, List.length_cons]
            omega
          by_cases hback : u = backslash
          · subst hback
            match us, hlt with
            | [], _ =>
                obtain ⟨cs, hcs⟩ := htail.head
                have htable : unescapeTable ' ' = none := by decide
                refine ⟨[backslash], ?_⟩
                rw [hcs, List.singleton_append, subSimple_backslash, htable, ← hcs]
                dsimp only
                rw [subSimple_of_plain htail.plain]
            | .scalar e :: us, hlt =>
                rw [List.cons_append, List.cons_append, subSimple_backslash]
                cases unescapeTable e with
                | some v => exact hrest (.scalar v) us (by rw [List.length_cons] at hlt; omega)
                | none => exact hrest backslash (.scalar e :: us) hlt
            | .high k :: us, hlt => exact hrest backslash (.high k :: us) hlt
            | .low k :: us, hlt => exact hrest backslash (.low k :: us) hlt
          · rw [List.cons_append, subSimple_cons_of_ne hback]
            exact hrest u us hlt

lemma repairSurrogates_of_scalar {t : PyText} (h : ∀ u ∈ t, ∃ c, u = .scalar c) :
    repairSurrogates t = t := by
  induction t with
  | nil => rw [repairSurrogates]
  | cons u us ih =>
      obtain ⟨c, rfl⟩ := h u List.mem_cons_self
      rw [repairSurrogates, ih fun u hu => h u (List.mem_cons_of_mem _ hu)]

lemma repairSurrogates_append (htail : Inert tail) (q : PyText) :
    ∃ q', repairSurrogates (q ++ tail) = q' ++ tail := by
  fun_induction repairSurrogates q with
  | case1 h l cs ih =>
      obtain ⟨q', hq'⟩ := ih
      refine ⟨.scalar (join h l) :: q', ?_⟩
      rw [List.cons_append, List.cons_append, repairSurrogates, hq']
      rfl
  | case2 c cs ih =>
      obtain ⟨q', hq'⟩ := ih
      exact ⟨.scalar c :: q', by rw [List.cons_append, repairSurrogates, hq']; rfl⟩
  | case3 u cs hpair hscalar ih =>
      obtain ⟨q', hq'⟩ := ih
      refine ⟨q', ?_⟩
      rw [List.cons_append, repairSurrogates, hq']
      · intro high low us hu hus
        cases cs with
        | nil =>
            obtain ⟨cs, hcs⟩ := htail.head
            rw [List.nil_append, hcs] at hus
            cases (List.cons.inj hus).1
        | cons v vs => exact hpair high low vs hu (by rw [(List.cons.inj hus).1])
      · exact hscalar
  | case4 => exact ⟨[], repairSurrogates_of_scalar htail.scalar⟩

/-- The text starts with an opening brace and has the end `tail`. -/
def Framed (tail t : PyText) : Prop := ∃ p, t = .scalar '{' :: (p ++ tail)

lemma framed_subHex {letter : Char} {n : ℕ} {t t' : PyText} (hletter : letter ≠ ' ')
    (htail : Inert tail) (ht : Framed tail t) (h : subHex letter n 0 t = some t') :
    Framed tail t' := by
  obtain ⟨p, rfl⟩ := ht
  rw [subHex, if_neg (by decide)] at h
  obtain ⟨u, hu, rfl⟩ := Option.map_eq_some_iff.mp h
  obtain ⟨p', rfl⟩ := subHex_append hletter htail (Nat.zero_le _) hu
  exact ⟨p', rfl⟩

lemma framed_subSimple {t : PyText} (htail : Inert tail) (ht : Framed tail t) :
    Framed tail (subSimple t) := by
  obtain ⟨p, rfl⟩ := ht
  obtain ⟨p', hp'⟩ := subSimple_append htail p
  exact ⟨p', by rw [subSimple_cons_of_ne (by decide), hp']⟩

lemma framed_repairSurrogates {t : PyText} (htail : Inert tail) (ht : Framed tail t) :
    Framed tail (repairSurrogates t) := by
  obtain ⟨p, rfl⟩ := ht
  obtain ⟨p', hp'⟩ := repairSurrogates_append htail p
  exact ⟨p', by rw [repairSurrogates, hp']⟩

lemma framed_regexUnescape {t t' : PyText} (htail : Inert tail) (ht : Framed tail t)
    (h : regexUnescape t = some t') : Framed tail t' := by
  obtain ⟨t₁, h₁, h⟩ := Option.bind_eq_some_iff.mp h
  obtain ⟨t₂, h₂, h⟩ := Option.bind_eq_some_iff.mp h
  obtain ⟨t₃, h₃, h⟩ := Option.bind_eq_some_iff.mp h
  have hframed := framed_subHex (by decide) htail
    (framed_subHex (by decide) htail (framed_subHex (by decide) htail ht h₁) h₂) h₃
  exact Option.some.inj h ▸ framed_subSimple htail hframed

/-- Stripping keeps a first character that is no white space. -/
lemma exists_strip_eq_cons {c : Char} (hc : isPySpace c = false) (t : PyText) :
    ∃ t', strip (.scalar c :: t) = .scalar c :: t' := by
  obtain ⟨p, hstrip, hp⟩ : ∃ p : PyChar → Bool,
      (∀ t, strip t = ((t.dropWhile p).reverse.dropWhile p).reverse) ∧
        ∀ c, p (.scalar c) = isPySpace c := ⟨_, fun _ => rfl, fun _ => rfl⟩
  have hkept : ¬p (.scalar c) = true := by
    rw [hp, hc]
    decide
  -- from the other end, at most the code points after the first are dropped
  have hdrop : ∀ l : PyText, ∃ l' : PyText,
      (l ++ [PyChar.scalar c]).dropWhile p = l' ++ [PyChar.scalar c] := by
    intro l
    induction l with
    | nil => exact ⟨[], List.dropWhile_cons_of_neg hkept⟩
    | cons u us ih =>
        by_cases hu : p u = true
        · rw [List.cons_append, List.dropWhile_cons_of_pos hu]
          exact ih
        · exact ⟨u :: us, List.dropWhile_cons_of_neg hu⟩
  obtain ⟨l', hl'⟩ := hdrop t.reverse
  refine ⟨l'.reverse, ?_⟩
  rw [hstrip, List.dropWhile_cons_of_neg hkept, List.reverse_cons, hl', List.reverse_append]
  rfl

/-- A framed text is no string literal, so a pass is the four substitutions. -/
lemma framed_unescapeOnePass {t t' : PyText} (htail : Inert tail) (ht : Framed tail t)
    (h : unescapeOnePass t = some t') : Framed tail t' := by
  obtain ⟨p, rfl⟩ := id ht
  obtain ⟨u, hu⟩ := @exists_strip_eq_cons '\x7b' (by decide) (p ++ tail)
  have hwhole : wholeString (strip (.scalar '{' :: (p ++ tail))) = none := by
    rw [hu]
    rfl
  rw [unescapeOnePass, hwhole] at h
  exact framed_regexUnescape htail ht h

lemma framed_unescapePasses {n : ℕ} {t t' : PyText} (htail : Inert tail) (ht : Framed tail t)
    (h : unescapePasses n t = some t') : Framed tail t' := by
  induction n generalizing t with
  | zero => exact Option.some.inj h ▸ ht
  | succ n ih =>
      obtain ⟨candidate, hpass, h⟩ := Option.bind_eq_some_iff.mp h
      split_ifs at h
      · exact Option.some.inj h ▸ ht
      · exact ih (framed_unescapeOnePass htail ht hpass) h

/-- **Normalisation keeps the frame.** -/
lemma framed_normalizeStoredText {t : PyText} (htail : Inert tail) (ht : Framed tail t) :
    Framed tail (normalizeStoredText t) := by
  unfold normalizeStoredText
  dsimp only
  generalize heq : (if hasLiteralEscape t then unescapePasses 8 t else some t) = normalized
  cases normalized with
  | none => exact ht
  | some t' =>
      refine framed_repairSurrogates htail ?_
      split_ifs at heq
      · exact framed_unescapePasses htail ht heq
      · exact Option.some.inj heq ▸ ht

end KeepsEnd

end Textnorm

/-! ## The precision of a replicated row -/

lemma scalar_of_mem_ofString {s : String} {u : PyChar} (hu : u ∈ ofString s) :
    ∃ c ∈ s.toList, u = .scalar c := by
  obtain ⟨c, hc, rfl⟩ := List.mem_map.mp hu
  exact ⟨c, hc, rfl⟩

lemma inert_memberTail {name : String} {lit : NumberLit} (hname : '\\' ∉ name.toList) :
    Textnorm.Inert (Json.memberTail name lit) where
  head := ⟨_, rfl⟩
  scalar u hu := by
    simp only [Json.memberTail, Json.numberTail, Json.doubleQuote, List.mem_cons,
      List.mem_append, List.not_mem_nil, or_false] at hu
    rcases hu with rfl | rfl | hu | rfl | rfl | rfl | hu | rfl
    · exact ⟨_, rfl⟩
    · exact ⟨_, rfl⟩
    · obtain ⟨c, -, rfl⟩ := scalar_of_mem_ofString hu
      exact ⟨c, rfl⟩
    · exact ⟨_, rfl⟩
    · exact ⟨_, rfl⟩
    · exact ⟨_, rfl⟩
    · obtain ⟨c, -, rfl⟩ := scalar_of_mem_ofString hu
      exact ⟨c, rfl⟩
    · exact ⟨_, rfl⟩
  plain hmem := by
    simp only [Json.memberTail, Json.numberTail, Json.doubleQuote, Textnorm.backslash,
      List.mem_cons, List.mem_append, List.not_mem_nil, or_false, PyChar.scalar.injEq,
      (by decide : '\\' ≠ ' '), (by decide : '\\' ≠ '"'), (by decide : '\\' ≠ ':'),
      (by decide : '\\' ≠ '}'), false_or] at hmem
    rcases hmem with hmem | hmem
    · obtain ⟨c, hc, heq⟩ := scalar_of_mem_ofString hmem
      exact hname (PyChar.scalar.inj heq ▸ hc)
    · exact absurd (Json.isNumberUnit_of_mem hmem) (by decide)

/-- The text of an object with at least two members ends with its last member. -/
lemma ofString_dumps_obj (m : String × Json) (ms : List (String × Json)) {name : String}
    {lit : NumberLit} (hname : name.toList.flatMap Json.escapeChar = name.toList) :
    Textnorm.Framed (Json.memberTail name lit)
      (ofString (Json.obj (m :: ms ++ [(name, .number lit)])).dumps) := by
  have hmembers : ∃ cs, Json.writeMembers (m :: ms ++ [(name, .number lit)]) =
      cs ++ ' ' :: (Json.quote name ++ ':' :: ' ' :: lit.text.toList) := by
    induction ms generalizing m with
    | nil => exact ⟨Json.quote m.1 ++ ':' :: ' ' :: Json.write m.2 ++ [','], by simp⟩
    | cons m' ms ih =>
        obtain ⟨cs, hcs⟩ := ih m'
        refine ⟨Json.quote m.1 ++ ':' :: ' ' :: Json.write m.2 ++ ',' :: ' ' :: cs, ?_⟩
        rw [List.cons_append, List.cons_append, Json.writeMembers_cons_cons, ← List.cons_append,
          hcs]
        simp
  obtain ⟨cs, hcs⟩ := hmembers
  refine ⟨ofChars cs, ?_⟩
  rw [ofString, Json.dumps, String.toList_ofList, Json.write_obj, hcs, Json.quote, hname,
    Json.memberTail, Json.numberTail, ofString, ofString, Json.doubleQuote]
  simp

/-- **The last item is read back**, if anything is. -/
theorem get?_decodedMetadata {row : StateRow} {m : String × Json} {ms : List (String × Json)}
    {name : String} {lit : NumberLit}
    (hname : name.toList.flatMap Json.escapeChar = name.toList) (hquote : '"' ∉ name.toList)
    (hback : '\\' ∉ name.toList)
    (hrow : row.metadata = some (Json.obj (m :: ms ++ [(name, .number lit)])).dumps) :
    row.decodedMetadata.get? name = none ∨
      row.decodedMetadata.get? name = some (.number lit) := by
  obtain ⟨p, hp⟩ := Textnorm.framed_normalizeStoredText (inert_memberTail hback)
    (@ofString_dumps_obj m ms name lit hname)
  rw [StateRow.decodedMetadata, hrow]
  dsimp only
  split_ifs
  · exact Or.inl rfl
  · cases hloads : Json.loads (Textnorm.normalizeStoredText
        (ofString (Json.obj (m :: ms ++ [(name, .number lit)])).dumps)) with
    | none => exact Or.inl rfl
    | some v =>
        rw [hp] at hloads
        obtain ⟨members, rfl, hnodup, hfind⟩ := Json.find_of_loads hname hquote hloads
        exact Or.inr ((PyDict.get?_ofEntries hnodup name).trans hfind)

end AtlasMemory
