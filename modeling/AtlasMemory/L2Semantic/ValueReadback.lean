import AtlasMemory.L2Semantic.KvStore
import AtlasMemory.L2Semantic.TextnormContract
import Mathlib.Data.Bool.AllAny

/-!
# Reading a value back

`set_sync` stores the JSON text of a value, and `get_sync` normalises the stored text before it
decodes it.  The normalisation cannot tell the escapes of the JSON writer from escapes that were
left in the data: it undoes both.  For a list or a dictionary this is harmless as long as only
characters beyond ASCII are escaped, or no literal escape is found at all, or undoing the escapes
raises.  As soon as a quote, a backslash or a control character stands in one of the strings, the
text loses an escape that it needs, and what is left weighs less than any text of the value.
-/

namespace AtlasMemory

open PyText Json

namespace Textnorm

/-! ## Escapes of characters that need none -/

/-- The second text is the first with some escapes of code points beyond ASCII undone. -/
inductive Decoded : PyText → PyText → Prop
  | nil : Decoded [] []
  | cons (u : PyChar) {t t' : PyText} (h : Decoded t t') : Decoded (u :: t) (u :: t')
  | undo {n : ℕ} {u : PyChar} {t t' : PyText} (hn : 127 ≤ n) (hmax : n < 65536)
    (hu : chr n = some u) (h : Decoded t t') :
    Decoded (ofChars (unicodeEscape n) ++ t) (u :: t')

lemma Decoded.append {t t' : PyText} (h : Decoded t t') (p : PyText) :
    Decoded (p ++ t) (p ++ t') := by
  induction p with
  | nil => exact h
  | cons u p ih => exact .cons u ih

/-- What an escape beyond ASCII stands for takes part in no escape. -/
lemma ne_of_chr {n : ℕ} {u : PyChar} (hn : 127 ≤ n) (hu : chr n = some u) {c : Char}
    (hc : c.toNat < 127) : u ≠ .scalar c := by
  rintro rfl
  have heq := toNat_of_chr hu
  omega

lemma hexValue_eq_none {c : Char} (hc : 127 ≤ c.toNat) : hexValue c = none := by
  have hle : ∀ a b : Char, b.toNat < 127 → ¬(a ≤ c ∧ c ≤ b) := by
    rintro a b hb ⟨-, hcb⟩
    have hnat : c.toNat ≤ b.toNat := hcb
    omega
  rw [hexValue, if_neg (hle _ _ (by decide)), if_neg (hle _ _ (by decide)),
    if_neg (hle _ _ (by decide))]

/-- No digit stands in an undone escape, so the digits of the two texts agree. -/
lemma hexPrefix_decoded {t t' : PyText} (h : Decoded t t') (n acc : ℕ) :
    hexPrefix n acc t = hexPrefix n acc t' ∧
      ∀ m, hexPrefix n acc t = some m → Decoded (t.drop n) (t'.drop n) := by
  induction n generalizing acc t t' with
  | zero => exact ⟨rfl, fun _ _ => h⟩
  | succ n ih =>
    cases h with
    | nil => exact ⟨rfl, by rintro _ ⟨⟩⟩
    | cons u h =>
      cases u with
      | high k => exact ⟨rfl, by rintro _ ⟨⟩⟩
      | low k => exact ⟨rfl, by rintro _ ⟨⟩⟩
      | scalar c =>
        rw [hexPrefix, hexPrefix]
        cases hexValue c with
        | none => exact ⟨rfl, by rintro _ ⟨⟩⟩
        | some d => exact ih h _
    | undo hn hmax hu h =>
      have hleft : ∀ us : PyText, hexPrefix (n + 1) acc (.scalar '\\' :: us) = none := fun _ => rfl
      rw [unicodeEscape, ofChars_cons, List.cons_append, hleft]
      refine ⟨?_, by rintro _ ⟨⟩⟩
      rename_i u _ _
      cases u with
      | high k => rfl
      | low k => rfl
      | scalar c =>
        rw [hexPrefix, hexValue_eq_none ((toNat_of_chr hu).symm ▸ hn)]
        rfl

lemma hexEscapeAt_decoded {t t' : PyText} (h : Decoded t t') {n : ℕ} :
    hexEscapeAt 'u' n t = hexEscapeAt 'u' n t' ∧
      ∀ m, hexEscapeAt 'u' n t = some m → Decoded (t.drop (n + 1)) (t'.drop (n + 1)) := by
  cases h with
  | nil => exact ⟨rfl, by rintro _ ⟨⟩⟩
  | cons u h =>
    cases u with
    | high k => exact ⟨rfl, by rintro _ ⟨⟩⟩
    | low k => exact ⟨rfl, by rintro _ ⟨⟩⟩
    | scalar c =>
      rw [hexEscapeAt, hexEscapeAt]
      split_ifs with hc
      · exact hexPrefix_decoded h n 0
      · exact ⟨rfl, by rintro _ ⟨⟩⟩
  | undo hn hmax hu h =>
    have hleft : ∀ us : PyText, hexEscapeAt 'u' n (.scalar '\\' :: us) = none := fun us => by
      rw [hexEscapeAt, if_neg (by decide)]
    rw [unicodeEscape, ofChars_cons, List.cons_append, hleft]
    refine ⟨?_, by rintro _ ⟨⟩⟩
    rename_i u _ _
    cases u with
    | high k => rfl
    | low k => rfl
    | scalar c =>
      have hne : c ≠ 'u' := fun heq => ne_of_chr hn hu (by decide : 'u'.toNat < 127) (heq ▸ rfl)
      rw [hexEscapeAt, if_neg hne]

/-- The escape of a number is found behind its backslash. -/
lemma hexEscapeAt_unicodeEscape {n : ℕ} (hn : n < 65536) (t : PyText) : ∃ us,
    ofChars (unicodeEscape n) ++ t = backslash :: us ∧ hexEscapeAt 'u' 4 us = some n ∧
      us.drop 5 = t := by
  have hdigits := hexPrefix_digits hn t
  refine ⟨_, rfl, ?_, rfl⟩
  exact hdigits

/-- **The first substitution** does not see the difference. -/
lemma subHex_decoded {t t' : PyText} (h : Decoded t t') :
    subHex 'u' 4 0 t = subHex 'u' 4 0 t' := by
  induction hlen : t.length using Nat.strong_induction_on generalizing t t' with
  | _ k ih =>
    cases h with
    | nil => rfl
    | @cons u t t' h =>
      rw [List.length_cons] at hlen
      rw [subHex, subHex]
      split_ifs with hu
      · obtain ⟨heq, hdrop⟩ := hexEscapeAt_decoded h (n := 4)
        rw [← heq]
        cases hesc : hexEscapeAt 'u' 4 t with
        | none =>
          dsimp only
          rw [ih t.length (by omega) h rfl]
        | some code =>
          have hshort : (t.drop 5).length < k := by
            rw [List.length_drop]
            omega
          dsimp only
          rw [subHex_drop _ _ 5 t, subHex_drop _ _ 5 t', ih _ hshort (hdrop code hesc) rfl]
      · rw [ih t.length (by omega) h rfl]
    | @undo n u t t' hn hmax hu h =>
      obtain ⟨us, hus, hesc, hrest⟩ := hexEscapeAt_unicodeEscape hmax t
      have hlt : t.length < k := by
        rw [← hlen, List.length_append, unicodeEscape]
        simp only [ofChars, List.length_map, List.length_cons]
        omega
      have hne : u ≠ backslash := ne_of_chr hn hu (by decide)
      rw [hus, subHex, if_pos rfl, hesc, subHex, if_neg hne]
      dsimp only
      rw [hu, Option.bind_some, subHex_drop, hrest, ih t.length hlt h rfl]

/-! ## The stored text and the least text -/

lemma decoded_char (c : Char) {t t' : PyText} (h : Decoded t t') :
    Decoded (ofChars (escapeChar c) ++ t) (leastChar c ++ t') := by
  by_cases hc : MustEscape c
  · rw [leastChar, if_pos hc]
    exact h.append _
  · rw [leastChar, if_neg hc, escapeChar_of_not hc]
    split_ifs with hascii hplane hplane
    · exact h.append [.scalar c]
    · omega
    · exact .undo (by omega) hplane chr_toNat h
    · obtain ⟨hhigh, hlow, -⟩ := chr_surrogates (not_lt.mp hplane)
      rw [ofChars_append, List.append_assoc]
      exact .undo (by omega) (by omega) hhigh (.undo (by omega) (by omega) hlow h)

lemma decoded_body (s : String) {t t' : PyText} (h : Decoded t t') :
    Decoded (escapedBody s ++ t) (leastBody s ++ t') := by
  rw [escapedBody, leastBody]
  induction s.toList with
  | nil => exact h
  | cons c cs ih =>
    rw [List.flatMap_cons, List.flatMap_cons, ofChars_append, List.append_assoc, List.append_assoc]
    exact decoded_char c ih

/-- The stored text of a value, with the escapes beyond ASCII undone, is its least text. -/
lemma decoded_dumps (v : Json) : Decoded (ofString v.dumps) (leastText v) := by
  have htext := related_writeWith (P := fun _ => True) (fun c _ _ _ h => Decoded.cons (.scalar c) h)
    (fun s _ _ _ h => decoded_body s h) v
    (@ForallStrings.of_infix _ leastBody v fun _ _ => trivial) [] [] .nil
  rw [ofString_dumps, leastText]
  simpa using htext

lemma regexUnescape_dumps (v : Json) :
    regexUnescape (ofString v.dumps) = regexUnescape (leastText v) := by
  unfold regexUnescape
  rw [subHex_decoded (decoded_dumps v)]

lemma escapeChar_of_mustEscape {c : Char} (hc : MustEscape c) :
    (∃ e, escapeChar c = ['\\', e] ∧ (unescapeTable e).isSome) ∨
      escapeChar c = unicodeEscape c.toNat ∧ c.toNat < 65536 := by
  have hctl : c = '"' ∨ c = '\\' ∨ c.toNat < 32 := hc
  unfold escapeChar
  split_ifs with h₁ h₂ h₃ h₄ h₅ h₆ h₇ h₈ h₉
  · exact Or.inl ⟨_, rfl, rfl⟩
  · exact Or.inl ⟨_, rfl, rfl⟩
  · exact Or.inl ⟨_, rfl, rfl⟩
  · exact Or.inl ⟨_, rfl, rfl⟩
  · exact Or.inl ⟨_, rfl, rfl⟩
  · exact Or.inl ⟨_, rfl, rfl⟩
  · exact Or.inl ⟨_, rfl, rfl⟩
  · rcases hctl with hquote | hback | hlt
    · exact absurd hquote h₁
    · exact absurd hback h₂
    · omega
  · exact Or.inr ⟨rfl, h₉⟩
  · rcases hctl with hquote | hback | hlt
    · exact absurd hquote h₁
    · exact absurd hback h₂
    · omega

/-- The substitutions keep the least text of a value only if nothing in it must be escaped. -/
lemma unescaped_of_kept {v : Json} (h : regexUnescape (leastText v) = some (leastText v)) :
    ForallStrings Unescaped v := by
  obtain ⟨hunicode, -, -, hsimple⟩ := kept_of_regexUnescape h
  have hnoneU := (subHex_lightens (weighsEscapes_one.hex 'u' (by decide)) hunicode).2 rfl
  have hnoneSimple := (@subSimple_lightens (fun _ => 1) weighsEscapes_one.simple _).2 hsimple
  refine @ForallStrings.of_infix Unescaped leastBody v fun s hs c hc hmust => ?_
  have hchar : ofChars (escapeChar c) <:+: leastText v := by
    obtain ⟨before, after, heq⟩ := List.append_of_mem hc
    refine List.IsInfix.trans ⟨before.flatMap leastChar, after.flatMap leastChar, ?_⟩ hs
    rw [leastBody, heq, List.flatMap_append, List.flatMap_cons, leastChar, if_pos hmust,
      List.append_assoc]
  obtain ⟨p, tail, heq⟩ := hchar
  have hsuffix : ofChars (escapeChar c) ++ tail <:+ leastText v :=
    ⟨p, by rw [← heq, List.append_assoc]⟩
  rcases escapeChar_of_mustEscape hmust with ⟨e, hesc, htable⟩ | ⟨hesc, hplane⟩
  · rw [hesc] at hsuffix
    rw [hnoneSimple e tail hsuffix] at htable
    cases htable
  · obtain ⟨us, hus, hcode, -⟩ := hexEscapeAt_unicodeEscape hplane tail
    rw [hesc, hus] at hsuffix
    rw [hnoneU us hsuffix] at hcode
    cases hcode

/-- Where nothing must be escaped, the least text has no backslash. -/
lemma backslash_notMem_leastText {v : Json} (hv : ForallStrings Unescaped v) :
    backslash ∉ leastText v := by
  have hbody : ∀ s, Unescaped s → backslash ∉ leastBody s := by
    intro s hs hmem
    obtain ⟨c, hc, hchar⟩ := List.mem_flatMap.mp hmem
    have hnot := hs c hc
    rw [leastChar, if_neg hnot] at hchar
    split_ifs at hchar with hplane
    · rw [List.mem_singleton] at hchar
      exact hnot (Or.inr (Or.inl (PyChar.scalar.inj hchar).symm))
    · simp [backslash] at hchar
  have htext := @related_writeWith (fun t _ => backslash ∉ t) Unescaped leastBody leastBody
    (fun c t _ hc ht => by
      rw [List.mem_cons, not_or]
      exact ⟨fun heq => hc (PyChar.scalar.inj heq).symm, ht⟩)
    (fun s hs t _ ht => by
      rw [List.mem_append, not_or]
      exact ⟨hbody s hs, ht⟩) v hv [] [] List.not_mem_nil
  rw [leastText]
  simpa using htext

/-- Where nothing must be escaped, the repair joins the pairs of the least text. -/
lemma repair_leastText {v : Json} (hv : ForallStrings Unescaped v) :
    repairSurrogates (leastText v) = writeWith ofString v := by
  have hchar : ∀ c, ¬MustEscape c → ∀ t t', repairSurrogates t = t' →
      repairSurrogates (leastChar c ++ t) = .scalar c :: t' := by
    rintro c hc t t' rfl
    rw [leastChar, if_neg hc]
    split_ifs with hplane
    · rfl
    · obtain ⟨-, -, hjoin⟩ := chr_surrogates (not_lt.mp hplane)
      show PyChar.scalar (join _ _) :: repairSurrogates t = _
      rw [hjoin]
  have hbody : ∀ s, Unescaped s → ∀ t t', repairSurrogates t = t' →
      repairSurrogates (leastBody s ++ t) = ofString s ++ t' := by
    intro s hs t t' ht
    rw [Unescaped] at hs
    rw [leastBody, ofString]
    revert hs
    induction s.toList with
    | nil => exact fun _ => ht
    | cons c cs ih =>
      intro hs
      rw [List.flatMap_cons, List.append_assoc]
      exact hchar c (hs c List.mem_cons_self) _ _ (ih fun d hd => hs d (List.mem_cons_of_mem _ hd))
  have htext := related_writeWith (R := fun t t' => repairSurrogates t = t')
    (fun c t t' _ ht => by rw [repairSurrogates, ht]) hbody v hv [] [] rfl
  rw [leastText]
  simpa using htext

/-! ## Texts with brackets -/

/-- The text starts with an opening bracket or brace. -/
def Opened (t : PyText) : Prop := ∃ c cs, (c = '[' ∨ c = '\x7b') ∧ t = .scalar c :: cs

lemma opened_subHex {letter : Char} {n : ℕ} {t u : PyText} (ht : Opened t)
    (h : subHex letter n 0 t = some u) : Opened u := by
  obtain ⟨c, cs, hc, rfl⟩ := ht
  have hne : PyChar.scalar c ≠ backslash := by
    rcases hc with rfl | rfl <;> decide
  rw [subHex, if_neg hne] at h
  obtain ⟨v, -, rfl⟩ := Option.map_eq_some_iff.mp h
  exact ⟨c, v, hc, rfl⟩

lemma opened_regexUnescape {t u : PyText} (ht : Opened t) (h : regexUnescape t = some u) :
    Opened u := by
  obtain ⟨t₁, h₁, h⟩ := Option.bind_eq_some_iff.mp h
  obtain ⟨t₂, h₂, h⟩ := Option.bind_eq_some_iff.mp h
  obtain ⟨t₃, h₃, h⟩ := Option.bind_eq_some_iff.mp h
  obtain rfl := Option.some.inj h
  obtain ⟨c, cs, hc, rfl⟩ := opened_subHex (opened_subHex (opened_subHex ht h₁) h₂) h₃
  have hne : PyChar.scalar c ≠ backslash := by
    rcases hc with rfl | rfl <;> decide
  exact ⟨c, subSimple cs, hc, subSimple_cons_of_ne hne cs⟩

/-- Such a text is no string literal, so a pass is the four substitutions. -/
lemma unescapeOnePass_of_opened {t : PyText} (ht : Opened t) :
    unescapeOnePass t = regexUnescape t := by
  obtain ⟨c, cs, hc, rfl⟩ := ht
  have hspace : isPySpace c = false := by
    rcases hc with rfl | rfl <;> decide
  obtain ⟨t', ht'⟩ := exists_strip_eq_cons hspace cs
  have hwhole : wholeString (strip (.scalar c :: cs)) = none := by
    rw [ht']
    rcases hc with rfl | rfl <;> rfl
  rw [unescapeOnePass, hwhole]

lemma weighsEscapes_mark : WeighsEscapes mark where
  hex letter hletter u := by
    have hone := mark_le_one u
    have hmark : mark backslash + mark (.scalar letter) = 2 := by
      simp only [List.mem_cons, List.not_mem_nil, or_false] at hletter
      rcases hletter with rfl | rfl | rfl <;> decide
    omega
  simple e u h := by
    unfold unescapeTable at h
    split_ifs at h <;> obtain rfl := Option.some.inj h <;> subst e <;> decide

lemma weigh_unescapePasses_le {n : ℕ} {t u : PyText} (ht : Opened t)
    (h : unescapePasses n t = some u) : weigh mark u ≤ weigh mark t := by
  induction n generalizing t with
  | zero =>
    obtain rfl := Option.some.inj h
    exact le_rfl
  | succ n ih =>
    obtain ⟨candidate, hpass, h⟩ := Option.bind_eq_some_iff.mp h
    split_ifs at h with heq
    · obtain rfl := Option.some.inj h
      exact le_rfl
    · rw [unescapeOnePass_of_opened ht] at hpass
      exact (ih (opened_regexUnescape ht hpass) h).trans
        (regexUnescape_lightens weighsEscapes_mark hpass).le

lemma weigh_repair_le (t : PyText) : weigh mark (repairSurrogates t) ≤ weigh mark t := by
  fun_induction repairSurrogates t with
  | case1 h l cs ih =>
    have hjoin := toNat_join h l
    have hzero : mark (.scalar (join h l)) = 0 := mark_of_le_toNat (by omega)
    simp only [weigh_cons, hzero]
    omega
  | case2 c cs ih =>
    simp only [weigh_cons]
    omega
  | case3 u cs _ _ ih =>
    rw [weigh_cons]
    omega
  | case4 => exact le_rfl

/-! ## What comes back -/

/-- The normalisation raises nothing of the value away: no escape is found in its stored text, or
undoing the escapes raises, or what is undone was not needed. -/
def Harmless (v : Json) : Prop :=
  hasLiteralEscape (ofString v.dumps) = false ∨ (∀ u, ¬Undoes 8 (ofString v.dumps) u) ∨
    ForallStrings Unescaped v

/-- **A list or a dictionary** survives exactly if the normalisation is harmless. -/
lemma loads_normalize_iff {v : Json} (hv : v.Distinct) (ht : Opened (ofString v.dumps)) :
    loads (normalizeStoredText (ofString v.dumps)) = some v ↔ Harmless v := by
  have hfree : SurrogateFree (ofString v.dumps) := by
    intro u hu
    obtain ⟨c, -, rfl⟩ := scalar_of_mem_ofString hu
    exact ⟨c, rfl⟩
  cases hescape : hasLiteralEscape (ofString v.dumps) with
  | false =>
    rw [normalize_of_plain hescape, repair_of_surrogateFree hfree, loads_dumps hv]
    exact iff_of_true rfl (Or.inl hescape)
  | true =>
    by_cases hraises : ∀ u, ¬Undoes 8 (ofString v.dumps) u
    · rw [normalize_of_raises hescape hraises, loads_dumps hv]
      exact iff_of_true rfl (Or.inr (Or.inl hraises))
    push Not at hraises
    obtain ⟨u, hu⟩ := hraises
    rw [normalize_of_undoes hescape hu]
    -- the first pass turns the stored text and the least text into the same text
    obtain ⟨first, hfirst, hrest⟩ := Option.bind_eq_some_iff.mp
      (unescapePasses_eq_some_iff.mpr hu)
    have hkept := (unescapeOnePass_shortens hfirst).2
    rw [if_neg fun heq => by rw [hkept heq] at hescape; cases hescape] at hrest
    rw [unescapeOnePass_of_opened ht] at hfirst
    have hopened := opened_regexUnescape ht hfirst
    have hle := weigh_unescapePasses_le hopened hrest
    rw [regexUnescape_dumps] at hfirst
    constructor
    · intro hloads
      refine Or.inr (Or.inr (unescaped_of_kept ?_))
      rcases regexUnescape_lightens weighsEscapes_mark hfirst with rfl | hlt
      · exact hfirst
      · -- what is left is too light to be a text of the value
        have hleast := weigh_leastText_le hloads
        have hrepair := weigh_repair_le u
        omega
    · rintro (hplain | hraises | hunescaped)
      · rw [hplain] at hescape
        cases hescape
      · exact absurd hu (hraises u)
      · have hplain := backslash_notMem_leastText hunescaped
        have hkeeps : regexUnescape (leastText v) = some (leastText v) := by
          simp only [regexUnescape, subHex_of_plain hplain, subSimple_of_plain hplain,
            Option.bind_eq_bind, Option.bind_some, Option.pure_def]
        obtain rfl : leastText v = first := Option.some.inj (hkeeps.symm.trans hfirst)
        have hpass : unescapePasses 7 (leastText v) = some (leastText v) := by
          rw [unescapePasses, unescapeOnePass_of_opened hopened, hkeeps]
          exact if_pos rfl
        obtain rfl : leastText v = u := Option.some.inj (hpass.symm.trans hrest)
        rw [repair_leastText hunescaped, loads_writeWith, canonical_of_distinct v hv]
        exact ForallStrings.imp (fun _ => readBack_ofString) v hunescaped

/-! ## A string that comes back -/

/-- The normalisation gives a string back: no escape is found in its literal, or undoing its escapes
raises, or it has no escapes of its own and is no JSON text itself. -/
def Restored (s : String) : Prop :=
  hasLiteralEscape (ofString (Json.str s).dumps) = false ∨ (∀ u, ¬Undoes 7 (ofString s) u) ∨
    (unescapeOnePass (ofString s) = some (ofString s) ∧ loads (ofString s) = none)

lemma surrogateFree_ofString (s : String) : SurrogateFree (ofString s) := by
  intro u hu
  obtain ⟨c, -, rfl⟩ := scalar_of_mem_ofString hu
  exact ⟨c, rfl⟩

lemma length_ofString_toText (t : PyText) : (ofString (toText t)).length = t.length := by
  simp [ofString, toText, ofChars]

lemma length_normalize_le (t : PyText) : (normalizeStoredText t).length ≤ t.length := by
  unfold normalizeStoredText
  dsimp only
  split
  · rename_i t' heq
    refine (repair_length_le t').trans ?_
    split_ifs at heq
    · exact (unescapePasses_shortens heq).1.le
    · rw [Option.some.inj heq]
  · exact le_rfl

lemma unescapeOnePass_of_undoes {n : ℕ} {t : PyText} (h : Undoes (n + 1) t t) :
    unescapeOnePass t = some t := by
  cases h with
  | settled h => exact h
  | layer h hne hrest =>
    have hshort := (unescapeOnePass_shortens h).1
    have hback := (unescapePasses_shortens (unescapePasses_eq_some_iff.mpr hrest)).1
    exact absurd (hshort.eq_of_cycle hback) hne

lemma ofString_dumps_str (s : String) :
    ofString (Json.str s).dumps = .scalar '"' :: (escapedBody s ++ [.scalar '"']) := by
  rw [ofString_dumps]
  rfl

lemma stripList_framed {α : Type*} {p : α → Bool} {a : α} (ha : ¬p a = true) (m : List α) :
    stripList p (a :: (m ++ [a])) = a :: (m ++ [a]) := by
  rw [stripList, List.dropWhile_cons_of_neg ha, List.reverse_cons, List.reverse_append,
    List.reverse_singleton, List.singleton_append, List.cons_append,
    List.dropWhile_cons_of_neg ha]
  simp

lemma wholeString_dumps (s : String) :
    wholeString (strip (ofString (Json.str s).dumps)) = some (ofString s) := by
  rw [ofString_dumps_str, strip, stripList_framed (by decide), wholeString, escapedBody,
    scanString_quote]
  rfl

lemma length_lt_dumps (s : String) : (ofString s).length < (ofString (Json.str s).dumps).length :=
  (wholeString_length (wholeString_dumps s)).trans_le (length_strip_le _)

/-- A backslash in the string is an escape in its literal. -/
lemma backslash_notMem_of_plain {s : String}
    (h : hasLiteralEscape (ofString (Json.str s).dumps) = false) : backslash ∉ ofString s := by
  intro hmem
  obtain ⟨c, hc, heq⟩ := scalar_of_mem_ofString hmem
  obtain rfl : '\\' = c := PyChar.scalar.inj heq
  obtain ⟨before, after, hs⟩ := List.append_of_mem hc
  have htail : backslash :: backslash :: (ofChars (after.flatMap escapeChar) ++ [.scalar '"']) <:+
      ofString (Json.str s).dumps := by
    have hesc : escapeChar '\\' = ['\\', '\\'] := by decide
    refine ⟨.scalar '"' :: ofChars (before.flatMap escapeChar), ?_⟩
    rw [ofString_dumps_str, escapedBody, hs, List.flatMap_append, List.flatMap_cons, hesc]
    simp [backslash]
  have hfound : hasLiteralEscape (ofString (Json.str s).dumps) = true :=
    List.any_eq_true.mpr ⟨_, (List.mem_tails _ _).mpr htail, by simp [literalEscapeAt, backslash,
      unescapeTable]⟩
  rw [h] at hfound
  cases hfound

lemma hasLiteralEscape_of_plain {t : PyText} (h : backslash ∉ t) : hasLiteralEscape t = false := by
  rw [← Bool.not_eq_true]
  intro hescape
  obtain ⟨tail, htail, hat⟩ := List.any_eq_true.mp hescape
  cases tail with
  | nil => cases hat
  | cons u us =>
    obtain ⟨rfl, -⟩ := literalEscapeAt_spec hat
    exact h (((List.mem_tails _ _).mp htail).subset List.mem_cons_self)

lemma exists_undoes_of_succ {n : ℕ} {t u : PyText} (h : Undoes (n + 1) t u) :
    ∃ u', Undoes n t u' := by
  induction n generalizing t with
  | zero => exact ⟨t, .spent t⟩
  | succ n ih =>
    cases h with
    | settled h => exact ⟨_, .settled h⟩
    | layer h hne hrest =>
      obtain ⟨u', hu'⟩ := ih hrest
      exact ⟨u', .layer h hne hu'⟩

end Textnorm

namespace StateRow

open Textnorm

lemma loads_of_loadsString {t s : PyText} (h : loadsString t = some s) :
    loads t = some (.str (toText s)) ∧ s.length < t.length := by
  unfold loadsString at h
  split at h
  · rename_i cs hskip
    obtain ⟨⟨k, rest⟩, hscan, h⟩ := Option.bind_eq_some_iff.mp h
    split_ifs at h with hend
    obtain rfl := Option.some.inj h
    refine ⟨?_, ?_⟩
    · rw [loads, hskip, parseValue, hscan]
      exact if_pos hend
    · have hle : (skipSpace t).length ≤ t.length := (skipSpace_suffix t).length_le
      obtain ⟨r, hunits, hk⟩ := Option.map_eq_some_iff.mp hscan
      obtain ⟨rfl, -⟩ := Prod.mk.inj hk
      have hlt := scanUnits_length hunits
      have hjoin := joinUnits_length r.1
      rw [hskip, List.length_cons] at hle
      show (joinUnits r.1).length < _
      omega
  · cases h

lemma exists_loadsString {t : PyText} {x : String} (h : loads t = some (.str x)) :
    ∃ s, loadsString t = some s := by
  unfold loads at h
  split at h
  · rename_i v rest hparse
    split_ifs at h with hend
    obtain rfl := Option.some.inj h
    unfold parseValue at hparse
    split at hparse
    · rename_i cs hskip
      obtain ⟨⟨k, rest'⟩, hscan, hpair⟩ := Option.map_eq_some_iff.mp hparse
      obtain ⟨-, rfl⟩ := Prod.mk.inj hpair
      refine ⟨k, ?_⟩
      rw [loadsString, hskip]
      simp [hscan, hend]
    · split at hparse
      · cases hparse
      · obtain ⟨r, -, hpair⟩ := Option.map_eq_some_iff.mp hparse
        cases hpair
    · split at hparse
      · cases hparse
      · obtain ⟨r, -, hpair⟩ := Option.map_eq_some_iff.mp hparse
        cases hpair
    · rcases eq_of_scanScalar hparse with ⟨word, hmem, -⟩ | ⟨lit, hlit, -⟩
      · simp [keywords] at hmem
      · cases hlit
  · cases h

/-- A value other than a string is decoded exactly if it is what the normalised text reads as. -/
lemma decodedValue_eq_iff {row : StateRow} {v : Json} (hv : ∀ s, v ≠ .str s) :
    row.decodedValue = v ↔ loads (normalizeStoredText (ofString row.value)) = some v := by
  unfold decodedValue
  dsimp only
  cases hstr : loadsString (normalizeStoredText (ofString row.value)) with
  | some s =>
    rw [(loads_of_loadsString hstr).1]
    constructor
    · exact fun h => absurd h.symm (hv _)
    · exact fun h => absurd (Option.some.inj h).symm (hv _)
  | none =>
    cases loads (normalizeStoredText (ofString row.value)) with
    | some w => simp
    | none =>
      constructor
      · exact fun h => absurd h.symm (hv _)
      · nofun

lemma loadsString_dumps (s : String) :
    loadsString (ofString (Json.str s).dumps) = some (ofString s) := by
  rw [ofString_dumps_str, loadsString, skipSpace_cons (by decide), escapedBody]
  show (scanString _).bind _ = _
  rw [scanString_quote]
  rfl

/-- **A string** is decoded from its literal exactly if the normalisation gives it back. -/
lemma decodedValue_str_iff {row : StateRow} {s : String} (hrow : row.value = (Json.str s).dumps) :
    row.decodedValue = .str s ↔ Restored s := by
  have hfree := surrogateFree_ofString s
  have hlit := loadsString_dumps s
  have hkept : normalizeStoredText (ofString (Json.str s).dumps) = ofString (Json.str s).dumps →
      normalizeStoredText (ofString s) = ofString s → row.decodedValue = .str s := by
    intro hlit' hs
    rw [decodedValue, hrow, hlit', hlit]
    dsimp only
    rw [hs, toText_ofString]
  cases hescape : hasLiteralEscape (ofString (Json.str s).dumps) with
  | false =>
    have hplain := hasLiteralEscape_of_plain (backslash_notMem_of_plain hescape)
    refine iff_of_true (hkept ?_ ?_) (Or.inl hescape)
    · rw [normalize_of_plain hescape, repair_of_surrogateFree (surrogateFree_ofString _)]
    · rw [normalize_of_plain hplain, repair_of_surrogateFree hfree]
  | true =>
    have hfirst : unescapeOnePass (ofString (Json.str s).dumps) = some (ofString s) := by
      rw [unescapeOnePass, wholeString_dumps]
    have hne : ofString s ≠ ofString (Json.str s).dumps := by
      intro heq
      have hlt := length_lt_dumps s
      rw [← heq] at hlt
      exact lt_irrefl _ hlt
    by_cases hraises : ∀ u, ¬Undoes 7 (ofString s) u
    · refine iff_of_true (hkept (normalize_of_raises hescape fun u hu => ?_) ?_)
        (Or.inr (Or.inl hraises))
      · cases hu with
        | settled h => exact hne (Option.some.inj (hfirst.symm.trans h))
        | layer h _ hrest =>
          obtain rfl := Option.some.inj (hfirst.symm.trans h)
          exact hraises u hrest
      · refine (normalize_eq_self_iff hfree).mpr (Or.inr fun u hu => ?_)
        obtain ⟨u', hu'⟩ := exists_undoes_of_succ hu
        exact hraises u' hu'
    push Not at hraises
    obtain ⟨u, hu⟩ := hraises
    have hnorm := normalize_of_undoes hescape (.layer hfirst hne hu)
    have hshort := (unescapePasses_shortens (unescapePasses_eq_some_iff.mpr hu)).1
    have hrepair := repair_length_le u
    constructor
    · intro hvalue
      -- a string that is decoded or normalised further is shorter, unless the text stays as it is
      have htext : toText (normalizeStoredText (repairSurrogates u)) = s ∧
          loads (repairSurrogates u) = none := by
        rw [decodedValue, hrow, hnorm] at hvalue
        cases hstr : loadsString (repairSurrogates u) with
        | some s' =>
          rw [hstr] at hvalue
          dsimp only at hvalue
          have hlt := (loads_of_loadsString hstr).2
          have hle := length_normalize_le s'
          have hlen := length_ofString_toText (normalizeStoredText s')
          rw [Json.str.inj hvalue] at hlen
          have hpasses := hshort.le
          omega
        | none =>
          rw [hstr] at hvalue
          dsimp only at hvalue
          cases hloads : loads (repairSurrogates u) with
          | some w =>
            rw [hloads] at hvalue
            obtain rfl : w = .str s := hvalue
            obtain ⟨s', hs'⟩ := exists_loadsString hloads
            rw [hstr] at hs'
            cases hs'
          | none =>
            rw [hloads] at hvalue
            exact ⟨Json.str.inj hvalue, rfl⟩
      obtain ⟨hback, hloads⟩ := htext
      have hlen := length_ofString_toText (normalizeStoredText (repairSurrogates u))
      rw [hback] at hlen
      have hle := length_normalize_le (repairSurrogates u)
      rcases hshort with rfl | hlt
      · rw [repair_of_surrogateFree hfree] at hloads
        exact Or.inr (Or.inr ⟨unescapeOnePass_of_undoes hu, hloads⟩)
      · omega
    · rintro (hplain | hraises | ⟨hpass, hloads⟩)
      · rw [hplain] at hescape
        cases hescape
      · exact absurd hu (hraises u)
      · have hpasses : unescapePasses 7 (ofString s) = some (ofString s) := by
          rw [unescapePasses, hpass]
          exact if_pos rfl
        obtain rfl : ofString s = u :=
          Option.some.inj (hpasses.symm.trans (unescapePasses_eq_some_iff.mpr hu))
        rw [repair_of_surrogateFree hfree] at hnorm
        have hnone : loadsString (ofString s) = none := by
          cases hstr : loadsString (ofString s) with
          | none => rfl
          | some s' =>
            rw [(loads_of_loadsString hstr).1] at hloads
            cases hloads
        have hplain := (unescapeOnePass_shortens hpass).2 rfl
        rw [decodedValue, hrow, hnorm, hnone, hloads, normalize_of_plain hplain,
          repair_of_surrogateFree hfree]
        simp

end StateRow

/-! ## The round trip -/

open Textnorm in
/-- The condition under which a value comes back from the store. -/
def ReadsBack : Json → Prop
  | .str s => Restored s
  | v => Harmless v

lemma backslash_notMem_dumps (n : NumberLit) :
    Textnorm.backslash ∉ ofString (Json.number n).dumps := by
  intro hmem
  obtain ⟨c, hc, heq⟩ := scalar_of_mem_ofString hmem
  obtain rfl : '\\' = c := PyChar.scalar.inj heq
  rw [dumps, String.toList_ofList] at hc
  exact backslash_notMem_number n hc

open Textnorm in
/-- The stored text of a value is decoded to the value exactly if it reads back. -/
lemma StateRow.decodedValue_dumps_iff {row : StateRow} {v : Json} (hv : v.Distinct)
    (hrow : row.value = v.dumps) : row.decodedValue = v ↔ ReadsBack v := by
  have hreads : (∀ s, v ≠ .str s) → (ReadsBack v ↔ Harmless v) := by
    intro hstr
    unfold ReadsBack
    split
    · exact absurd rfl (hstr _)
    · exact Iff.rfl
  have hscalar : (∀ s, v ≠ .str s) → Textnorm.backslash ∉ ofString v.dumps →
      (row.decodedValue = v ↔ ReadsBack v) := by
    intro hstr hback
    have hplain := hasLiteralEscape_of_plain hback
    rw [hreads hstr, decodedValue_eq_iff hstr, hrow, normalize_of_plain hplain,
      repair_of_surrogateFree (surrogateFree_ofString _), loads_dumps hv]
    exact iff_of_true rfl (Or.inl hplain)
  have hopened : (∀ s, v ≠ .str s) → Opened (ofString v.dumps) →
      (row.decodedValue = v ↔ ReadsBack v) := by
    intro hstr hopen
    rw [hreads hstr, decodedValue_eq_iff hstr, hrow]
    exact loads_normalize_iff hv hopen
  cases v with
  | null => exact hscalar nofun (by decide)
  | bool b => cases b <;> exact hscalar nofun (by decide)
  | number n => exact hscalar nofun (backslash_notMem_dumps n)
  | notANumber => exact hscalar nofun (by decide)
  | infinity => exact hscalar nofun (by decide)
  | negInfinity => exact hscalar nofun (by decide)
  | str s => exact decodedValue_str_iff hrow
  | arr items => exact hopened nofun ⟨_, _, Or.inl rfl, ofString_dumps _⟩
  | obj members => exact hopened nofun ⟨_, _, Or.inr rfl, ofString_dumps _⟩

namespace Db

/-- `get_sync(key)['value']`. -/
def getValue (db : Db) (key : String) : Option Json :=
  (db.stateVariables.lookup key).map fun e => e.2.decodedValue

/-- What is read is decoded from the text that was written. -/
lemma getValue_setSync (rt : Runtime) (db : Db) (a : SetArgs) (now : ℚ) :
    ∃ row : StateRow, row.value = a.value.dumps ∧
      (db.setSync rt a now).1.getValue a.key = some row.decodedValue := by
  refine ⟨⟨a.value.dumps, PyFloat.clampUnit a.confidence, .finite now,
    some (Json.obj (a.storedMetadata rt now).entries).dumps,
    some (rt.hexdigest a.value.dumps)⟩, rfl, ?_⟩
  rw [getValue, stateVariables_setSync, StateTable.lookup, StateTable.get?_setState_self]
  rfl

/-- **The round trip of the store**: what `set_sync` has stored under a key, `get_sync` gives back
exactly if the value reads back. -/
theorem getValue_setSync_iff (rt : Runtime) (db : Db) {a : SetArgs} (ha : a.value.Distinct)
    (now : ℚ) : (db.setSync rt a now).1.getValue a.key = some a.value ↔ ReadsBack a.value := by
  obtain ⟨row, hrow, hread⟩ := getValue_setSync rt db a now
  rw [hread, Option.some.injEq]
  exact StateRow.decodedValue_dumps_iff ha hrow

/-- A list whose string has no character to escape comes back. -/
theorem getValue_setSync_polish :
    ((empty.setSync Runtime.sample
      (SetArgs.mk "profile" (.arr [.str "łódź"]) (some (.finite 1)) none "update" none) 0).1.getValue
        "profile") = some (.arr [.str "łódź"]) := by
  refine (getValue_setSync_iff Runtime.sample empty ?_ 0).mpr (Or.inr (Or.inr ⟨?_, trivial⟩))
  · exact ⟨trivial, trivial⟩
  · show ∀ c ∈ ['ł', 'ó', 'd', 'ź'], ¬MustEscape c
    exact List.all_iff_forall_prop.mp (by decide)

/-- **A line break in a list** is undone before the list is decoded: the write succeeds, and a text
comes back. -/
theorem list_comes_back_as_text : ∃ hash,
    (empty.setSync Runtime.sample
      (SetArgs.mk "notes" (.arr [.str "\n"]) (some (.finite 1)) none "update" none) 0).2 = .ok hash ∧
    (empty.setSync Runtime.sample
      (SetArgs.mk "notes" (.arr [.str "\n"]) (some (.finite 1)) none "update" none) 0).1.getValue
        "notes" ≠ some (.arr [.str "\n"]) := by
  refine ⟨_, rfl, fun hback => ?_⟩
  obtain ⟨row, hrow, hread⟩ := getValue_setSync Runtime.sample empty
    (SetArgs.mk "notes" (.arr [.str "\n"]) (some (.finite 1)) none "update" none) 0
  have hvalue : row.decodedValue = .arr [.str "\n"] := Option.some.inj (hread.symm.trans hback)
  have hdistinct : (Json.arr [.str "\n"]).Distinct := ⟨trivial, trivial⟩
  rcases (StateRow.decodedValue_dumps_iff hdistinct hrow).mp hvalue with
    hplain | hraises | ⟨hunescaped, -⟩
  · exact absurd hplain (by decide)
  · have hpasses : (Textnorm.unescapePasses 8
        (ofString (Json.arr [.str "\n"]).dumps)).isSome = true := by decide
    obtain ⟨u, hu⟩ := Option.isSome_iff_exists.mp hpasses
    exact hraises u (Textnorm.unescapePasses_eq_some_iff.mp hu)
  · exact hunescaped '\n' (by decide) (by decide)

end Db

end AtlasMemory
