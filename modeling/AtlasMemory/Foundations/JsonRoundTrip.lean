import AtlasMemory.Foundations.JsonParse

/-!
# Reading what was written

`loads_dumps`: the reader gives back every value that the writer wrote, if the names in its objects
are distinct.  The proof follows the writer: one lemma for a character of a string literal, one for
numbers, and a mutual induction over values, items and members, in which the fuel is bounded by the
length of the text.  The induction is about any writer whose string literals are read back, so that a
text with other literals than those of the standard writer is read in the same way.
-/

namespace Json

open PyText

/-! ## String literals -/

lemma hexValue_hexDigit : ∀ d < 16, hexValue (hexDigit d) = some d := by decide

lemma scanUnits_quote (t : PyText) : scanUnits (.scalar '"' :: t) = some ([], t) := by
  unfold scanUnits
  rfl

lemma scanUnits_plain {c : Char} (hquote : c ≠ '"') (hback : c ≠ '\\') (hc : 32 ≤ c.toNat)
    (t : PyText) :
    scanUnits (.scalar c :: t) = (scanUnits t).map fun r => ((.scalar c, false) :: r.1, r.2) := by
  conv_lhs => unfold scanUnits
  rw [if_neg hquote, if_neg hback, if_neg (by omega)]

lemma hexPrefix_digits {n : ℕ} (hn : n < 65536) (t : PyText) :
    hexPrefix 4 0 (ofChars [hexDigit (n / 4096 % 16), hexDigit (n / 256 % 16),
      hexDigit (n / 16 % 16), hexDigit (n % 16)] ++ t) = some n := by
  have h₁ := hexValue_hexDigit (n / 4096 % 16) (by omega)
  have h₂ := hexValue_hexDigit (n / 256 % 16) (by omega)
  have h₃ := hexValue_hexDigit (n / 16 % 16) (by omega)
  have h₄ := hexValue_hexDigit (n % 16) (by omega)
  simp only [ofChars, List.map_cons, List.map_nil, List.cons_append, hexPrefix, h₁, h₂, h₃, h₄,
    Option.bind_some, Option.some.injEq]
  omega

lemma scanUnits_unicodeEscape {n : ℕ} (hn : n < 65536) {u : PyChar} (hu : chr n = some u)
    (t : PyText) :
    scanUnits (ofChars (unicodeEscape n) ++ t) =
      (scanUnits t).map fun r => ((u, true) :: r.1, r.2) := by
  have hdigits := hexPrefix_digits hn []
  simp only [ofChars, List.map_cons, List.map_nil, List.append_nil] at hdigits
  simp only [unicodeEscape, ofChars, List.map_cons, List.map_nil, List.cons_append,
    List.nil_append]
  rw [scanUnits]
  simp [hdigits, hu]
  cases scanUnits t <;> rfl

lemma toNat_bounds (c : Char) :
    (c.toNat < 55296 ∨ 57344 ≤ c.toNat) ∧ c.toNat < 1114112 := by
  have hvalid := c.valid
  simp only [UInt32.isValidChar, Nat.isValidChar] at hvalid
  have heq : c.val.toNat = c.toNat := rfl
  omega

/-- A character of the basic plane is its own code point. -/
lemma chr_toNat {c : Char} : chr c.toNat = some (.scalar c) := by
  obtain ⟨hgap, hmax⟩ := toNat_bounds c
  unfold chr
  rw [Char.ofNat_toNat]
  split_ifs <;> first | rfl | omega

/-- A character beyond the basic plane is the join of its two surrogates. -/
lemma chr_surrogates {c : Char} (hc : 65536 ≤ c.toNat) :
    chr (55296 + (c.toNat - 65536) / 1024 % 1024) =
        some (.high (Fin.ofNat 1024 ((c.toNat - 65536) / 1024))) ∧
      chr (56320 + (c.toNat - 65536) % 1024) =
        some (.low (Fin.ofNat 1024 ((c.toNat - 65536) % 1024))) ∧
      join (Fin.ofNat 1024 ((c.toNat - 65536) / 1024))
        (Fin.ofNat 1024 ((c.toNat - 65536) % 1024)) = c := by
  obtain ⟨-, hmax⟩ := toNat_bounds c
  have hhigh : (c.toNat - 65536) / 1024 % 1024 = (c.toNat - 65536) / 1024 := by omega
  refine ⟨?_, ?_, ?_⟩
  · unfold chr
    rw [if_neg (by omega), if_pos (by omega), hhigh, Nat.add_sub_cancel_left]
  · unfold chr
    rw [if_neg (by omega), if_neg (by omega), if_pos (by omega), Nat.add_sub_cancel_left]
  · have hsum : 65536 + (c.toNat - 65536) / 1024 % 1024 * 1024 + (c.toNat - 65536) % 1024 % 1024 =
        c.toNat := by omega
    rw [join, Fin.val_ofNat, Fin.val_ofNat, hsum, Char.ofNat_toNat]

/-- One written character is read as units that join to it. -/
lemma scanUnits_escapeChar (c : Char) (t : PyText) :
    ∃ units, (∀ us, joinUnits (units ++ us) = .scalar c :: joinUnits us) ∧
      scanUnits (ofChars (escapeChar c) ++ t) =
        (scanUnits t).map fun r => (units ++ r.1, r.2) := by
  have hsimple : ∀ e : Char, e ≠ 'u' → simpleEscape e = some c →
      scanUnits (.scalar '\\' :: .scalar e :: t) =
        (scanUnits t).map fun r => ([(.scalar c, false)] ++ r.1, r.2) := by
    intro e hu he
    rw [scanUnits]
    · simp [he]
      cases scanUnits t <;> rfl
    · exact fun _ _ _ _ _ _ heq => hu heq
  unfold escapeChar
  split_ifs with h₁ h₂ h₃ h₄ h₅ h₆ h₇ h₈ h₉
  · exact ⟨[(.scalar c, false)], fun _ => rfl, hsimple '"' (by decide) (by rw [h₁]; decide)⟩
  · exact ⟨[(.scalar c, false)], fun _ => rfl, hsimple '\\' (by decide) (by rw [h₂]; decide)⟩
  · exact ⟨[(.scalar c, false)], fun _ => rfl, hsimple 'n' (by decide) (by rw [h₃]; decide)⟩
  · exact ⟨[(.scalar c, false)], fun _ => rfl, hsimple 'r' (by decide) (by rw [h₄]; decide)⟩
  · exact ⟨[(.scalar c, false)], fun _ => rfl, hsimple 't' (by decide) (by rw [h₅]; decide)⟩
  · have hc : c = Char.ofNat 12 := by rw [← h₆, Char.ofNat_toNat]
    exact ⟨[(.scalar c, false)], fun _ => rfl, hsimple 'f' (by decide) (by rw [hc]; decide)⟩
  · have hc : c = Char.ofNat 8 := by rw [← h₇, Char.ofNat_toNat]
    exact ⟨[(.scalar c, false)], fun _ => rfl, hsimple 'b' (by decide) (by rw [hc]; decide)⟩
  · refine ⟨[(.scalar c, false)], fun _ => rfl, ?_⟩
    exact scanUnits_plain h₁ h₂ h₈.1 t
  · exact ⟨[(.scalar c, true)], fun _ => rfl, scanUnits_unicodeEscape h₉ chr_toNat t⟩
  · obtain ⟨hhigh, hlow, hjoin⟩ := chr_surrogates (not_lt.mp h₉)
    refine ⟨[(.high (Fin.ofNat 1024 ((c.toNat - 65536) / 1024)), true),
      (.low (Fin.ofNat 1024 ((c.toNat - 65536) % 1024)), true)], fun us => ?_, ?_⟩
    · show PyChar.scalar (join _ _) :: joinUnits us = _
      rw [hjoin]
    · rw [ofChars_append, List.append_assoc, scanUnits_unicodeEscape (by omega) hhigh,
        scanUnits_unicodeEscape (by omega) hlow, Option.map_map]
      rfl

lemma scanString_quote (s : String) (t : PyText) :
    scanString (ofChars (s.toList.flatMap escapeChar) ++ .scalar '"' :: t) =
      some (ofString s, t) := by
  have hbody : ∀ cs : List Char, ∃ units, joinUnits units = ofChars cs ∧
      scanUnits (ofChars (cs.flatMap escapeChar) ++ .scalar '"' :: t) = some (units, t) := by
    intro cs
    induction cs with
    | nil => exact ⟨[], rfl, scanUnits_quote t⟩
    | cons c cs ih =>
        obtain ⟨units, hjoin, hscan⟩ := ih
        obtain ⟨us, hus, hc⟩ := scanUnits_escapeChar c
          (ofChars (cs.flatMap escapeChar) ++ .scalar '"' :: t)
        refine ⟨us ++ units, by rw [hus, hjoin, ofChars_cons], ?_⟩
        rw [List.flatMap_cons, ofChars_append, List.append_assoc, hc, hscan]
        rfl
  obtain ⟨units, hjoin, hscan⟩ := hbody s.toList
  rw [scanString, hscan, Option.map_some, hjoin]
  rfl

/-! ## Numbers and keywords -/

lemma isNumberChar_of_isDigit {c : Char} (h : isDigit c = true) : isNumberChar c = true := by
  simp [isNumberChar, h]

lemma forall_of_matchDigits {rest : List Char → Bool}
    (hrest : ∀ ds, rest ds = true → ∀ c ∈ ds, isNumberChar c = true) {cs : List Char}
    (h : matchDigits rest cs = true) : ∀ c ∈ cs, isNumberChar c = true := by
  rw [matchDigits, Bool.and_eq_true] at h
  intro c hc
  rw [← List.takeWhile_append_dropWhile (p := isDigit) (l := cs)] at hc
  rcases List.mem_append.mp hc with hc | hc
  · exact isNumberChar_of_isDigit (List.mem_takeWhile_imp hc)
  · exact hrest _ h.2 c hc

lemma forall_of_matchExponent : ∀ cs, matchExponent cs = true → ∀ c ∈ cs, isNumberChar c = true := by
  have hempty : ∀ ds : List Char, ds.isEmpty = true → ∀ c ∈ ds, isNumberChar c = true := by
    intro ds h
    rw [List.isEmpty_iff.mp h]
    nofun
  intro cs h
  cases cs with
  | nil => nofun
  | cons e cs =>
      unfold matchExponent at h
      rw [Bool.and_eq_true] at h
      have he : isNumberChar e = true := by
        have hcase := h.1
        simp only [Bool.or_eq_true, decide_eq_true_eq] at hcase
        rcases hcase with rfl | rfl <;> decide
      refine List.forall_mem_cons.mpr ⟨he, ?_⟩
      have hsign := h.2
      split at hsign
      · exact List.forall_mem_cons.mpr ⟨by decide, forall_of_matchDigits hempty hsign⟩
      · exact List.forall_mem_cons.mpr ⟨by decide, forall_of_matchDigits hempty hsign⟩
      · exact forall_of_matchDigits hempty hsign

lemma forall_of_matchFraction : ∀ cs, matchFraction cs = true → ∀ c ∈ cs, isNumberChar c = true := by
  intro cs h
  unfold matchFraction at h
  split at h
  · exact List.forall_mem_cons.mpr ⟨by decide, forall_of_matchDigits forall_of_matchExponent h⟩
  · exact forall_of_matchExponent _ h

lemma forall_of_matchInteger : ∀ cs, matchInteger cs = true → ∀ c ∈ cs, isNumberChar c = true := by
  intro cs h
  unfold matchInteger at h
  split at h
  · exact List.forall_mem_cons.mpr ⟨by decide, forall_of_matchFraction _ h⟩
  · exact forall_of_matchDigits forall_of_matchFraction h

lemma forall_of_isNumber {cs : List Char} (h : isNumber cs = true) :
    ∀ c ∈ cs, isNumberChar c = true := by
  unfold isNumber at h
  split at h
  · exact List.forall_mem_cons.mpr ⟨by decide, forall_of_matchInteger _ h⟩
  · exact forall_of_matchInteger _ h

lemma exists_digit_of_matchInteger {cs : List Char} (h : matchInteger cs = true) :
    ∃ c cs', cs = c :: cs' ∧ isDigit c = true := by
  unfold matchInteger at h
  split at h
  · exact ⟨'0', _, rfl, by decide⟩
  · cases cs with
    | nil => simp [matchDigits] at h
    | cons c cs =>
        refine ⟨c, cs, rfl, ?_⟩
        by_contra hc
        simp [matchDigits, hc] at h

/-- A number starts with a digit, or with the sign and a digit. -/
lemma exists_digit_of_isNumber {cs : List Char} (h : isNumber cs = true) :
    ∃ c cs', isDigit c = true ∧ (cs = c :: cs' ∨ cs = '-' :: c :: cs') := by
  unfold isNumber at h
  split at h
  · obtain ⟨c, cs', rfl, hc⟩ := exists_digit_of_matchInteger h
    exact ⟨c, cs', hc, Or.inr rfl⟩
  · obtain ⟨c, cs', rfl, hc⟩ := exists_digit_of_matchInteger h
    exact ⟨c, cs', hc, Or.inl rfl⟩

/-- The text goes on with something that cannot belong to a number. -/
def Delimited (t : PyText) : Prop := ∀ u us, t = u :: us → isNumberUnit u = false

lemma scalars_ofChars (cs : List Char) : scalars (ofChars cs) = cs := by
  induction cs with
  | nil => rfl
  | cons c cs ih => rw [ofChars_cons, scalars, ih]

lemma scanNumber_text (n : NumberLit) {t : PyText} (ht : Delimited t) :
    scanNumber (ofChars n.text.toList ++ t) = some (.number n, t) := by
  have hall : ∀ u ∈ ofChars n.text.toList, isNumberUnit u = true := by
    intro u hu
    obtain ⟨c, hc, rfl⟩ := List.mem_map.mp hu
    exact forall_of_isNumber n.valid c hc
  have hrest : t.takeWhile isNumberUnit = [] ∧ t.dropWhile isNumberUnit = t := by
    cases t with
    | nil => exact ⟨rfl, rfl⟩
    | cons u us =>
        have hu := ht u us rfl
        exact ⟨List.takeWhile_cons_of_neg (by simp [hu]), List.dropWhile_cons_of_neg (by simp [hu])⟩
  have htake : (ofChars n.text.toList ++ t).takeWhile isNumberUnit = ofChars n.text.toList := by
    rw [List.takeWhile_append_of_pos hall, hrest.1, List.append_nil]
  have hdrop : (ofChars n.text.toList ++ t).dropWhile isNumberUnit = t := by
    rw [List.dropWhile_append_of_pos hall, hrest.2]
  have hlit : scalars ((ofChars n.text.toList ++ t).takeWhile isNumberUnit) = n.text.toList := by
    rw [htake, scalars_ofChars]
  have hvalid : isNumber (scalars ((ofChars n.text.toList ++ t).takeWhile isNumberUnit)) = true := by
    rw [hlit]
    exact n.valid
  rw [scanNumber, dif_pos hvalid, hdrop]
  congr 3
  simp only [hlit, String.ofList_toList]

lemma scanScalar_of_noKeyword {cs : PyText}
    (h : ∀ word ∈ ["null", "true", "false", "NaN", "Infinity", "-Infinity"],
      dropKeyword word.toList cs = none) : scanScalar cs = scanNumber cs := by
  simp only [List.forall_mem_cons] at h
  obtain ⟨hnull, htrue, hfalse, hnan, hinf, hneg, -⟩ := h
  simp only [scanScalar, hnull, htrue, hfalse, hnan, hinf, hneg, Option.map_none,
    Option.orElse_none]

lemma scanScalar_number (n : NumberLit) {t : PyText} (ht : Delimited t) :
    scanScalar (ofChars n.text.toList ++ t) = some (.number n, t) := by
  rw [scanScalar_of_noKeyword, scanNumber_text n ht]
  obtain ⟨c, cs, hc, heq⟩ := exists_digit_of_isNumber n.valid
  have hne : ∀ k : Char, isDigit k = false → k ≠ c := by
    rintro k hk rfl
    rw [hk] at hc
    cases hc
  have hn := hne 'n' (by decide)
  have ht := hne 't' (by decide)
  have hf := hne 'f' (by decide)
  have hN := hne 'N' (by decide)
  have hI := hne 'I' (by decide)
  have hm := hne '-' (by decide)
  rcases heq with heq | heq
  · simp [heq, hn, ht, hf, hN, hI, hm]
  · simp [heq, hI]

lemma scanScalar_null (t : PyText) :
    scanScalar (ofChars (write .null) ++ t) = some (.null, t) := by
  simp [scanScalar]

lemma scanScalar_bool (b : Bool) (t : PyText) :
    scanScalar (ofChars (write (.bool b)) ++ t) = some (.bool b, t) := by
  cases b <;> simp [scanScalar]

lemma scanScalar_notANumber (t : PyText) :
    scanScalar (ofChars (write .notANumber) ++ t) = some (.notANumber, t) := by
  simp [scanScalar]

lemma scanScalar_infinity (t : PyText) :
    scanScalar (ofChars (write .infinity) ++ t) = some (.infinity, t) := by
  simp [scanScalar]

lemma scanScalar_negInfinity (t : PyText) :
    scanScalar (ofChars (write .negInfinity) ++ t) = some (.negInfinity, t) := by
  simp [scanScalar]

/-! ## Values -/

lemma skipSpace_cons {u : PyChar} (h : isSpace u = false) (us : PyText) :
    skipSpace (u :: us) = u :: us :=
  List.dropWhile_cons_of_neg (by simp [h])

/-- A character that starts a value. -/
def StartsValue (c : Char) : Prop := isSpace (.scalar c) = false ∧ c ≠ ']' ∧ c ≠ '}'

/-- A written value starts with a character that is neither white space nor a closing bracket. -/
lemma exists_write_eq_cons (v : Json) : ∃ c cs, write v = c :: cs ∧ StartsValue c := by
  cases v with
  | null => exact ⟨'n', _, by rw [write_null]; rfl, by decide, by decide, by decide⟩
  | bool b =>
      cases b with
      | false => exact ⟨'f', _, by rw [write_false]; rfl, by decide, by decide, by decide⟩
      | true => exact ⟨'t', _, by rw [write_true]; rfl, by decide, by decide, by decide⟩
  | number n =>
      have hdigit : ∀ c : Char, isDigit c = true → StartsValue c := by
        intro c hc
        refine ⟨?_, ?_, ?_⟩
        · by_contra hspace
          simp only [isSpace, Bool.not_eq_false, Bool.or_eq_true, decide_eq_true_eq] at hspace
          rcases hspace with ((rfl | rfl) | rfl) | rfl <;> exact absurd hc (by decide)
        · rintro rfl
          exact absurd hc (by decide)
        · rintro rfl
          exact absurd hc (by decide)
      obtain ⟨c, cs, hc, heq | heq⟩ := exists_digit_of_isNumber n.valid
      · exact ⟨c, cs, heq, hdigit c hc⟩
      · exact ⟨'-', c :: cs, heq, by decide, by decide, by decide⟩
  | notANumber => exact ⟨'N', _, by rw [write_notANumber]; rfl, by decide, by decide, by decide⟩
  | infinity => exact ⟨'I', _, by rw [write_infinity]; rfl, by decide, by decide, by decide⟩
  | negInfinity => exact ⟨'-', _, by rw [write_negInfinity]; rfl, by decide, by decide, by decide⟩
  | str s => exact ⟨'"', _, rfl, by decide, by decide, by decide⟩
  | arr items => exact ⟨'[', _, rfl, by decide, by decide, by decide⟩
  | obj members => exact ⟨'{', _, rfl, by decide, by decide, by decide⟩

/-- Distinct names make the members their own dictionary. -/
lemma dictOf_of_nodup {members : List (String × Json)} (h : (members.map Prod.fst).Nodup) :
    dictOf members = members := by
  have hassign : ∀ (d : List (String × Json)) (m : String × Json), m.1 ∉ d.map Prod.fst →
      PyDict.assign m.1 m.2 d = d ++ [m] := by
    intro d m hm
    induction d with
    | nil => rfl
    | cons e es ih =>
        rw [List.map_cons, List.mem_cons, not_or] at hm
        rw [PyDict.assign, if_neg (Ne.symm hm.1), ih hm.2, List.cons_append]
  have hfold : ∀ d : List (String × Json), ((d ++ members).map Prod.fst).Nodup →
      members.foldl (fun d m => PyDict.assign m.1 m.2 d) d = d ++ members := by
    clear h
    induction members with
    | nil => intro d _; simp
    | cons m ms ih =>
        intro d hd
        have hm : m.1 ∉ d.map Prod.fst := by
          rw [List.map_append, List.map_cons, List.nodup_append] at hd
          intro hmem
          exact hd.2.2 m.1 hmem m.1 List.mem_cons_self rfl
        rw [List.foldl_cons, hassign d m hm, ih (d ++ [m]) (by simpa using hd),
          List.append_assoc, List.singleton_append]
  exact hfold [] h

lemma isSpace_of_isNumberUnit {u : PyChar} (h : isNumberUnit u = true) : isSpace u = false := by
  cases u with
  | high n => cases h
  | low n => cases h
  | scalar c =>
      by_contra hspace
      simp only [isSpace, Bool.not_eq_false, Bool.or_eq_true, decide_eq_true_eq] at hspace
      rcases hspace with ((rfl | rfl) | rfl) | rfl <;> exact absurd h (by decide)

lemma delimited_nil : Delimited [] := fun _ _ h => nomatch h

/-- What follows an item or a member is not part of a number. -/
lemma delimited_of_mem {c : Char} (h : c = ',' ∨ c = ']' ∨ c = '}') (t : PyText) :
    Delimited (.scalar c :: t) := by
  rintro u us heq
  rw [← (List.cons.inj heq).1]
  rcases h with rfl | rfl | rfl <;> decide

lemma parseValue_scalar {c : Char} (hquote : c ≠ '"') (harr : c ≠ '[') (hobj : c ≠ '{') (n : ℕ)
    (us : PyText) : parseValue (n + 1) (.scalar c :: us) = scanScalar (.scalar c :: us) := by
  rw [parseValue]
  · exact fun us' heq => hquote (PyChar.scalar.inj (List.cons.inj heq).1)
  · exact fun us' heq => harr (PyChar.scalar.inj (List.cons.inj heq).1)
  · exact fun us' heq => hobj (PyChar.scalar.inj (List.cons.inj heq).1)

section Tokens

variable {u : PyChar} {cs us r r' t : PyText} {n : ℕ}

lemma parseValue_arr (hcs : skipSpace cs = u :: us) (hu : u ≠ .scalar ']') :
    parseValue (n + 1) (.scalar '[' :: cs) =
      (parseItems n (u :: us)).map fun r => (.arr r.1, r.2) := by
  rw [parseValue, hcs]
  split
  · rename_i heq
    exact absurd (List.cons.inj heq).1 hu
  · rfl

lemma parseValue_obj (hcs : skipSpace cs = u :: us) (hu : u ≠ .scalar '}') :
    parseValue (n + 1) (.scalar '{' :: cs) =
      (parseMembers n (u :: us)).map fun r => (.obj (dictOf r.1), r.2) := by
  rw [parseValue, hcs]
  split
  · rename_i heq
    exact absurd (List.cons.inj heq).1 hu
  · rfl

lemma parseItems_last {v : Json} (h : parseValue n cs = some (v, r))
    (hr : skipSpace r = .scalar ']' :: t) : parseItems (n + 1) cs = some ([v], t) := by
  rw [parseItems, h]
  simp only [Option.bind_eq_bind, Option.bind_some, hr]

lemma parseItems_cons {v : Json} {vs : List Json} (h : parseValue n cs = some (v, r))
    (hr : skipSpace r = .scalar ',' :: r') (hrest : parseItems n (skipSpace r') = some (vs, t)) :
    parseItems (n + 1) cs = some (v :: vs, t) := by
  rw [parseItems, h]
  simp only [Option.bind_eq_bind, Option.bind_some, hr, hrest]
  rfl

lemma parseMembers_last {k q : PyText} {v : Json} (hk : scanString cs = some (k, q))
    (hq : skipSpace q = .scalar ':' :: us) (h : parseValue n (skipSpace us) = some (v, r))
    (hr : skipSpace r = .scalar '}' :: t) :
    parseMembers (n + 1) (.scalar '"' :: cs) = some ([(toText k, v)], t) := by
  rw [parseMembers, hk]
  simp only [Option.bind_eq_bind, Option.bind_some, hq, h, hr]

lemma parseMembers_cons {k q : PyText} {v : Json} {ms : List (String × Json)}
    (hk : scanString cs = some (k, q)) (hq : skipSpace q = .scalar ':' :: us)
    (h : parseValue n (skipSpace us) = some (v, r)) (hr : skipSpace r = .scalar ',' :: r')
    (hrest : parseMembers n (skipSpace r') = some (ms, t)) :
    parseMembers (n + 1) (.scalar '"' :: cs) = some ((toText k, v) :: ms, t) := by
  rw [parseMembers, hk]
  simp only [Option.bind_eq_bind, Option.bind_some, hq, h, hr, hrest]
  rfl

end Tokens

/-! ## What is read back -/

mutual

/-- The value that is read back: of the members of one name in an object, the last one counts. -/
def canonical : Json → Json
  | .arr items => .arr (canonicalItems items)
  | .obj members => .obj (dictOf (canonicalMembers members))
  | v => v

def canonicalItems : List Json → List Json
  | [] => []
  | v :: vs => canonical v :: canonicalItems vs

def canonicalMembers : List (String × Json) → List (String × Json)
  | [] => []
  | m :: ms => (m.1, canonical m.2) :: canonicalMembers ms

end

lemma canonicalMembers_eq_map (ms : List (String × Json)) :
    canonicalMembers ms = ms.map fun m => (m.1, canonical m.2) := by
  induction ms with
  | nil => rfl
  | cons m ms ih => rw [canonicalMembers, ih, List.map_cons]

mutual

/-- Where the names are distinct, a value is read back as it is. -/
theorem canonical_of_distinct : ∀ v : Json, Distinct v → canonical v = v
  | .null, _ => rfl
  | .bool _, _ => rfl
  | .number _, _ => rfl
  | .notANumber, _ => rfl
  | .infinity, _ => rfl
  | .negInfinity, _ => rfl
  | .str _, _ => rfl
  | .arr items, h => by rw [canonical, canonicalItems_of_distinct items h]
  | .obj members, h => by
      rw [canonical, canonicalMembers_of_distinct members h.2, dictOf_of_nodup h.1]

theorem canonicalItems_of_distinct : ∀ vs : List Json, DistinctItems vs → canonicalItems vs = vs
  | [], _ => rfl
  | v :: vs, h => by
      rw [canonicalItems, canonical_of_distinct v h.1, canonicalItems_of_distinct vs h.2]

theorem canonicalMembers_of_distinct : ∀ ms : List (String × Json), DistinctMembers ms →
    canonicalMembers ms = ms
  | [], _ => rfl
  | m :: ms, h => by
      rw [canonicalMembers, canonical_of_distinct m.2 h.1, canonicalMembers_of_distinct ms h.2]

end

/-! ## Writers -/

section Writers

/-- A string literal, by the text between its quotes. -/
def literal (body : String → PyText) (s : String) : PyText :=
  .scalar '"' :: (body s ++ [.scalar '"'])

mutual

/-- The text of a value in which a string is written as `body` says. -/
def writeWith (body : String → PyText) : Json → PyText
  | .str s => literal body s
  | .arr items => .scalar '[' :: (writeItemsWith body items ++ [.scalar ']'])
  | .obj members => .scalar '{' :: (writeMembersWith body members ++ [.scalar '}'])
  | v => ofChars (write v)

def writeItemsWith (body : String → PyText) : List Json → PyText
  | [] => []
  | [v] => writeWith body v
  | v :: w :: vs =>
    writeWith body v ++ .scalar ',' :: .scalar ' ' :: writeItemsWith body (w :: vs)

def writeMembersWith (body : String → PyText) : List (String × Json) → PyText
  | [] => []
  | [m] => literal body m.1 ++ .scalar ':' :: .scalar ' ' :: writeWith body m.2
  | m :: m' :: ms => literal body m.1 ++ .scalar ':' :: .scalar ' ' :: (writeWith body m.2 ++
      .scalar ',' :: .scalar ' ' :: writeMembersWith body (m' :: ms))

end

/-- The white space of a writer: after an opening bracket, after a comma and before a closing
bracket, by the depth of what follows. -/
structure Layout where
  opening : ℕ → PyText
  separating : ℕ → PyText
  closing : ℕ → PyText
  isSpace_of_mem : ∀ d u, u ∈ opening d ∨ u ∈ separating d ∨ u ∈ closing d → isSpace u = true

def Layout.compact : Layout where
  opening _ := []
  separating _ := [.scalar ' ']
  closing _ := []
  isSpace_of_mem d u h := by
    obtain rfl : u = .scalar ' ' := by simpa using h
    rfl

mutual

/-- The text of a value at a depth, with the white space of `l`. -/
def writeLaid (l : Layout) (body : String → PyText) : Json → ℕ → PyText
  | .str s, _ => literal body s
  | .arr items, d =>
    if items.isEmpty then [.scalar '[', .scalar ']']
    else .scalar '[' :: (l.opening (d + 1) ++ (writeItemsLaid l body items (d + 1) ++
      (l.closing d ++ [.scalar ']'])))
  | .obj members, d =>
    if members.isEmpty then [.scalar '{', .scalar '}']
    else .scalar '{' :: (l.opening (d + 1) ++ (writeMembersLaid l body members (d + 1) ++
      (l.closing d ++ [.scalar '}'])))
  | v, _ => ofChars (write v)

def writeItemsLaid (l : Layout) (body : String → PyText) : List Json → ℕ → PyText
  | [], _ => []
  | [v], d => writeLaid l body v d
  | v :: w :: vs, d =>
    writeLaid l body v d ++ .scalar ',' :: (l.separating d ++ writeItemsLaid l body (w :: vs) d)

def writeMembersLaid (l : Layout) (body : String → PyText) : List (String × Json) → ℕ → PyText
  | [], _ => []
  | [m], d => literal body m.1 ++ .scalar ':' :: .scalar ' ' :: writeLaid l body m.2 d
  | m :: m' :: ms, d => literal body m.1 ++ .scalar ':' :: .scalar ' ' :: (writeLaid l body m.2 d ++
      .scalar ',' :: (l.separating d ++ writeMembersLaid l body (m' :: ms) d))

end

mutual

/-- On one line, the depth does not count. -/
theorem writeLaid_compact (body : String → PyText) : ∀ (v : Json) (d : ℕ),
    writeLaid .compact body v d = writeWith body v
  | .null, _ | .bool _, _ | .number _, _ | .notANumber, _ | .infinity, _ | .negInfinity, _
  | .str _, _ | .arr [], _ | .obj [], _ => rfl
  | .arr (v :: vs), d => by
      rw [writeLaid, writeWith, ← writeItemsLaid_compact body (v :: vs) (d + 1)]
      rfl
  | .obj (m :: ms), d => by
      rw [writeLaid, writeWith, ← writeMembersLaid_compact body (m :: ms) (d + 1)]
      rfl

theorem writeItemsLaid_compact (body : String → PyText) : ∀ (vs : List Json) (d : ℕ),
    writeItemsLaid .compact body vs d = writeItemsWith body vs
  | [], _ => rfl
  | [v], d => writeLaid_compact body v d
  | v :: w :: vs, d => by
      rw [writeItemsLaid, writeItemsWith, writeLaid_compact body v d,
        writeItemsLaid_compact body (w :: vs) d]
      rfl

theorem writeMembersLaid_compact (body : String → PyText) : ∀ (ms : List (String × Json)) (d : ℕ),
    writeMembersLaid .compact body ms d = writeMembersWith body ms
  | [], _ => rfl
  | [m], d => by rw [writeMembersLaid, writeMembersWith, writeLaid_compact body m.2 d]
  | m :: m' :: ms, d => by
      rw [writeMembersLaid, writeMembersWith, writeLaid_compact body m.2 d,
        writeMembersLaid_compact body (m' :: ms) d]
      rfl

end

mutual

/-- Every string in the value, be it a value or a name, is as `P` says. -/
def ForallStrings (P : String → Prop) : Json → Prop
  | .str s => P s
  | .arr items => ForallStringsItems P items
  | .obj members => ForallStringsMembers P members
  | _ => True

def ForallStringsItems (P : String → Prop) : List Json → Prop
  | [] => True
  | v :: vs => ForallStrings P v ∧ ForallStringsItems P vs

def ForallStringsMembers (P : String → Prop) : List (String × Json) → Prop
  | [] => True
  | m :: ms => P m.1 ∧ ForallStrings P m.2 ∧ ForallStringsMembers P ms

end

section ForallStrings

variable {P Q : String → Prop} {body : String → PyText}

mutual

theorem ForallStrings.imp (h : ∀ s, P s → Q s) : ∀ v, ForallStrings P v → ForallStrings Q v
  | .null, _ | .bool _, _ | .number _, _ | .notANumber, _ | .infinity, _ | .negInfinity, _ =>
      trivial
  | .str s, hs => h s hs
  | .arr items, hv => ForallStringsItems.imp h items hv
  | .obj members, hv => ForallStringsMembers.imp h members hv

theorem ForallStringsItems.imp (h : ∀ s, P s → Q s) :
    ∀ vs, ForallStringsItems P vs → ForallStringsItems Q vs
  | [], _ => trivial
  | v :: vs, hv => ⟨ForallStrings.imp h v hv.1, ForallStringsItems.imp h vs hv.2⟩

theorem ForallStringsMembers.imp (h : ∀ s, P s → Q s) :
    ∀ ms, ForallStringsMembers P ms → ForallStringsMembers Q ms
  | [], _ => trivial
  | m :: ms, hm =>
      ⟨h m.1 hm.1, ForallStrings.imp h m.2 hm.2.1, ForallStringsMembers.imp h ms hm.2.2⟩

end

lemma infix_literal {s : String} {t : PyText} (h : t <:+: body s) : t <:+: literal body s :=
  h.trans ((List.prefix_append _ _).isInfix.trans (List.suffix_cons _ _).isInfix)

mutual

/-- What holds of every string whose literal stands in the text holds of every string in the
value. -/
theorem ForallStrings.of_infix : ∀ v, (∀ s, body s <:+: writeWith body v → P s) →
    ForallStrings P v
  | .null, _ | .bool _, _ | .number _, _ | .notANumber, _ | .infinity, _ | .negInfinity, _ =>
      trivial
  | .str s, h => h s (infix_literal List.infix_rfl)
  | .arr items, h => ForallStringsItems.of_infix items fun s hs =>
      h s (hs.trans ((List.prefix_append _ _).isInfix.trans (List.suffix_cons _ _).isInfix))
  | .obj members, h => ForallStringsMembers.of_infix members fun s hs =>
      h s (hs.trans ((List.prefix_append _ _).isInfix.trans (List.suffix_cons _ _).isInfix))

theorem ForallStringsItems.of_infix : ∀ vs, (∀ s, body s <:+: writeItemsWith body vs → P s) →
    ForallStringsItems P vs
  | [], _ => trivial
  | [v], h => ⟨ForallStrings.of_infix v h, trivial⟩
  | v :: w :: vs, h => by
      refine ⟨ForallStrings.of_infix v fun s hs => h s ?_,
        ForallStringsItems.of_infix (w :: vs) fun s hs => h s ?_⟩
      · exact hs.trans (List.prefix_append _ _).isInfix
      · exact hs.trans (List.suffix_append_of_suffix
          ((List.suffix_cons _ _).trans (List.suffix_cons _ _))).isInfix

theorem ForallStringsMembers.of_infix : ∀ ms,
    (∀ s, body s <:+: writeMembersWith body ms → P s) → ForallStringsMembers P ms
  | [], _ => trivial
  | [m], h => by
      refine ⟨h _ ?_, ForallStrings.of_infix m.2 fun s hs => h s ?_, trivial⟩
      · exact (infix_literal List.infix_rfl).trans (List.prefix_append _ _).isInfix
      · exact hs.trans (List.suffix_append_of_suffix
          ((List.suffix_cons _ _).trans (List.suffix_cons _ _))).isInfix
  | m :: m' :: ms, h => by
      have hvalue : writeWith body m.2 ++ .scalar ',' :: .scalar ' ' ::
          writeMembersWith body (m' :: ms) <:+: writeMembersWith body (m :: m' :: ms) :=
        (List.suffix_append_of_suffix
          ((List.suffix_cons _ _).trans (List.suffix_cons _ _))).isInfix
      refine ⟨h _ ?_, ForallStrings.of_infix m.2 fun s hs => h s ?_,
        ForallStringsMembers.of_infix (m' :: ms) fun s hs => h s ?_⟩
      · exact (infix_literal List.infix_rfl).trans (List.prefix_append _ _).isInfix
      · exact (hs.trans (List.prefix_append _ _).isInfix).trans hvalue
      · exact (hs.trans (List.suffix_append_of_suffix
          ((List.suffix_cons _ _).trans (List.suffix_cons _ _))).isInfix).trans hvalue

end

end ForallStrings

/-- The literal of the string is read back, whatever follows it. -/
def ReadBack (body : String → PyText) (s : String) : Prop :=
  ∀ t, scanString (body s ++ .scalar '"' :: t) = some (ofString s, t)

variable {l : Layout} {body : String → PyText}

lemma exists_writeLaid_eq_cons (v : Json) (d : ℕ) :
    ∃ c cs, writeLaid l body v d = .scalar c :: cs ∧ StartsValue c := by
  have hscalar : ∀ w, writeLaid l body v d = ofChars (write w) →
      ∃ c cs, writeLaid l body v d = .scalar c :: cs ∧ StartsValue c := by
    intro w hw
    obtain ⟨c, cs, heq, hc⟩ := exists_write_eq_cons w
    exact ⟨c, ofChars cs, by rw [hw, heq, ofChars_cons], hc⟩
  cases v with
  | str s => exact ⟨'"', _, rfl, by decide, by decide, by decide⟩
  | arr items =>
      cases items with
      | nil => exact ⟨'[', _, rfl, by decide, by decide, by decide⟩
      | cons v vs => exact ⟨'[', _, rfl, by decide, by decide, by decide⟩
  | obj members =>
      cases members with
      | nil => exact ⟨'{', _, rfl, by decide, by decide, by decide⟩
      | cons m ms => exact ⟨'{', _, rfl, by decide, by decide, by decide⟩
  | _ => exact hscalar _ rfl

lemma length_writeLaid_pos (v : Json) (d : ℕ) : 0 < (writeLaid l body v d).length := by
  obtain ⟨c, cs, heq, -⟩ := @exists_writeLaid_eq_cons l body v d
  rw [heq]
  exact Nat.succ_pos _

lemma skipSpace_writeLaid (v : Json) (d : ℕ) (t : PyText) :
    skipSpace (writeLaid l body v d ++ t) = writeLaid l body v d ++ t := by
  obtain ⟨c, cs, heq, hspace, -, -⟩ := @exists_writeLaid_eq_cons l body v d
  rw [heq]
  exact skipSpace_cons hspace _

/-- The first item of an array starts with a character that is neither white space nor a closing
bracket. -/
lemma exists_writeItemsLaid_eq_cons (v : Json) (vs : List Json) (d : ℕ) :
    ∃ c cs, writeItemsLaid l body (v :: vs) d = .scalar c :: cs ∧ StartsValue c := by
  obtain ⟨c, cs, heq, hc⟩ := @exists_writeLaid_eq_cons l body v d
  cases vs with
  | nil => exact ⟨c, cs, heq, hc⟩
  | cons w ws => exact ⟨c, _, by rw [writeItemsLaid, heq, List.cons_append], hc⟩

lemma exists_writeMembersLaid_eq_cons (m : String × Json) (ms : List (String × Json)) (d : ℕ) :
    ∃ cs, writeMembersLaid l body (m :: ms) d = .scalar '"' :: cs := by
  cases ms with
  | nil => exact ⟨_, rfl⟩
  | cons m' ms => exact ⟨_, rfl⟩

lemma literal_append (s : String) (t : PyText) :
    literal body s ++ t = .scalar '"' :: (body s ++ .scalar '"' :: t) := by
  simp [literal]

lemma parseValue_literal {s : String} (hs : ReadBack body s) (n : ℕ) (t : PyText) :
    parseValue (n + 1) (literal body s ++ t) = some (.str s, t) := by
  rw [literal_append]
  show (scanString _).map _ = _
  rw [hs t, Option.map_some, toText_ofString]

/-- White space, and then a character that belongs neither to it nor to a number. -/
lemma skipSpace_spaces {s : PyText} (hs : ∀ u ∈ s, isSpace u = true) {u : PyChar}
    (hspace : isSpace u = false) (hnum : isNumberUnit u = false) (t : PyText) :
    skipSpace (s ++ u :: t) = u :: t ∧ Delimited (s ++ u :: t) := by
  refine ⟨?_, ?_⟩
  · rw [skipSpace, List.dropWhile_append_of_pos hs]
    exact skipSpace_cons hspace t
  · rintro u' us heq
    rcases s with _ | ⟨x, xs⟩
    · rw [← (List.cons.inj heq).1]
      exact hnum
    · rw [← (List.cons.inj heq).1]
      by_contra hne
      have hx := isSpace_of_isNumberUnit (Bool.eq_true_of_not_eq_false hne)
      rw [hs x List.mem_cons_self] at hx
      cases hx

lemma skipSpace_opening (d : ℕ) (t : PyText) : skipSpace (l.opening d ++ t) = skipSpace t :=
  List.dropWhile_append_of_pos fun u hu => l.isSpace_of_mem d u (.inl hu)

lemma skipSpace_separating (d : ℕ) (t : PyText) : skipSpace (l.separating d ++ t) = skipSpace t :=
  List.dropWhile_append_of_pos fun u hu => l.isSpace_of_mem d u (.inr (.inl hu))

lemma skipSpace_closing (d : ℕ) {c : Char} (h : c = ']' ∨ c = '}') (t : PyText) :
    skipSpace (l.closing d ++ .scalar c :: t) = .scalar c :: t ∧
      Delimited (l.closing d ++ .scalar c :: t) := by
  refine skipSpace_spaces (fun u hu => l.isSpace_of_mem d u (.inr (.inr hu))) ?_ ?_ t
  · rcases h with rfl | rfl <;> decide
  · rcases h with rfl | rfl <;> decide

mutual

/-- A written value is read back, whatever follows that cannot belong to a number. -/
theorem parseValue_writeLaid : ∀ (v : Json) (d : ℕ), ForallStrings (ReadBack body) v → ∀ (n : ℕ)
    (t : PyText), (writeLaid l body v d).length ≤ n → Delimited t →
    parseValue n (writeLaid l body v d ++ t) = some (canonical v, t)
  | v, d, _, 0, _, hn, _ => absurd hn (not_le.mpr (length_writeLaid_pos v d))
  | .null, _, _, n + 1, t, _, _ => by
      show _ = some (Json.null, t)
      rw [← scanScalar_null t]
      exact parseValue_scalar (by decide) (by decide) (by decide) n _
  | .bool b, _, _, n + 1, t, _, _ => by
      show _ = some (Json.bool b, t)
      rw [← scanScalar_bool b t]
      cases b with
      | false => exact parseValue_scalar (by decide) (by decide) (by decide) n _
      | true => exact parseValue_scalar (by decide) (by decide) (by decide) n _
  | .number lit, _, _, n + 1, t, _, ht => by
      show parseValue (n + 1) (ofChars lit.text.toList ++ t) = some (Json.number lit, t)
      rw [← scanScalar_number lit ht]
      obtain ⟨c, cs, heq, hquote, harr, hobj⟩ : ∃ c cs, lit.text.toList = c :: cs ∧
          c ≠ '"' ∧ c ≠ '[' ∧ c ≠ '{' := by
        obtain ⟨c, cs, hc, heq | heq⟩ := exists_digit_of_isNumber lit.valid
        · have hne : ∀ k : Char, isDigit k = false → c ≠ k := by
            rintro k hk rfl
            rw [hk] at hc
            cases hc
          exact ⟨c, cs, heq, hne _ (by decide), hne _ (by decide), hne _ (by decide)⟩
        · exact ⟨'-', c :: cs, heq, by decide, by decide, by decide⟩
      rw [heq, ofChars_cons, List.cons_append]
      exact parseValue_scalar hquote harr hobj n _
  | .notANumber, _, _, n + 1, t, _, _ => by
      show _ = some (Json.notANumber, t)
      rw [← scanScalar_notANumber t]
      exact parseValue_scalar (by decide) (by decide) (by decide) n _
  | .infinity, _, _, n + 1, t, _, _ => by
      show _ = some (Json.infinity, t)
      rw [← scanScalar_infinity t]
      exact parseValue_scalar (by decide) (by decide) (by decide) n _
  | .negInfinity, _, _, n + 1, t, _, _ => by
      show _ = some (Json.negInfinity, t)
      rw [← scanScalar_negInfinity t]
      exact parseValue_scalar (by decide) (by decide) (by decide) n _
  | .str s, _, hs, n + 1, t, _, _ => parseValue_literal hs n t
  | .arr [], _, _, _ + 1, _, _, _ => rfl
  | .arr (v :: vs), d, hv, n + 1, t, hn, _ => by
      have hlen : (writeItemsLaid l body (v :: vs) (d + 1)).length < n := by
        rw [writeLaid, if_neg (by simp), List.length_cons, List.length_append, List.length_append,
          List.length_append, List.length_singleton] at hn
        omega
      obtain ⟨c, cs, heq, hspace, hclose, -⟩ := @exists_writeItemsLaid_eq_cons l body v vs (d + 1)
      have hitems := parseItems_writeLaid v vs (d + 1) hv n _ t hlen
        (@skipSpace_closing l d ']' (by decide) t)
      rw [writeLaid, if_neg (by simp), List.cons_append, List.append_assoc, List.append_assoc,
        List.append_assoc, List.singleton_append]
      rw [heq, List.cons_append] at hitems ⊢
      rw [parseValue_arr ((skipSpace_opening (d + 1) _).trans (skipSpace_cons hspace _))
        (fun h => hclose (PyChar.scalar.inj h)), hitems]
      rfl
  | .obj [], _, _, _ + 1, _, _, _ => rfl
  | .obj (m :: ms), d, hv, n + 1, t, hn, _ => by
      have hlen : (writeMembersLaid l body (m :: ms) (d + 1)).length < n := by
        rw [writeLaid, if_neg (by simp), List.length_cons, List.length_append, List.length_append,
          List.length_append, List.length_singleton] at hn
        omega
      obtain ⟨cs, heq⟩ := @exists_writeMembersLaid_eq_cons l body m ms (d + 1)
      have hmembers := parseMembers_writeLaid m ms (d + 1) hv n _ t hlen
        (@skipSpace_closing l d '}' (by decide) t)
      rw [writeLaid, if_neg (by simp), List.cons_append, List.append_assoc, List.append_assoc,
        List.append_assoc, List.singleton_append]
      rw [heq, List.cons_append] at hmembers ⊢
      rw [parseValue_obj ((skipSpace_opening (d + 1) _).trans (skipSpace_cons (by decide) _))
        (by decide), hmembers]
      rfl

/-- The items of a written array are read back. -/
theorem parseItems_writeLaid : ∀ (v : Json) (vs : List Json) (d : ℕ),
    ForallStringsItems (ReadBack body) (v :: vs) → ∀ (n : ℕ) (r t : PyText),
    (writeItemsLaid l body (v :: vs) d).length < n →
    skipSpace r = .scalar ']' :: t ∧ Delimited r →
    parseItems n (writeItemsLaid l body (v :: vs) d ++ r) = some (canonicalItems (v :: vs), t)
  | _, _, _, _, 0, _, _, hn, _ => absurd hn (Nat.not_lt_zero _)
  | v, [], d, hv, n + 1, r, t, hn, hr => by
      have hlen : (writeLaid l body v d).length ≤ n := Nat.lt_succ_iff.mp hn
      exact parseItems_last (parseValue_writeLaid v d hv.1 n _ hlen hr.2) hr.1
  | v, w :: vs, d, hv, n + 1, r, t, hn, hr => by
      have hlen : (writeLaid l body v d).length + (writeItemsLaid l body (w :: vs) d).length < n := by
        rw [writeItemsLaid, List.length_append, List.length_cons, List.length_append] at hn
        omega
      have hrest := parseItems_writeLaid w vs d hv.2 n r t (by omega) hr
      obtain ⟨c, cs, heq, hspace, -⟩ := @exists_writeItemsLaid_eq_cons l body w vs d
      have hskip : skipSpace (l.separating d ++ (writeItemsLaid l body (w :: vs) d ++ r)) =
          writeItemsLaid l body (w :: vs) d ++ r := by
        rw [skipSpace_separating, heq]
        exact skipSpace_cons hspace _
      rw [writeItemsLaid, List.append_assoc, List.cons_append, List.append_assoc]
      exact parseItems_cons
        (parseValue_writeLaid v d hv.1 n _ (by omega) (delimited_of_mem (by decide) _))
        (skipSpace_cons (by decide) _) (by rw [hskip]; exact hrest)

/-- The members of a written object are read back. -/
theorem parseMembers_writeLaid : ∀ (m : String × Json) (ms : List (String × Json)) (d : ℕ),
    ForallStringsMembers (ReadBack body) (m :: ms) → ∀ (n : ℕ) (r t : PyText),
    (writeMembersLaid l body (m :: ms) d).length < n →
    skipSpace r = .scalar '}' :: t ∧ Delimited r →
    parseMembers n (writeMembersLaid l body (m :: ms) d ++ r) =
      some (canonicalMembers (m :: ms), t)
  | _, _, _, _, 0, _, _, hn, _ => absurd hn (Nat.not_lt_zero _)
  | m, [], d, hm, n + 1, r, t, hn, hr => by
      have hlen : (writeLaid l body m.2 d).length < n := by
        rw [writeMembersLaid, List.length_append, List.length_cons, List.length_cons] at hn
        omega
      have hvalue : parseValue n (skipSpace (.scalar ' ' :: (writeLaid l body m.2 d ++ r))) =
          some (canonical m.2, r) := by
        show parseValue n (skipSpace (writeLaid l body m.2 d ++ r)) = _
        rw [skipSpace_writeLaid]
        exact parseValue_writeLaid m.2 d hm.2.1 n _ hlen.le hr.2
      have hmember := parseMembers_last (hm.1 (.scalar ':' :: .scalar ' ' ::
        (writeLaid l body m.2 d ++ r))) (skipSpace_cons (by decide) _) hvalue hr.1
      rw [writeMembersLaid, List.append_assoc, literal_append, List.cons_append, List.cons_append,
        canonicalMembers, canonicalMembers]
      rwa [toText_ofString] at hmember
  | m, m' :: ms, d, hm, n + 1, r, t, hn, hr => by
      have hlen : (writeLaid l body m.2 d).length +
          (writeMembersLaid l body (m' :: ms) d).length < n := by
        rw [writeMembersLaid, List.length_append, List.length_cons, List.length_cons,
          List.length_append, List.length_cons, List.length_append] at hn
        omega
      have hrest := parseMembers_writeLaid m' ms d hm.2.2 n r t (by omega) hr
      obtain ⟨cs, heq⟩ := @exists_writeMembersLaid_eq_cons l body m' ms d
      have hskip : skipSpace (l.separating d ++ (writeMembersLaid l body (m' :: ms) d ++ r)) =
          writeMembersLaid l body (m' :: ms) d ++ r := by
        rw [skipSpace_separating, heq]
        exact skipSpace_cons (by decide) _
      have hvalue : ∀ t', Delimited t' →
          parseValue n (skipSpace (.scalar ' ' :: (writeLaid l body m.2 d ++ t'))) =
            some (canonical m.2, t') := by
        intro t' ht'
        show parseValue n (skipSpace (writeLaid l body m.2 d ++ t')) = _
        rw [skipSpace_writeLaid]
        exact parseValue_writeLaid m.2 d hm.2.1 n _ (by omega) ht'
      have hmembers := parseMembers_cons (hm.1 _) (skipSpace_cons (by decide) _)
        (hvalue (.scalar ',' :: (l.separating d ++ (writeMembersLaid l body (m' :: ms) d ++ r)))
          (delimited_of_mem (by decide) _)) (skipSpace_cons (by decide) _)
        (by rw [hskip]; exact hrest)
      rw [writeMembersLaid, List.append_assoc, literal_append, List.cons_append, List.cons_append,
        List.append_assoc, List.cons_append, List.append_assoc, canonicalMembers]
      rwa [toText_ofString] at hmembers

end

/-- **What such a writer writes** is read back, with white space after it, and its members are those
of a dictionary. -/
theorem loads_writeLaid {v : Json} (hv : ForallStrings (ReadBack body) v) {t : PyText}
    (ht : ∀ u ∈ t, isSpace u = true) : loads (writeLaid l body v 0 ++ t) = some (canonical v) := by
  have hdelimited : Delimited t := by
    rintro u us rfl
    by_contra hne
    have hu := isSpace_of_isNumberUnit (Bool.eq_true_of_not_eq_false hne)
    rw [ht u List.mem_cons_self] at hu
    cases hu
  have hparse := @parseValue_writeLaid l body v 0 hv ((writeLaid l body v 0 ++ t).length + 1) t
    (by rw [List.length_append]; omega) hdelimited
  have hskip : skipSpace t = [] := List.dropWhile_eq_nil_iff.mpr ht
  rw [loads, skipSpace_writeLaid v 0 t, hparse]
  show (if skipSpace t = [] then _ else _) = _
  rw [if_pos hskip]

/-- The same on one line. -/
theorem loads_writeWith {v : Json} (hv : ForallStrings (ReadBack body) v) :
    loads (writeWith body v) = some (canonical v) := by
  have hload := @loads_writeLaid .compact body v hv [] fun u hu => absurd hu List.not_mem_nil
  rw [List.append_nil, writeLaid_compact] at hload
  exact hload

end Writers

/-! ## The standard writer -/

/-- The text between the quotes of a literal, with `ensure_ascii`. -/
def escapedBody (s : String) : PyText := ofChars (s.toList.flatMap escapeChar)

lemma ofChars_quote (s : String) : ofChars (quote s) = literal escapedBody s := by
  simp [quote, literal, escapedBody]

mutual

theorem ofChars_write : ∀ v : Json, ofChars (write v) = writeWith escapedBody v
  | .null | .bool _ | .number _ | .notANumber | .infinity | .negInfinity => rfl
  | .str s => ofChars_quote s
  | .arr items => by
      rw [write_arr, writeWith, ← ofChars_writeItems items]
      simp
  | .obj members => by
      rw [write_obj, writeWith, ← ofChars_writeMembers members]
      simp

theorem ofChars_writeItems : ∀ vs : List Json,
    ofChars (writeItems vs) = writeItemsWith escapedBody vs
  | [] => rfl
  | [v] => ofChars_write v
  | v :: w :: vs => by
      rw [writeItems_cons_cons, writeItemsWith, ← ofChars_write v, ← ofChars_writeItems (w :: vs)]
      simp

theorem ofChars_writeMembers : ∀ ms : List (String × Json),
    ofChars (writeMembers ms) = writeMembersWith escapedBody ms
  | [] => rfl
  | [m] => by
      rw [writeMembers_singleton, writeMembersWith, ← ofChars_quote, ← ofChars_write m.2]
      simp
  | m :: m' :: ms => by
      rw [writeMembers_cons_cons, writeMembersWith, ← ofChars_quote, ← ofChars_write m.2,
        ← ofChars_writeMembers (m' :: ms)]
      simp

end

lemma ofString_dumps (v : Json) : ofString (dumps v) = writeWith escapedBody v := by
  rw [ofString, dumps, String.toList_ofList, ofChars_write]

/-- What is written is read back, and its members are those of a dictionary. -/
theorem loads_dumps_canonical (v : Json) : loads (ofString (dumps v)) = some (canonical v) := by
  rw [ofString_dumps]
  exact loads_writeWith (@ForallStrings.of_infix _ escapedBody v fun s _ => scanString_quote s)

/-- **Round trip**: what is written is read back. -/
theorem loads_dumps {v : Json} (hv : Distinct v) : loads (ofString (dumps v)) = some v := by
  rw [loads_dumps_canonical, canonical_of_distinct v hv]

end Json
