import AtlasMemory.Foundations.JsonRemainder

/-!
# The least text of a value

A text is weighed by giving each of its code points a weight.  Where no way to write a character is
lighter than the spelling `spell` (`Lightest`), every text that reads as a value weighs at least as
much as the text in which the value is spelled so (`weigh_le_of_loads`).  So a text that has become
lighter than that reads as something else.

Under the weight `mark`, which counts the quotes and the characters that escapes are made of, the
least text of a value is the one that escapes only what must be escaped (`weigh_leastText_le`).
-/

namespace PyText

def weigh (w : PyChar → ℕ) (t : PyText) : ℕ := (t.map w).sum

variable {w : PyChar → ℕ}

@[simp] lemma weigh_nil : weigh w [] = 0 := rfl

@[simp] lemma weigh_cons (u : PyChar) (t : PyText) : weigh w (u :: t) = w u + weigh w t := by
  simp [weigh]

@[simp] lemma weigh_append (t t' : PyText) : weigh w (t ++ t') = weigh w t + weigh w t' := by
  simp [weigh]

lemma weigh_le_of_suffix {t t' : PyText} (h : t <:+ t') : weigh w t ≤ weigh w t' := by
  obtain ⟨p, rfl⟩ := h
  rw [weigh_append]
  omega

lemma weigh_drop_le (n : ℕ) (t : PyText) : weigh w (t.drop n) ≤ weigh w t :=
  weigh_le_of_suffix (List.drop_suffix n t)

/-- A pair of surrogates stands for a character beyond the basic plane. -/
lemma toNat_join (h l : Fin 1024) : (join h l).toNat = 65536 + h * 1024 + l := by
  have hvalid : (65536 + h.val * 1024 + l.val).isValidChar := by
    right
    omega
  rw [join, Char.ofNat, dif_pos hvalid]
  exact UInt32.toNat_ofNatLT

lemma toNat_of_chr {n : ℕ} {c : Char} (h : chr n = some (.scalar c)) : c.toNat = n := by
  have hvalid : ∀ m : ℕ, m.isValidChar → (Char.ofNat m).toNat = m := by
    intro m hm
    rw [Char.ofNat, dif_pos hm]
    exact UInt32.toNat_ofNatLT
  unfold chr at h
  split_ifs at h with h₁ h₂ h₃ h₄ <;> cases h
  · exact hvalid n (Or.inl h₁)
  · exact hvalid n (Or.inr ⟨by omega, h₄⟩)

end PyText

namespace Json

open PyText

/-! ## Lightest spellings -/

/-- The characters that a string literal cannot hold as they are. -/
def MustEscape (c : Char) : Prop := c = '"' ∨ c = '\\' ∨ c.toNat < 32

instance (c : Char) : Decidable (MustEscape c) := by
  unfold MustEscape
  infer_instance

lemma not_mustEscape_join (h l : Fin 1024) : ¬MustEscape (join h l) := by
  have hjoin := toNat_join h l
  rintro (heq | heq | hlt)
  · rw [heq] at hjoin
    have hquote : '"'.toNat = 34 := rfl
    omega
  · rw [heq] at hjoin
    have hback : '\\'.toNat = 92 := rfl
    omega
  · omega

/-- The standard writer escapes, besides what must be, only what is not printable ASCII. -/
lemma escapeChar_of_not {c : Char} (hc : ¬MustEscape c) :
    escapeChar c = if c.toNat ≤ 126 then [c]
      else if c.toNat < 65536 then unicodeEscape c.toNat
      else unicodeEscape (55296 + (c.toNat - 65536) / 1024 % 1024) ++
        unicodeEscape (56320 + (c.toNat - 65536) % 1024) := by
  simp only [MustEscape, not_or, not_lt] at hc
  obtain ⟨hquote, hback, hctl⟩ := hc
  have hne : ∀ d : Char, d.toNat < 32 → c ≠ d := by
    rintro d hd rfl
    omega
  rw [escapeChar, if_neg hquote, if_neg hback, if_neg (hne _ (by decide)),
    if_neg (hne _ (by decide)), if_neg (hne _ (by decide)), if_neg (by omega), if_neg (by omega)]
  simp only [hctl, true_and]

/-- The text between the quotes of a literal whose characters are written by `spell`. -/
def spelled (spell : Char → PyText) (s : String) : PyText := s.toList.flatMap spell

/-- What a code point of a literal weighs when it is written by `spell`. -/
def unitWeight (w : PyChar → ℕ) (spell : Char → PyText) : PyChar → ℕ
  | .scalar c => weigh w (spell c)
  | .high _ | .low _ => weigh w (spell '\uFFFD')

/-- No way to write a character in a literal is lighter than `spell`, and nothing that stands between
the tokens weighs anything. -/
structure Lightest (w : PyChar → ℕ) (spell : Char → PyText) : Prop where
  between : ∀ c ∈ [' ', ',', ':', '[', ']', '{', '}'], w (.scalar c) = 0
  plain : ∀ c, ¬MustEscape c → weigh w (spell c) ≤ w (.scalar c)
  half : ∀ u, (∀ c, u ≠ .scalar c) → weigh w (spell '\uFFFD') ≤ w u
  simple : ∀ e c, simpleEscape e = some c →
    weigh w (spell c) ≤ w (.scalar '\\') + w (.scalar e)
  numbered : ∀ n < 65536, ∀ u, chr n = some u →
    unitWeight w spell u ≤ w (.scalar '\\') + w (.scalar 'u')
  joined : ∀ h l, weigh w (spell (join h l)) ≤ 2 * weigh w (spell '\uFFFD')

lemma lt_of_hexPrefix {k acc n : ℕ} {cs : PyText} (h : hexPrefix k acc cs = some n) :
    n < 16 ^ k * (acc + 1) := by
  induction k generalizing acc cs with
  | zero =>
    obtain rfl := Option.some.inj h
    omega
  | succ k ih =>
    match cs, h with
    | .scalar c :: cs, h =>
      obtain ⟨d, hd, hrest⟩ := Option.bind_eq_some_iff.mp h
      have hlt : d < 16 := by
        unfold hexValue at hd
        have hrange : ∀ a b : Char, a ≤ c ∧ c ≤ b → a.toNat ≤ c.toNat ∧ c.toNat ≤ b.toNat :=
          fun a b hab => ⟨hab.1, hab.2⟩
        split_ifs at hd with hdigit hlower hupper
        · have hbounds := hrange _ _ hdigit
          have heq := Option.some.inj hd
          have hnine : '9'.toNat = 57 := rfl
          omega
        · have hbounds := hrange _ _ hlower
          have heq := Option.some.inj hd
          have hf : 'f'.toNat = 102 := rfl
          omega
        · have hbounds := hrange _ _ hupper
          have heq := Option.some.inj hd
          have hf : 'F'.toNat = 70 := rfl
          omega
      calc n < 16 ^ k * (16 * acc + d + 1) := ih hrest
        _ ≤ 16 ^ k * (16 * (acc + 1)) := Nat.mul_le_mul_left _ (by omega)
        _ = 16 ^ (k + 1) * (acc + 1) := by rw [pow_succ, mul_assoc]

section Lightest

variable {w : PyChar → ℕ} {spell : Char → PyText}

lemma weigh_spelled (t : PyText) :
    weigh w (spelled spell (toText t)) = weigh (unitWeight w spell) t := by
  rw [spelled, toText, String.toList_ofList]
  induction t with
  | nil => rfl
  | cons u us ih =>
    rw [List.map_cons, List.flatMap_cons, weigh_append, ih, weigh_cons]
    cases u with
    | scalar c => rfl
    | high n => rfl
    | low n => rfl

lemma weigh_joinUnits_le (hw : Lightest w spell) (us : List (PyChar × Bool)) :
    weigh (unitWeight w spell) (joinUnits us) ≤ weigh (unitWeight w spell) (us.map Prod.fst) := by
  fun_induction joinUnits us with
  | case1 h l us ih =>
    have hpair := hw.joined h l
    simp only [weigh_cons, List.map_cons, unitWeight]
    omega
  | case2 u us hshape ih =>
    simp only [weigh_cons, List.map_cons]
    omega
  | case3 => exact le_rfl

lemma weigh_of_scanUnits (hw : Lightest w spell) {cs : PyText} {r : List (PyChar × Bool) × PyText}
    (h : scanUnits cs = some r) :
    weigh (unitWeight w spell) (r.1.map Prod.fst) + w (.scalar '"') + weigh w r.2 ≤ weigh w cs := by
  fun_induction scanUnits cs generalizing r with
  | case1 => cases h
  | case2 cs =>
    obtain rfl := Option.some.inj h
    simp
  | case3 a b c d cs hne ih =>
    obtain ⟨n, hn, h⟩ := Option.bind_eq_some_iff.mp h
    obtain ⟨unit, hchr, h⟩ := Option.bind_eq_some_iff.mp h
    obtain ⟨⟨units, rest⟩, hscan, h⟩ := Option.bind_eq_some_iff.mp h
    have hrest := ih hscan
    have hunit := hw.numbered n (lt_of_hexPrefix hn) unit hchr
    obtain rfl := Option.some.inj h
    simp only [List.map_cons, weigh_cons] at hrest ⊢
    omega
  | case4 e cs hnot hne ih =>
    obtain ⟨unit, hunit, h⟩ := Option.bind_eq_some_iff.mp h
    obtain ⟨⟨units, rest⟩, hscan, h⟩ := Option.bind_eq_some_iff.mp h
    have hrest := ih hscan
    have hchar := hw.simple e unit hunit
    obtain rfl := Option.some.inj h
    simp only [List.map_cons, weigh_cons, unitWeight] at hrest ⊢
    omega
  | case5 => cases h
  | case6 => cases h
  | case7 c cs hne hslash hctl ih =>
    obtain ⟨r', hscan, rfl⟩ := Option.map_eq_some_iff.mp h
    have hrest := ih hscan
    have hnot : ¬MustEscape c := by
      rintro (heq | heq | hlt)
      · exact hne heq
      · exact hslash heq
      · exact hctl hlt
    have hchar := hw.plain c hnot
    simp only [List.map_cons, weigh_cons, unitWeight] at hrest ⊢
    omega
  | case8 u cs hshape ih =>
    obtain ⟨r', hscan, rfl⟩ := Option.map_eq_some_iff.mp h
    have hrest := ih hscan
    have hhalf := hw.half u fun c => hshape c
    have hunit : unitWeight w spell u = weigh w (spell '\uFFFD') := by
      cases u with
      | scalar c => exact (hshape c rfl).elim
      | high n => rfl
      | low n => rfl
    simp only [List.map_cons, weigh_cons, hunit] at hrest ⊢
    omega

/-- **A string literal** weighs at least as much as the lightest literal of what it stands for. -/
lemma weigh_of_scanString (hw : Lightest w spell) {cs k rest : PyText}
    (h : scanString cs = some (k, rest)) :
    weigh w (spelled spell (toText k)) + w (.scalar '"') + weigh w rest ≤ weigh w cs := by
  obtain ⟨⟨units, rest'⟩, hscan, hpair⟩ := Option.map_eq_some_iff.mp h
  obtain ⟨rfl, rfl⟩ := Prod.mk.inj hpair
  have hunits := weigh_of_scanUnits hw hscan
  have hjoin := weigh_joinUnits_le hw units
  rw [weigh_spelled]
  dsimp only at hunits ⊢
  omega

/-! ## The weight of a value -/

lemma weigh_literal (body : String → PyText) (s : String) :
    weigh w (literal body s) = weigh w (body s) + 2 * w (.scalar '"') := by
  rw [literal, weigh_cons, weigh_append, weigh_cons, weigh_nil]
  omega

/-- The weight of a member: its name and its value. -/
def memberWeight (w : PyChar → ℕ) (spell : Char → PyText) (m : String × Json) : ℕ :=
  weigh w (literal (spelled spell) m.1) + weigh w (writeWith (spelled spell) m.2)

lemma weigh_writeItems (hw : Lightest w spell) (vs : List Json) :
    weigh w (writeItemsWith (spelled spell) vs) =
      (vs.map fun v => weigh w (writeWith (spelled spell) v)).sum := by
  have hcomma := hw.between ',' (by simp)
  have hspace := hw.between ' ' (by simp)
  induction vs with
  | nil => rfl
  | cons v vs ih =>
    cases vs with
    | nil => simp [writeItemsWith]
    | cons v' vs =>
      rw [writeItemsWith, weigh_append, weigh_cons, weigh_cons, ih, hcomma, hspace]
      simp only [List.map_cons, List.sum_cons]
      omega

lemma weigh_writeMembers (hw : Lightest w spell) (ms : List (String × Json)) :
    weigh w (writeMembersWith (spelled spell) ms) = (ms.map (memberWeight w spell)).sum := by
  have hcolon := hw.between ':' (by simp)
  have hcomma := hw.between ',' (by simp)
  have hspace := hw.between ' ' (by simp)
  induction ms with
  | nil => rfl
  | cons m ms ih =>
    cases ms with
    | nil => simp [writeMembersWith, memberWeight, hcolon, hspace]
    | cons m' ms =>
      rw [writeMembersWith, weigh_append, weigh_cons, weigh_cons, weigh_append, weigh_cons,
        weigh_cons, ih, hcolon, hcomma, hspace]
      simp only [List.map_cons, List.sum_cons, memberWeight]
      omega

lemma weigh_writeWith_arr (hw : Lightest w spell) (vs : List Json) :
    weigh w (writeWith (spelled spell) (.arr vs)) =
      (vs.map fun v => weigh w (writeWith (spelled spell) v)).sum := by
  have hopen := hw.between '[' (by simp)
  have hclose := hw.between ']' (by simp)
  rw [writeWith, weigh_cons, weigh_append, weigh_writeItems hw, weigh_cons, weigh_nil, hopen, hclose]
  omega

lemma weigh_writeWith_obj (hw : Lightest w spell) (ms : List (String × Json)) :
    weigh w (writeWith (spelled spell) (.obj ms)) = (ms.map (memberWeight w spell)).sum := by
  have hopen := hw.between '\x7b' (by simp)
  have hclose := hw.between '\x7d' (by simp)
  rw [writeWith, weigh_cons, weigh_append, weigh_writeMembers hw, weigh_cons, weigh_nil, hopen,
    hclose]
  omega

/-- The dictionary of the members weighs no more than the members. -/
lemma sum_dictOf_le (f : String × Json → ℕ) (ms : List (String × Json)) :
    ((dictOf ms).map f).sum ≤ (ms.map f).sum := by
  have hassign : ∀ (m : String × Json) (d : List (String × Json)),
      ((PyDict.assign m.1 m.2 d).map f).sum ≤ f m + (d.map f).sum := by
    intro m d
    induction d with
    | nil => simp [PyDict.assign]
    | cons e es ih =>
      rw [PyDict.assign]
      split_ifs
      · simp
      · simp only [List.map_cons, List.sum_cons]
        omega
  have hfold : ∀ (l d : List (String × Json)),
      ((l.foldl (fun d m => PyDict.assign m.1 m.2 d) d).map f).sum ≤
        (l.map f).sum + (d.map f).sum := by
    intro l
    induction l with
    | nil => simp
    | cons m l ih =>
      intro d
      have hrest := ih (PyDict.assign m.1 m.2 d)
      have hstep := hassign m d
      simp only [List.foldl_cons, List.map_cons, List.sum_cons]
      omega
  have hempty := hfold ms []
  rwa [List.map_nil, List.sum_nil, Nat.add_zero] at hempty

lemma weigh_skipSpace_le (w : PyChar → ℕ) (cs : PyText) : weigh w (skipSpace cs) ≤ weigh w cs :=
  weigh_le_of_suffix (skipSpace_suffix cs)

lemma weigh_of_skipSpace (w : PyChar → ℕ) {r rest : PyText} {u : PyChar} (h : skipSpace r = u :: rest) :
    weigh w rest ≤ weigh w r :=
  weigh_le_of_suffix ((List.suffix_cons u rest).trans (suffix_of_skipSpace h))

lemma weigh_of_scanScalar (body : String → PyText) {cs rest : PyText} {v : Json}
    (h : scanScalar cs = some (v, rest)) :
    weigh w (writeWith body v) + weigh w rest = weigh w cs := by
  have hkeyword : ∀ e ∈ keywords, weigh w (writeWith body e.2) = weigh w (ofChars e.1.toList) := by
    simp only [keywords, List.forall_mem_cons]
    refine ⟨?_, ?_, ?_, ?_, ?_, ?_, ?_⟩ <;> simp [writeWith]
  rcases eq_of_scanScalar h with ⟨word, hmem, rfl⟩ | ⟨lit, rfl, rfl, -⟩
  · rw [weigh_append, ← hkeyword _ hmem]
  · rw [weigh_append]
    rfl

/-- What the reader takes weighs at least as much as the lightest text of what it reads. -/
lemma weigh_of_parse (hw : Lightest w spell) (n : ℕ) :
    (∀ cs v rest, parseValue n cs = some (v, rest) →
      weigh w (writeWith (spelled spell) v) + weigh w rest ≤ weigh w cs) ∧
    (∀ cs vs rest, parseItems n cs = some (vs, rest) →
      (vs.map fun v => weigh w (writeWith (spelled spell) v)).sum + weigh w rest ≤ weigh w cs) ∧
    (∀ cs ms rest, parseMembers n cs = some (ms, rest) →
      (ms.map (memberWeight w spell)).sum + weigh w rest ≤ weigh w cs) := by
  induction n with
  | zero => exact ⟨nofun, nofun, nofun⟩
  | succ n ih =>
    obtain ⟨ihValue, ihItems, ihMembers⟩ := ih
    refine ⟨fun cs v rest h => ?_, fun cs vs rest h => ?_, fun cs ms rest h => ?_⟩
    · unfold parseValue at h
      split at h
      · rename_i cs
        obtain ⟨⟨k, rest'⟩, hk, hpair⟩ := Option.map_eq_some_iff.mp h
        obtain ⟨rfl, rfl⟩ := Prod.mk.inj hpair
        have hstring := weigh_of_scanString hw hk
        show weigh w (literal (spelled spell) (toText k)) + _ ≤ _
        rw [weigh_literal, weigh_cons]
        dsimp only
        omega
      · rename_i cs
        rw [weigh_cons]
        split at h
        · rename_i rest' hclose
          obtain ⟨rfl, rfl⟩ := Prod.mk.inj (Option.some.inj h)
          have hrest := weigh_of_skipSpace w hclose
          rw [weigh_writeWith_arr hw, List.map_nil, List.sum_nil]
          omega
        · obtain ⟨⟨vs, rest'⟩, hitems, hpair⟩ := Option.map_eq_some_iff.mp h
          obtain ⟨rfl, rfl⟩ := Prod.mk.inj hpair
          have hsum := ihItems _ _ _ hitems
          have hskip := weigh_skipSpace_le w cs
          rw [weigh_writeWith_arr hw]
          dsimp only
          omega
      · rename_i cs
        rw [weigh_cons]
        split at h
        · rename_i rest' hclose
          obtain ⟨rfl, rfl⟩ := Prod.mk.inj (Option.some.inj h)
          have hrest := weigh_of_skipSpace w hclose
          rw [weigh_writeWith_obj hw, List.map_nil, List.sum_nil]
          omega
        · obtain ⟨⟨ms, rest'⟩, hmembers, hpair⟩ := Option.map_eq_some_iff.mp h
          obtain ⟨rfl, rfl⟩ := Prod.mk.inj hpair
          have hsum := ihMembers _ _ _ hmembers
          have hdict := sum_dictOf_le (memberWeight w spell) ms
          have hskip := weigh_skipSpace_le w cs
          rw [weigh_writeWith_obj hw]
          dsimp only
          omega
      · exact (weigh_of_scanScalar _ h).le
    · obtain ⟨m, v, r, hm, hv, hloop⟩ := parseItems_inv h
      obtain rfl := Nat.succ.inj hm
      have hvalue := ihValue _ _ _ hv
      rcases hloop with ⟨hclose, rfl⟩ | ⟨r', vs', hcomma, hitems, rfl⟩
      · have hrest := weigh_of_skipSpace w hclose
        simp only [List.map_cons, List.map_nil, List.sum_cons, List.sum_nil]
        omega
      · have hrest := weigh_of_skipSpace w hcomma
        have hskip := weigh_skipSpace_le w r'
        have hsum := ihItems _ _ _ hitems
        simp only [List.map_cons, List.sum_cons]
        omega
    · obtain ⟨m, cs', k, r, r', v, r'', hm, rfl, hk, hcolon, hv, hloop⟩ := parseMembers_inv h
      obtain rfl := Nat.succ.inj hm
      have hname := weigh_of_scanString hw hk
      have hafter := weigh_of_skipSpace w hcolon
      have hskip := weigh_skipSpace_le w r'
      have hvalue := ihValue _ _ _ hv
      have hmember : memberWeight w spell (toText k, v) =
          weigh w (spelled spell (toText k)) + 2 * w (.scalar '"') +
            weigh w (writeWith (spelled spell) v) := by
        rw [memberWeight, weigh_literal]
      rw [weigh_cons, doubleQuote]
      rcases hloop with ⟨hclose, rfl⟩ | ⟨t, ms', hcomma, hmembers, rfl⟩
      · have hrest := weigh_of_skipSpace w hclose
        simp only [List.map_cons, List.map_nil, List.sum_cons, List.sum_nil, hmember]
        omega
      · have hrest := weigh_of_skipSpace w hcomma
        have hskip' := weigh_skipSpace_le w t
        have hsum := ihMembers _ _ _ hmembers
        simp only [List.map_cons, List.sum_cons, hmember]
        omega

/-- **The lightest text**: a text that reads as a value weighs at least as much as the text of the
value in which every character is written by `spell`. -/
theorem weigh_le_of_loads (hw : Lightest w spell) {t : PyText} {v : Json} (h : loads t = some v) :
    weigh w (writeWith (spelled spell) v) ≤ weigh w t := by
  unfold loads at h
  split at h
  · rename_i v' rest hparse
    split_ifs at h
    obtain rfl := Option.some.inj h
    have hvalue := (weigh_of_parse hw _).1 _ _ _ hparse
    have hskip := weigh_skipSpace_le w t
    omega
  · cases h

end Lightest

/-! ## The least text -/

/-- The quotes and the characters that escapes are made of. -/
def mark : PyChar → ℕ
  | .scalar c => if c = '"' ∨ c = '\\' ∨ c = 'u' ∨ c = 'U' ∨ c = 'x' then 1 else 0
  | _ => 0

lemma neZero_surrogates : NeZero 1024 := inferInstance

attribute [local instance] neZero_surrogates in
/-- A character of the least text: only what must be escaped is. -/
def leastChar (c : Char) : PyText :=
  if MustEscape c then ofChars (escapeChar c)
  else if c.toNat < 65536 then [.scalar c]
  else [.high (Fin.ofNat 1024 ((c.toNat - 65536) / 1024)),
    .low (Fin.ofNat 1024 ((c.toNat - 65536) % 1024))]

/-- The text between the quotes of a literal in the least text. -/
def leastBody (s : String) : PyText := s.toList.flatMap leastChar

def leastText (v : Json) : PyText := writeWith leastBody v

lemma mark_le_one (u : PyChar) : mark u ≤ 1 := by
  unfold mark
  split
  · split_ifs <;> omega
  · exact Nat.zero_le 1

lemma mark_of_le_toNat {c : Char} (hc : 127 ≤ c.toNat) : mark (.scalar c) = 0 := by
  have hne : ∀ d : Char, d.toNat < 127 → c ≠ d := by
    rintro d hd rfl
    omega
  simp [mark, hne '"' (by decide), hne '\\' (by decide), hne 'u' (by decide), hne 'U' (by decide),
    hne 'x' (by decide)]

lemma weigh_leastChar_of_not {c : Char} (hc : ¬MustEscape c) :
    weigh mark (leastChar c) = mark (.scalar c) := by
  rw [leastChar, if_neg hc]
  split_ifs with hplane
  · simp
  · rw [mark_of_le_toNat (by omega)]
    rfl

lemma weigh_leastChar_le (c : Char) : weigh mark (leastChar c) ≤ 2 := by
  by_cases hc : MustEscape c
  · obtain rfl | rfl | hctl := id hc
    · decide
    · decide
    · have hall : ∀ n < 32, weigh mark (leastChar (Char.ofNat n)) ≤ 2 := by decide
      have hn := hall c.toNat hctl
      rwa [Char.ofNat_toNat] at hn
  · rw [weigh_leastChar_of_not hc]
    exact (mark_le_one _).trans (by decide)

/-- A character that a one-character escape stands for weighs no more than the escape. -/
lemma weigh_leastChar_of_simpleEscape {e c : Char} (h : simpleEscape e = some c) :
    weigh mark (leastChar c) ≤ 1 + mark (.scalar e) := by
  unfold simpleEscape at h
  split_ifs at h with h₁ h₂ h₃ h₄ h₅ h₆ h₇ h₈ <;> obtain rfl := Option.some.inj h <;>
    subst e <;> decide

lemma lightest_leastChar : Lightest mark leastChar where
  between := by
    simp only [List.forall_mem_cons]
    exact ⟨rfl, rfl, rfl, rfl, rfl, rfl, rfl, nofun⟩
  plain c hc := (weigh_leastChar_of_not hc).le
  half u _ := by
    have hzero : weigh mark (leastChar '\uFFFD') = 0 := by decide
    omega
  simple e c h := by
    have hback : mark (.scalar '\\') = 1 := by decide
    rw [hback]
    exact weigh_leastChar_of_simpleEscape h
  numbered n _ u _ := by
    have htwo : mark (.scalar '\\') + mark (.scalar 'u') = 2 := by decide
    rw [htwo]
    cases u with
    | scalar c => exact weigh_leastChar_le c
    | high n => exact weigh_leastChar_le _
    | low n => exact weigh_leastChar_le _
  joined h l := by
    have hjoin := toNat_join h l
    rw [weigh_leastChar_of_not (not_mustEscape_join h l), mark_of_le_toNat (by omega)]
    exact Nat.zero_le _

/-- **The least text is the lightest**: a text that reads as a value weighs at least as much. -/
theorem weigh_leastText_le {t : PyText} {v : Json} (h : loads t = some v) :
    weigh mark (leastText v) ≤ weigh mark t :=
  weigh_le_of_loads lightest_leastChar h

/-! ## Other texts of a value -/

/-- No character of the string must be escaped. -/
def Unescaped (s : String) : Prop := ∀ c ∈ s.toList, ¬MustEscape c

/-- A literal that holds its string as it is is read back. -/
lemma readBack_ofString {s : String} (hs : Unescaped s) : ReadBack ofString s := by
  intro t
  have hbody : ∀ cs : List Char, (∀ c ∈ cs, ¬MustEscape c) → ∃ units,
      joinUnits units = ofChars cs ∧
        scanUnits (ofChars cs ++ .scalar '"' :: t) = some (units, t) := by
    intro cs
    induction cs with
    | nil => exact fun _ => ⟨[], rfl, scanUnits_quote t⟩
    | cons c cs ih =>
      intro hcs
      obtain ⟨units, hjoin, hscan⟩ := ih fun d hd => hcs d (List.mem_cons_of_mem _ hd)
      have hc := hcs c List.mem_cons_self
      simp only [MustEscape, not_or, not_lt] at hc
      obtain ⟨hquote, hback, hctl⟩ := hc
      refine ⟨(.scalar c, false) :: units, ?_, ?_⟩
      · show PyChar.scalar c :: joinUnits units = _
        rw [hjoin, ofChars_cons]
      · rw [ofChars_cons, List.cons_append, scanUnits_plain hquote hback hctl, hscan]
        rfl
  obtain ⟨units, hjoin, hscan⟩ := hbody s.toList hs
  rw [scanString, ofString, hscan, Option.map_some, hjoin]

section Related

variable {R : PyText → PyText → Prop} {P : String → Prop} {body body' : String → PyText}

lemma related_ofChars (hcons : ∀ c t t', c ≠ '\\' → R t t' → R (.scalar c :: t) (.scalar c :: t'))
    {cs : List Char} (hcs : '\\' ∉ cs) {t t' : PyText} (h : R t t') :
    R (ofChars cs ++ t) (ofChars cs ++ t') := by
  induction cs with
  | nil => exact h
  | cons c cs ih =>
    rw [List.mem_cons, not_or] at hcs
    exact hcons _ _ _ (Ne.symm hcs.1) (ih hcs.2)

lemma backslash_notMem_number (n : NumberLit) : '\\' ∉ n.text.toList := by
  intro hmem
  exact absurd (forall_of_isNumber n.valid _ hmem) (by decide)

lemma related_literal (hcons : ∀ c t t', c ≠ '\\' → R t t' → R (.scalar c :: t) (.scalar c :: t'))
    (hbody : ∀ s, P s → ∀ t t', R t t' → R (body s ++ t) (body' s ++ t')) {s : String} (hs : P s)
    {t t' : PyText} (h : R t t') : R (literal body s ++ t) (literal body' s ++ t') := by
  rw [literal_append, literal_append]
  exact hcons _ _ _ (by decide) (hbody s hs _ _ (hcons _ _ _ (by decide) h))

mutual

/-- Two writers whose literals are related by a relation that goes on over plain characters write
related texts. -/
theorem related_writeWith
    (hcons : ∀ c t t', c ≠ '\\' → R t t' → R (.scalar c :: t) (.scalar c :: t'))
    (hbody : ∀ s, P s → ∀ t t', R t t' → R (body s ++ t) (body' s ++ t')) :
    ∀ v, ForallStrings P v → ∀ t t', R t t' → R (writeWith body v ++ t) (writeWith body' v ++ t')
  | .null, _, _, _, h => related_ofChars hcons (by decide) h
  | .bool false, _, _, _, h => related_ofChars hcons (by decide) h
  | .bool true, _, _, _, h => related_ofChars hcons (by decide) h
  | .number n, _, _, _, h => related_ofChars hcons (backslash_notMem_number n) h
  | .notANumber, _, _, _, h => related_ofChars hcons (by decide) h
  | .infinity, _, _, _, h => related_ofChars hcons (by decide) h
  | .negInfinity, _, _, _, h => related_ofChars hcons (by decide) h
  | .str _, hs, _, _, h => related_literal hcons hbody hs h
  | .arr items, hv, _, _, h => by
      rw [writeWith, writeWith, List.cons_append, List.cons_append, List.append_assoc,
        List.append_assoc]
      exact hcons _ _ _ (by decide)
        (related_writeItemsWith hcons hbody items hv _ _ (hcons _ _ _ (by decide) h))
  | .obj members, hv, _, _, h => by
      rw [writeWith, writeWith, List.cons_append, List.cons_append, List.append_assoc,
        List.append_assoc]
      exact hcons _ _ _ (by decide)
        (related_writeMembersWith hcons hbody members hv _ _ (hcons _ _ _ (by decide) h))

theorem related_writeItemsWith
    (hcons : ∀ c t t', c ≠ '\\' → R t t' → R (.scalar c :: t) (.scalar c :: t'))
    (hbody : ∀ s, P s → ∀ t t', R t t' → R (body s ++ t) (body' s ++ t')) :
    ∀ vs, ForallStringsItems P vs → ∀ t t', R t t' →
      R (writeItemsWith body vs ++ t) (writeItemsWith body' vs ++ t')
  | [], _, _, _, h => h
  | [v], hv, _, _, h => related_writeWith hcons hbody v hv.1 _ _ h
  | v :: w :: vs, hv, _, _, h => by
      rw [writeItemsWith, writeItemsWith, List.append_assoc, List.append_assoc]
      exact related_writeWith hcons hbody v hv.1 _ _ (hcons _ _ _ (by decide)
        (hcons _ _ _ (by decide) (related_writeItemsWith hcons hbody (w :: vs) hv.2 _ _ h)))

theorem related_writeMembersWith
    (hcons : ∀ c t t', c ≠ '\\' → R t t' → R (.scalar c :: t) (.scalar c :: t'))
    (hbody : ∀ s, P s → ∀ t t', R t t' → R (body s ++ t) (body' s ++ t')) :
    ∀ ms, ForallStringsMembers P ms → ∀ t t', R t t' →
      R (writeMembersWith body ms ++ t) (writeMembersWith body' ms ++ t')
  | [], _, _, _, h => h
  | [m], hm, _, _, h => by
      rw [writeMembersWith, writeMembersWith, List.append_assoc, List.append_assoc]
      exact related_literal hcons hbody hm.1 (hcons _ _ _ (by decide)
        (hcons _ _ _ (by decide) (related_writeWith hcons hbody m.2 hm.2.1 _ _ h)))
  | m :: m' :: ms, hm, _, _, h => by
      rw [writeMembersWith, writeMembersWith, List.append_assoc, List.append_assoc,
        List.cons_append, List.cons_append, List.cons_append, List.cons_append, List.append_assoc,
        List.append_assoc]
      exact related_literal hcons hbody hm.1 (hcons _ _ _ (by decide) (hcons _ _ _ (by decide)
        (related_writeWith hcons hbody m.2 hm.2.1 _ _ (hcons _ _ _ (by decide)
          (hcons _ _ _ (by decide) (related_writeMembersWith hcons hbody (m' :: ms) hm.2.2 _ _ h))))))

end

end Related

end Json
