import AtlasMemory.Foundations.LeastText
import Mathlib.Algebra.Order.BigOperators.Group.List

/-!
# Parts of a text

What can be read from a part of a written text.  A reader that has read a value up to its closing
character reads the same value when the text goes on (`parse_append`), so no proper prefix of a
written array or object is read as anything (`loads_eq_none_of_prefix`).

A part that leaves out a back-tick is read, if at all, as something lighter than the value that was
written: `tickWeight` is a weight under which the standard writer's spelling is the lightest and a
back-tick weighs something.
-/

namespace Json

open PyText

/-! ## Texts that go on -/

lemma skipSpace_append {cs : PyText} (h : skipSpace cs ≠ []) (t : PyText) :
    skipSpace (cs ++ t) = skipSpace cs ++ t := by
  rw [skipSpace, List.dropWhile_append]
  exact if_neg fun hempty => h (List.isEmpty_iff.mp hempty)

lemma skipSpace_append_cons {cs us : PyText} {u : PyChar} (h : skipSpace cs = u :: us)
    (t : PyText) : skipSpace (cs ++ t) = u :: (us ++ t) := by
  rw [skipSpace_append (by simp [h]), h, List.cons_append]

lemma scanUnits_append {cs : PyText} {r : List (PyChar × Bool) × PyText}
    (h : scanUnits cs = some r) (t : PyText) : scanUnits (cs ++ t) = some (r.1, r.2 ++ t) := by
  fun_induction scanUnits cs generalizing r with
  | case1 => cases h
  | case2 cs =>
    obtain rfl := Option.some.inj h
    exact scanUnits_quote (cs ++ t)
  | case3 a b c d cs hne ih =>
    obtain ⟨n, hn, h⟩ := Option.bind_eq_some_iff.mp h
    obtain ⟨unit, hunit, h⟩ := Option.bind_eq_some_iff.mp h
    obtain ⟨⟨units, rest⟩, hscan, h⟩ := Option.bind_eq_some_iff.mp h
    obtain rfl := Option.some.inj h
    simp only [List.cons_append]
    rw [scanUnits]
    simp [hn, hunit, ih hscan]
  | case4 e cs hnot hne ih =>
    obtain ⟨unit, hunit, h⟩ := Option.bind_eq_some_iff.mp h
    obtain ⟨⟨units, rest⟩, hscan, h⟩ := Option.bind_eq_some_iff.mp h
    obtain rfl := Option.some.inj h
    have hu : e ≠ 'u' := by
      rintro rfl
      have hnone : simpleEscape 'u' = none := by decide
      rw [hnone] at hunit
      cases hunit
    simp only [List.cons_append]
    rw [scanUnits]
    · simp [hunit, ih hscan]
    · exact fun _ _ _ _ _ _ heq => hu heq
  | case5 => cases h
  | case6 => cases h
  | case7 c cs hne hslash hctl ih =>
    obtain ⟨r', hscan, rfl⟩ := Option.map_eq_some_iff.mp h
    rw [List.cons_append, scanUnits_plain hne hslash (not_lt.mp hctl), ih hscan]
    rfl
  | case8 u cs hshape ih =>
    obtain ⟨r', hscan, rfl⟩ := Option.map_eq_some_iff.mp h
    rw [List.cons_append, scanUnits, ih hscan]
    · rfl
    · exact hshape

lemma scanString_append {cs k rest : PyText} (h : scanString cs = some (k, rest)) (t : PyText) :
    scanString (cs ++ t) = some (k, rest ++ t) := by
  obtain ⟨⟨units, rest'⟩, hscan, hpair⟩ := Option.map_eq_some_iff.mp h
  obtain ⟨rfl, rfl⟩ := Prod.mk.inj hpair
  rw [scanString, scanUnits_append hscan, Option.map_some]

/-- A number may go on when the text does, unless something stands after it. -/
lemma scanScalar_append {cs rest : PyText} {v : Json} (h : scanScalar cs = some (v, rest))
    (hne : rest ≠ []) (t : PyText) : scanScalar (cs ++ t) = some (v, rest ++ t) := by
  rcases eq_of_scanScalar h with ⟨word, hmem, rfl⟩ | ⟨lit, rfl, rfl, hdelimited⟩
  · rw [List.append_assoc]
    simp only [keywords, List.mem_cons, Prod.mk.injEq, List.not_mem_nil, or_false] at hmem
    rcases hmem with ⟨rfl, rfl⟩ | ⟨rfl, rfl⟩ | ⟨rfl, rfl⟩ | ⟨rfl, rfl⟩ | ⟨rfl, rfl⟩ | ⟨rfl, rfl⟩
    · exact scanScalar_null _
    · exact scanScalar_bool true _
    · exact scanScalar_bool false _
    · exact scanScalar_notANumber _
    · exact scanScalar_infinity _
    · exact scanScalar_negInfinity _
  · rw [List.append_assoc]
    refine scanScalar_number lit fun u us heq => ?_
    obtain ⟨x, xs, rfl⟩ := List.exists_cons_of_ne_nil hne
    rw [← (List.cons.inj heq).1]
    exact hdelimited x xs rfl

/-- The text starts with a character that has a closing one. -/
def OpensValue (cs : PyText) : Prop :=
  ∃ c us, cs = .scalar c :: us ∧ (c = '"' ∨ c = '[' ∨ c = '\x7b')

/-- **A text that goes on**: what was read up to its closing character, or up to something else that
stands after it, is read with more fuel and with more text behind. -/
lemma parse_append (n : ℕ) :
    (∀ cs v rest, parseValue n cs = some (v, rest) → OpensValue cs ∨ rest ≠ [] →
      ∀ m ≥ n, ∀ t, parseValue m (cs ++ t) = some (v, rest ++ t)) ∧
    (∀ cs vs rest, parseItems n cs = some (vs, rest) →
      ∀ m ≥ n, ∀ t, parseItems m (cs ++ t) = some (vs, rest ++ t)) ∧
    (∀ cs ms rest, parseMembers n cs = some (ms, rest) →
      ∀ m ≥ n, ∀ t, parseMembers m (cs ++ t) = some (ms, rest ++ t)) := by
  induction n with
  | zero => exact ⟨nofun, nofun, nofun⟩
  | succ n ih =>
    obtain ⟨ihValue, ihItems, ihMembers⟩ := ih
    have hne : ∀ {r : PyText} {u : PyChar} {us : PyText}, skipSpace r = u :: us → r ≠ [] := by
      rintro r u us hr rfl
      cases hr
    have hcons : ∀ {r us : PyText} {u : PyChar}, u :: us <:+ r → r ≠ [] := by
      rintro r us u hr rfl
      exact List.cons_ne_nil _ _ (List.suffix_nil.mp hr)
    refine ⟨fun cs v rest h hend m hm t => ?_, fun cs vs rest h m hm t => ?_,
      fun cs ms rest h m hm t => ?_⟩
    · obtain ⟨m, rfl⟩ := Nat.exists_eq_succ_of_ne_zero (Nat.ne_zero_of_lt hm)
      have hm := Nat.le_of_succ_le_succ hm
      unfold parseValue at h
      split at h
      · rename_i cs
        obtain ⟨⟨k, rest'⟩, hk, hpair⟩ := Option.map_eq_some_iff.mp h
        obtain ⟨rfl, rfl⟩ := Prod.mk.inj hpair
        show (scanString (cs ++ t)).map _ = _
        rw [scanString_append hk, Option.map_some]
      · rename_i cs
        split at h
        · rename_i rest' hclose
          obtain ⟨rfl, rfl⟩ := Prod.mk.inj (Option.some.inj h)
          rw [List.cons_append, parseValue, skipSpace_append_cons hclose]
          rfl
        · rename_i hclose
          obtain ⟨⟨vs, rest'⟩, hitems, hpair⟩ := Option.map_eq_some_iff.mp h
          obtain ⟨rfl, rfl⟩ := Prod.mk.inj hpair
          have hmore := ihItems _ _ _ hitems m hm t
          obtain ⟨u, us, hus⟩ := List.exists_cons_of_ne_nil
            (hcons ((closed_of_parse n).2.1 _ _ _ hitems))
          rw [hus] at hmore
          rw [List.cons_append, parseValue_arr (skipSpace_append_cons hus t)
            (fun heq => hclose us (heq ▸ hus))]
          rw [← List.cons_append, hmore]
          rfl
      · rename_i cs
        split at h
        · rename_i rest' hclose
          obtain ⟨rfl, rfl⟩ := Prod.mk.inj (Option.some.inj h)
          rw [List.cons_append, parseValue, skipSpace_append_cons hclose]
          rfl
        · rename_i hclose
          obtain ⟨⟨ms, rest'⟩, hmembers, hpair⟩ := Option.map_eq_some_iff.mp h
          obtain ⟨rfl, rfl⟩ := Prod.mk.inj hpair
          have hmore := ihMembers _ _ _ hmembers m hm t
          obtain ⟨u, us, hus⟩ := List.exists_cons_of_ne_nil
            (hcons ((closed_of_parse n).2.2 _ _ _ hmembers))
          rw [hus] at hmore
          rw [List.cons_append, parseValue_obj (skipSpace_append_cons hus t)
            (fun heq => hclose us (heq ▸ hus))]
          rw [← List.cons_append, hmore]
          rfl
      · rename_i hquote harr hobj
        have hne : rest ≠ [] := by
          refine hend.resolve_left ?_
          rintro ⟨c, us, rfl, rfl | rfl | rfl⟩
          · exact hquote us rfl
          · exact harr us rfl
          · exact hobj us rfl
        cases cs with
        | nil => cases h
        | cons u us =>
          rw [List.cons_append, parseValue]
          · exact scanScalar_append h hne t
          · rintro us' heq
            exact hquote us (by rw [(List.cons.inj heq).1])
          · rintro us' heq
            exact harr us (by rw [(List.cons.inj heq).1])
          · rintro us' heq
            exact hobj us (by rw [(List.cons.inj heq).1])
    · obtain ⟨n', v, r, hn, hv, hloop⟩ := parseItems_inv h
      obtain rfl := Nat.succ.inj hn
      obtain ⟨m, rfl⟩ := Nat.exists_eq_succ_of_ne_zero (Nat.ne_zero_of_lt hm)
      have hm := Nat.le_of_succ_le_succ hm
      rcases hloop with ⟨hclose, rfl⟩ | ⟨r', vs', hcomma, hitems, rfl⟩
      · have hvalue := ihValue _ _ _ hv (Or.inr (hne hclose)) m hm t
        exact parseItems_last hvalue (skipSpace_append_cons hclose t)
      · have hvalue := ihValue _ _ _ hv (Or.inr (hne hcomma)) m hm t
        have hmore := ihItems _ _ _ hitems m hm t
        refine parseItems_cons hvalue (skipSpace_append_cons hcomma t) ?_
        rw [skipSpace_append (hcons ((closed_of_parse n).2.1 _ _ _ hitems))]
        exact hmore
    · obtain ⟨n', cs', k, r, r', v, r'', hn, rfl, hk, hcolon, hv, hloop⟩ := parseMembers_inv h
      obtain rfl := Nat.succ.inj hn
      obtain ⟨m, rfl⟩ := Nat.exists_eq_succ_of_ne_zero (Nat.ne_zero_of_lt hm)
      have hm := Nat.le_of_succ_le_succ hm
      have hafter : ∀ {u us}, skipSpace r'' = u :: us → skipSpace (r' ++ t) = skipSpace r' ++ t ∧
          parseValue m (skipSpace r' ++ t) = some (v, r'' ++ t) := by
        intro u us hr''
        have hsuffix := suffix_of_scanScalar_or_closed ((closed_of_parse n).1 _ _ _ hv)
        refine ⟨skipSpace_append (fun hnil => hne hr'' ?_) t, ihValue _ _ _ hv (.inr (hne hr'')) m hm t⟩
        rw [hnil] at hsuffix
        exact List.suffix_nil.mp hsuffix
      rcases hloop with ⟨hclose, rfl⟩ | ⟨t', ms', hcomma, hmembers, rfl⟩
      · obtain ⟨hskip, hvalue⟩ := hafter hclose
        exact parseMembers_last (scanString_append hk t) (skipSpace_append_cons hcolon t)
          (by rw [hskip, hvalue]) (skipSpace_append_cons hclose t)
      · obtain ⟨hskip, hvalue⟩ := hafter hcomma
        refine parseMembers_cons (scanString_append hk t) (skipSpace_append_cons hcolon t)
          (by rw [hskip, hvalue]) (skipSpace_append_cons hcomma t) ?_
        rw [skipSpace_append (hcons ((closed_of_parse n).2.2 _ _ _ hmembers))]
        exact ihMembers _ _ _ hmembers m hm t

lemma parseValue_writeWith {body : String → PyText} {v : Json}
    (hv : ForallStrings (ReadBack body) v) {n : ℕ} (hn : (writeWith body v).length ≤ n) :
    parseValue n (writeWith body v) = some (canonical v, []) := by
  rw [← writeLaid_compact body v 0] at hn ⊢
  have hparse := parseValue_writeLaid v 0 hv n [] hn delimited_nil
  rwa [List.append_nil] at hparse

/-- **A proper prefix** of a written text that has a closing character is not the text of
anything. -/
theorem loads_eq_none_of_prefix {body : String → PyText} {v : Json}
    (hv : ForallStrings (ReadBack body) v) (hopen : OpensValue (writeWith body v)) {p q : PyText}
    (heq : writeWith body v = p ++ q) (hq : q ≠ []) : loads p = none := by
  by_contra hne
  obtain ⟨w, hw⟩ := Option.ne_none_iff_exists'.mp hne
  unfold loads at hw
  split at hw
  · rename_i v' rest hparse
    obtain ⟨c, us, hcons, hc⟩ := hopen
    rw [heq] at hcons
    cases p with
    | nil => cases hparse
    | cons u us' =>
      obtain rfl := (List.cons.inj hcons).1
      have hskip : skipSpace (.scalar c :: us') = .scalar c :: us' := by
        refine skipSpace_cons ?_ us'
        rcases hc with rfl | rfl | rfl <;> rfl
      rw [hskip] at hparse
      have hlen := Nat.le_max_left ((PyChar.scalar c :: us').length + 1) (writeWith body v).length
      have hmore := (parse_append _).1 _ _ _ hparse (.inl ⟨c, us', rfl, hc⟩) _ hlen q
      have hwhole := parseValue_writeWith hv (Nat.le_max_right
        ((PyChar.scalar c :: us').length + 1) (writeWith body v).length)
      rw [heq] at hwhole
      rw [heq, hwhole] at hmore
      have hnil := (Prod.mk.inj (Option.some.inj hmore)).2
      exact hq (List.append_eq_nil_iff.mp hnil.symm).2
  · cases hw

/-! ## The weight of back-ticks -/

/-- The weight of a back-tick is one, and so is that of the letter of a numbered escape and of
whatever the standard writer writes as one such escape. -/
def tickWeight : PyChar → ℕ
  | .scalar c =>
    if c = '\x60' ∨ c = 'u' then 1
    else if c.toNat < 127 then 0
    else if c.toNat < 65536 then 1
    else 2
  | .high _ | .low _ => 1

/-- A character as the standard writer spells it. -/
def escaped (c : Char) : PyText := ofChars (escapeChar c)

lemma escapedBody_eq : escapedBody = spelled escaped := by
  funext s
  rw [escapedBody, spelled, ofChars, List.map_flatMap]
  rfl

lemma tickWeight_of_le_toNat {c : Char} (hc : 127 ≤ c.toNat) :
    tickWeight (.scalar c) = if c.toNat < 65536 then 1 else 2 := by
  have hne : ∀ d : Char, d.toNat < 127 → c ≠ d := by
    rintro d hd rfl
    omega
  rw [tickWeight, if_neg (not_or.mpr ⟨hne _ (by decide), hne _ (by decide)⟩), if_neg (by omega)]

lemma weigh_unicodeEscape (n : ℕ) : weigh tickWeight (ofChars (unicodeEscape n)) = 1 := by
  have hdigit : ∀ d < 16, tickWeight (.scalar (hexDigit d)) = 0 := by decide
  have hback : tickWeight (.scalar '\\') = 0 := by decide
  have hu : tickWeight (.scalar 'u') = 1 := by decide
  simp only [unicodeEscape, ofChars_cons, ofChars_nil, weigh_cons, weigh_nil, hback, hu,
    hdigit _ (Nat.mod_lt _ (by decide : 0 < 16))]

lemma weigh_escaped_of_not {c : Char} (hc : ¬MustEscape c) :
    weigh tickWeight (escaped c) = tickWeight (.scalar c) := by
  rw [escaped, escapeChar_of_not hc]
  split_ifs with hascii hplane
  · rw [ofChars_cons, ofChars_nil, weigh_cons, weigh_nil, Nat.add_zero]
  · rw [weigh_unicodeEscape, tickWeight_of_le_toNat (by omega), if_pos hplane]
  · rw [ofChars_append, weigh_append, weigh_unicodeEscape, weigh_unicodeEscape,
      tickWeight_of_le_toNat (by omega), if_neg hplane]

lemma tickWeight_le_one {c : Char} (hc : c.toNat < 65536) : tickWeight (.scalar c) ≤ 1 := by
  unfold tickWeight
  simp only [if_pos hc]
  split_ifs <;> omega

/-- What the basic plane has is written as one escape at most. -/
lemma weigh_escaped_le {c : Char} (hc : c.toNat < 65536) : weigh tickWeight (escaped c) ≤ 1 := by
  by_cases hmust : MustEscape c
  · obtain rfl | rfl | hctl := id hmust
    · decide
    · decide
    · have hall : ∀ n < 32, weigh tickWeight (escaped (Char.ofNat n)) ≤ 1 := by decide
      have hn := hall c.toNat hctl
      rwa [Char.ofNat_toNat] at hn
  · rw [weigh_escaped_of_not hmust]
    exact tickWeight_le_one hc

lemma lightest_escaped : Lightest tickWeight escaped where
  between := by
    simp only [List.forall_mem_cons]
    exact ⟨rfl, rfl, rfl, rfl, rfl, rfl, rfl, nofun⟩
  plain c hc := (weigh_escaped_of_not hc).le
  half u hu := by
    have hone : weigh tickWeight (escaped '\uFFFD') = 1 := by decide
    rw [hone]
    cases u with
    | scalar c => exact absurd rfl (hu c)
    | high n => exact le_rfl
    | low n => exact le_rfl
  simple e c h := by
    unfold simpleEscape at h
    split_ifs at h with h₁ h₂ h₃ h₄ h₅ h₆ h₇ h₈ <;> obtain rfl := Option.some.inj h <;>
      subst e <;> decide
  numbered n hn u hu := by
    have hone : tickWeight (.scalar '\\') + tickWeight (.scalar 'u') = 1 := by decide
    have hhalf : weigh tickWeight (escaped '\uFFFD') ≤ 1 := weigh_escaped_le (by decide)
    rw [hone]
    cases u with
    | scalar c => exact weigh_escaped_le ((toNat_of_chr hu).trans_lt hn)
    | high m => exact hhalf
    | low m => exact hhalf
  joined h l := by
    have hjoin := toNat_join h l
    have hone : weigh tickWeight (escaped '\uFFFD') = 1 := by decide
    rw [hone, weigh_escaped_of_not (not_mustEscape_join h l), tickWeight_of_le_toNat (by omega)]
    split_ifs <;> omega

/-- What the standard text of a value weighs. -/
def ticks (v : Json) : ℕ := weigh tickWeight (ofString (dumps v))

/-- **Back-ticks are kept**: a text that reads as a value weighs at least as much as what the
standard writer writes for it. -/
theorem ticks_le_of_loads {t : PyText} {v : Json} (h : loads t = some v) :
    ticks v ≤ weigh tickWeight t := by
  rw [ticks, ofString_dumps, escapedBody_eq]
  exact weigh_le_of_loads lightest_escaped h

lemma ticks_arr (vs : List Json) : ticks (.arr vs) = (vs.map ticks).sum := by
  rw [ticks, ofString_dumps, escapedBody_eq, weigh_writeWith_arr lightest_escaped]
  refine congrArg List.sum (List.map_congr_left fun v _ => ?_)
  rw [ticks, ofString_dumps, escapedBody_eq]

lemma ticks_filter_le (q : Json → Bool) (vs : List Json) :
    ticks (.arr (vs.filter q)) ≤ ticks (.arr vs) := by
  rw [ticks_arr, ticks_arr]
  exact (List.filter_sublist.map ticks).sum_le_sum fun _ _ => Nat.zero_le _

end Json
