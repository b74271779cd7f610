import AtlasMemory.Foundations.JsonRoundTrip

/-!
# What the reader leaves

Every function of the reader leaves a suffix of the text that it was given, and what it takes last
is known: the closing quote, bracket or brace of a value that has one.  The inversion lemmas
`parseItems_inv` and `parseMembers_inv` say once what one round of the two loops does.

The last section is about a text of which only the end is known: the end of an object whose last
member is a number.  Whatever stands before, a successful reading ends with that member.
-/

namespace Json

open PyText

/-! ## Tokens -/

/-- What `skipSpace` drops is white space. -/
lemma skipSpace_spec (cs : PyText) :
    ∃ spaces, (∀ u ∈ spaces, isSpace u = true) ∧ cs = spaces ++ skipSpace cs :=
  ⟨cs.takeWhile isSpace, fun _ hu => List.mem_takeWhile_imp hu,
    List.takeWhile_append_dropWhile.symm⟩

lemma skipSpace_suffix (cs : PyText) : skipSpace cs <:+ cs := List.dropWhile_suffix _

lemma eq_of_dropKeyword {word : List Char} {cs rest : PyText}
    (h : dropKeyword word cs = some rest) : cs = ofChars word ++ rest := by
  induction word generalizing cs with
  | nil => exact Option.some.inj h
  | cons k ks ih =>
      cases cs with
      | nil => cases h
      | cons u us =>
          cases u with
          | high n => cases h
          | low n => cases h
          | scalar c =>
              rw [dropKeyword] at h
              split_ifs at h with hk
              rw [ofChars_cons, List.cons_append, ← ih h, hk]

lemma ofChars_scalars_takeWhile (cs : PyText) :
    ofChars (scalars (cs.takeWhile isNumberUnit)) = cs.takeWhile isNumberUnit := by
  induction cs with
  | nil => rfl
  | cons u us ih =>
      by_cases hu : isNumberUnit u = true
      · cases u with
        | high n => cases hu
        | low n => cases hu
        | scalar c => rw [List.takeWhile_cons_of_pos hu, scalars, ofChars_cons, ih]
      · rw [List.takeWhile_cons_of_neg hu]
        rfl

lemma delimited_dropWhile (cs : PyText) : Delimited (cs.dropWhile isNumberUnit) := by
  intro u us heq
  have hhead := List.head?_dropWhile_not isNumberUnit cs
  rw [heq] at hhead
  simpa using hhead

lemma eq_of_scanNumber {cs rest : PyText} {v : Json} (h : scanNumber cs = some (v, rest)) :
    ∃ n : NumberLit, v = .number n ∧ cs = ofChars n.text.toList ++ rest ∧ Delimited rest := by
  rw [scanNumber] at h
  split_ifs at h with hvalid
  obtain ⟨rfl, rfl⟩ := Prod.mk.inj (Option.some.inj h)
  refine ⟨_, rfl, ?_, delimited_dropWhile cs⟩
  rw [String.toList_ofList, ofChars_scalars_takeWhile]
  exact List.takeWhile_append_dropWhile.symm

lemma orElse_cases {α : Type*} {o : Option α} {f : Unit → Option α} {a : α}
    (h : o.orElse f = some a) : o = some a ∨ f () = some a := by
  cases o with
  | none => exact Or.inr h
  | some b => exact Or.inl h

def keywords : List (String × Json) :=
  [("null", .null), ("true", .bool true), ("false", .bool false), ("NaN", .notANumber),
    ("Infinity", .infinity), ("-Infinity", .negInfinity)]

lemma eq_of_scanScalar {cs rest : PyText} {v : Json} (h : scanScalar cs = some (v, rest)) :
    (∃ word, (word, v) ∈ keywords ∧ cs = ofChars word.toList ++ rest) ∨
      ∃ n : NumberLit, v = .number n ∧ cs = ofChars n.text.toList ++ rest ∧ Delimited rest := by
  have hkeyword : ∀ (word : String) (w : Json), (word, w) ∈ keywords →
      (dropKeyword word.toList cs).map (fun r => (w, r)) = some (v, rest) →
      ∃ word, (word, v) ∈ keywords ∧ cs = ofChars word.toList ++ rest := by
    intro word w hmem heq
    obtain ⟨r, hdrop, hpair⟩ := Option.map_eq_some_iff.mp heq
    obtain ⟨rfl, rfl⟩ := Prod.mk.inj hpair
    exact ⟨word, hmem, eq_of_dropKeyword hdrop⟩
  rcases orElse_cases h with h | h
  · exact Or.inl (hkeyword _ _ (by simp [keywords]) h)
  rcases orElse_cases h with h | h
  · exact Or.inl (hkeyword _ _ (by simp [keywords]) h)
  rcases orElse_cases h with h | h
  · exact Or.inl (hkeyword _ _ (by simp [keywords]) h)
  rcases orElse_cases h with h | h
  · exact Or.inl (hkeyword _ _ (by simp [keywords]) h)
  rcases orElse_cases h with h | h
  · exact Or.inl (hkeyword _ _ (by simp [keywords]) h)
  rcases orElse_cases h with h | h
  · exact Or.inl (hkeyword _ _ (by simp [keywords]) h)
  · exact Or.inr (eq_of_scanNumber h)

/-! ## String literals -/

def doubleQuote : PyChar := .scalar '"'

def backslash : PyChar := .scalar '\\'

/-- What one round of the string scanner takes: a code point that is neither a quote nor a
backslash, or a backslash with what it escapes. -/
inductive Taken : PyText → Prop
  | plain {u : PyChar} (hquote : u ≠ doubleQuote) (hback : u ≠ backslash) : Taken [u]
  | escape (e : PyChar) {digits : PyText} (h : doubleQuote ∉ digits) :
      Taken (backslash :: e :: digits)

lemma doubleQuote_notMem_of_hexPrefix {n acc m : ℕ} {cs : PyText}
    (h : hexPrefix n acc cs = some m) (hlen : cs.length ≤ n) : doubleQuote ∉ cs := by
  induction n generalizing acc cs with
  | zero =>
      rw [List.length_eq_zero_iff.mp (Nat.le_zero.mp hlen)]
      exact List.not_mem_nil
  | succ n ih =>
      cases cs with
      | nil => exact List.not_mem_nil
      | cons u us =>
          cases u with
          | high k => cases h
          | low k => cases h
          | scalar c =>
              obtain ⟨d, hd, hrest⟩ := Option.bind_eq_some_iff.mp h
              have hus := ih hrest (Nat.le_of_succ_le_succ hlen)
              rintro (_ | ⟨_, hmem⟩)
              · cases hd
              · exact hus hmem

/-- **One round of the string scanner**: the closing quote, or one step and the rest. -/
lemma scanUnits_inv {cs rest : PyText} {units : List (PyChar × Bool)}
    (h : scanUnits cs = some (units, rest)) :
    cs = doubleQuote :: rest ∨ ∃ y cs' units', Taken y ∧ cs = y ++ cs' ∧
      scanUnits cs' = some (units', rest) := by
  revert h
  fun_cases scanUnits cs with
  | case1 => nofun
  | case2 cs =>
      intro h
      exact Or.inl (by rw [(Prod.mk.inj (Option.some.inj h)).2]; rfl)
  | case3 a b c d cs =>
      intro h
      obtain ⟨n, hn, h⟩ := Option.bind_eq_some_iff.mp h
      obtain ⟨unit, -, h⟩ := Option.bind_eq_some_iff.mp h
      obtain ⟨⟨units', rest'⟩, hscan, h⟩ := Option.bind_eq_some_iff.mp h
      have hrest : rest' = rest := (Prod.mk.inj (Option.some.inj h)).2
      exact Or.inr ⟨[backslash, .scalar 'u', a, b, c, d], cs, units',
        .escape _ (doubleQuote_notMem_of_hexPrefix hn le_rfl), rfl, hrest ▸ hscan⟩
  | case4 e cs =>
      intro h
      obtain ⟨unit, -, h⟩ := Option.bind_eq_some_iff.mp h
      obtain ⟨⟨units', rest'⟩, hscan, h⟩ := Option.bind_eq_some_iff.mp h
      have hrest : rest' = rest := (Prod.mk.inj (Option.some.inj h)).2
      exact Or.inr ⟨[backslash, .scalar e], cs, units', .escape _ List.not_mem_nil, rfl,
        hrest ▸ hscan⟩
  | case5 => nofun
  | case6 => nofun
  | case7 c cs hquote hback =>
      intro h
      obtain ⟨⟨units', rest'⟩, hscan, h⟩ := Option.map_eq_some_iff.mp h
      have hrest : rest' = rest := (Prod.mk.inj h).2
      exact Or.inr ⟨[.scalar c], cs, units',
        .plain (fun heq => hquote (PyChar.scalar.inj heq)) (fun heq => hback (PyChar.scalar.inj heq)),
        rfl, hrest ▸ hscan⟩
  | case8 u cs hu =>
      intro h
      obtain ⟨⟨units', rest'⟩, hscan, h⟩ := Option.map_eq_some_iff.mp h
      have hrest : rest' = rest := (Prod.mk.inj h).2
      exact Or.inr ⟨[u], cs, units', .plain (fun heq => hu _ heq) (fun heq => hu _ heq), rfl,
        hrest ▸ hscan⟩

lemma Taken.length_pos {y : PyText} (h : Taken y) : 0 < y.length := by
  cases h <;> simp

lemma quote_suffix_of_scanUnits {cs rest : PyText} {units : List (PyChar × Bool)}
    (h : scanUnits cs = some (units, rest)) : doubleQuote :: rest <:+ cs := by
  induction hlen : cs.length using Nat.strong_induction_on generalizing cs units with
  | _ n ih =>
      rcases scanUnits_inv h with heq | ⟨y, cs', units', hy, heq, hscan⟩
      · exact heq ▸ List.suffix_rfl
      · have hpos := hy.length_pos
        have hlt : cs'.length < n := by
          rw [← hlen, heq, List.length_append]
          omega
        exact (ih cs'.length hlt hscan rfl).trans (heq ▸ List.suffix_append y cs')

/-- The scanner does not pass a quote that no backslash precedes. -/
lemma suffix_of_scanUnits {q t rest : PyText} {units : List (PyChar × Bool)}
    (hq : ¬ [backslash] <:+ q) (h : scanUnits (q ++ doubleQuote :: t) = some (units, rest)) :
    t <:+ rest := by
  induction hlen : q.length using Nat.strong_induction_on generalizing q units with
  | _ n ih =>
      rcases scanUnits_inv h with heq | ⟨y, cs', units', hy, heq, hscan⟩
      · cases q with
        | nil => exact (List.cons.inj heq).2 ▸ List.suffix_rfl
        | cons u us =>
            rw [← (List.cons.inj heq).2]
            exact (List.suffix_cons doubleQuote t).trans (List.suffix_append us _)
      · have hpos := hy.length_pos
        -- what was taken ends before the quote
        obtain ⟨q', hq', hcs'⟩ : ∃ q', q = y ++ q' ∧ cs' = q' ++ doubleQuote :: t := by
          cases hy with
          | plain hquote hback =>
              cases q with
              | nil => exact absurd (List.cons.inj heq).1.symm hquote
              | cons u us =>
                  obtain ⟨rfl, htail⟩ := List.cons.inj heq
                  exact ⟨us, rfl, htail.symm⟩
          | escape e hdigits =>
              match q, hq, heq with
              | [], _, heq => exact absurd (List.cons.inj heq).1 (by decide)
              | [u], hq, heq =>
                  exact absurd ((List.cons.inj heq).1 ▸ List.suffix_rfl) hq
              | u :: u' :: us, _, heq =>
                  obtain ⟨rfl, htail⟩ := List.cons.inj heq
                  obtain ⟨rfl, -⟩ := List.cons.inj htail
                  rcases List.append_eq_append_iff.mp htail with ⟨z, hz, hquote⟩ | ⟨z, hz, hquote⟩
                  · cases z with
                    | nil => exact ⟨[], by rw [hz, List.append_nil, List.append_nil], hquote.symm⟩
                    | cons d z =>
                        refine absurd ?_ hdigits
                        rw [(List.cons.inj hz).2, (List.cons.inj hquote).1]
                        exact List.mem_append_right us List.mem_cons_self
                  · exact ⟨z, by rw [hz]; rfl, hquote⟩
        have hlt : q'.length < n := by
          rw [← hlen, hq', List.length_append]
          omega
        exact ih q'.length hlt (fun hsuf => hq (hsuf.trans (hq' ▸ List.suffix_append y q')))
          (hcs' ▸ hscan) rfl

lemma quote_suffix_of_scanString {cs k rest : PyText} (h : scanString cs = some (k, rest)) :
    doubleQuote :: rest <:+ cs := by
  obtain ⟨⟨units, rest'⟩, hscan, hpair⟩ := Option.map_eq_some_iff.mp h
  have hrest : rest' = rest := (Prod.mk.inj hpair).2
  exact hrest ▸ quote_suffix_of_scanUnits hscan

/-! ## Items and members -/

/-- **One round of the item loop.** -/
lemma parseItems_inv {n : ℕ} {cs rest : PyText} {vs : List Json}
    (h : parseItems n cs = some (vs, rest)) :
    ∃ m v r, n = m + 1 ∧ parseValue m cs = some (v, r) ∧
      ((skipSpace r = .scalar ']' :: rest ∧ vs = [v]) ∨
        ∃ r' vs', skipSpace r = .scalar ',' :: r' ∧
          parseItems m (skipSpace r') = some (vs', rest) ∧ vs = v :: vs') := by
  cases n with
  | zero => cases h
  | succ m =>
      rw [parseItems] at h
      obtain ⟨⟨v, r⟩, hv, h⟩ := Option.bind_eq_some_iff.mp h
      refine ⟨m, v, r, rfl, hv, ?_⟩
      dsimp only at h
      split at h
      · rename_i r' heq
        obtain ⟨hvs, hrest⟩ := Prod.mk.inj (Option.some.inj h)
        exact Or.inl ⟨by rw [heq, hrest], hvs.symm⟩
      · rename_i r' heq
        obtain ⟨⟨vs', rest'⟩, hitems, hpair⟩ := Option.map_eq_some_iff.mp h
        obtain ⟨hvs, hrest⟩ := Prod.mk.inj hpair
        exact Or.inr ⟨r', vs', heq, hrest ▸ hitems, hvs.symm⟩
      · cases h

/-- **One round of the member loop.** -/
lemma parseMembers_inv {n : ℕ} {cs rest : PyText} {ms : List (String × Json)}
    (h : parseMembers n cs = some (ms, rest)) :
    ∃ m cs' k r r' v r'', n = m + 1 ∧ cs = doubleQuote :: cs' ∧ scanString cs' = some (k, r) ∧
      skipSpace r = .scalar ':' :: r' ∧ parseValue m (skipSpace r') = some (v, r'') ∧
      ((skipSpace r'' = .scalar '}' :: rest ∧ ms = [(toText k, v)]) ∨
        ∃ t ms', skipSpace r'' = .scalar ',' :: t ∧
          parseMembers m (skipSpace t) = some (ms', rest) ∧ ms = (toText k, v) :: ms') := by
  cases n with
  | zero => cases h
  | succ m =>
      unfold parseMembers at h
      split at h
      · rename_i cs'
        obtain ⟨⟨k, r⟩, hk, h⟩ := Option.bind_eq_some_iff.mp h
        dsimp only at h
        split at h
        · rename_i r' hcolon
          obtain ⟨⟨v, r''⟩, hv, h⟩ := Option.bind_eq_some_iff.mp h
          refine ⟨m, cs', k, r, r', v, r'', rfl, rfl, hk, hcolon, hv, ?_⟩
          dsimp only at h
          split at h
          · rename_i t heq
            obtain ⟨hms, hrest⟩ := Prod.mk.inj (Option.some.inj h)
            exact Or.inl ⟨by rw [heq, hrest], hms.symm⟩
          · rename_i t heq
            obtain ⟨⟨ms', rest'⟩, hmembers, hpair⟩ := Option.map_eq_some_iff.mp h
            obtain ⟨hms, hrest⟩ := Prod.mk.inj hpair
            exact Or.inr ⟨t, ms', heq, hrest ▸ hmembers, hms.symm⟩
          · cases h
        · cases h
      · cases h

/-- The text of the value ends with its closing character. -/
def Closed (cs rest : PyText) : Prop :=
  ∃ c, (c = '"' ∨ c = ']' ∨ c = '}') ∧ .scalar c :: rest <:+ cs

lemma suffix_of_skipSpace {r rest : PyText} {u : PyChar} (h : skipSpace r = u :: rest) :
    u :: rest <:+ r :=
  h ▸ skipSpace_suffix r

lemma suffix_of_scanScalar_or_closed {cs rest : PyText} {v : Json}
    (h : scanScalar cs = some (v, rest) ∨ Closed cs rest) : rest <:+ cs := by
  rcases h with h | ⟨c, -, hsuffix⟩
  · rcases eq_of_scanScalar h with ⟨word, -, heq⟩ | ⟨lit, -, heq, -⟩ <;>
      exact heq ▸ List.suffix_append _ _
  · exact (List.suffix_cons _ _).trans hsuffix

lemma closed_of_parse (n : ℕ) :
    (∀ cs v rest, parseValue n cs = some (v, rest) →
      scanScalar cs = some (v, rest) ∨ Closed cs rest) ∧
    (∀ cs vs rest, parseItems n cs = some (vs, rest) → .scalar ']' :: rest <:+ cs) ∧
    (∀ cs ms rest, parseMembers n cs = some (ms, rest) → .scalar '}' :: rest <:+ cs) := by
  induction n with
  | zero => exact ⟨nofun, nofun, nofun⟩
  | succ n ih =>
      obtain ⟨ihValue, ihItems, ihMembers⟩ := ih
      refine ⟨fun cs v rest h => ?_, fun cs vs rest h => ?_, fun cs ms rest h => ?_⟩
      · unfold parseValue at h
        split at h
        · obtain ⟨⟨k, rest'⟩, hk, hpair⟩ := Option.map_eq_some_iff.mp h
          have hrest : rest' = rest := (Prod.mk.inj hpair).2
          exact Or.inr ⟨'"', Or.inl rfl, (hrest ▸ quote_suffix_of_scanString hk).trans
            (List.suffix_cons _ _)⟩
        · refine Or.inr ⟨']', Or.inr (Or.inl rfl), List.IsSuffix.trans ?_ (List.suffix_cons _ _)⟩
          split at h
          · rename_i rest' hclose
            rw [← (Prod.mk.inj (Option.some.inj h)).2]
            exact suffix_of_skipSpace hclose
          · obtain ⟨⟨vs, rest'⟩, hitems, hpair⟩ := Option.map_eq_some_iff.mp h
            have hrest : rest' = rest := (Prod.mk.inj hpair).2
            exact (hrest ▸ ihItems _ _ _ hitems).trans (skipSpace_suffix _)
        · refine Or.inr ⟨'}', Or.inr (Or.inr rfl), List.IsSuffix.trans ?_ (List.suffix_cons _ _)⟩
          split at h
          · rename_i rest' hclose
            rw [← (Prod.mk.inj (Option.some.inj h)).2]
            exact suffix_of_skipSpace hclose
          · obtain ⟨⟨ms, rest'⟩, hmembers, hpair⟩ := Option.map_eq_some_iff.mp h
            have hrest : rest' = rest := (Prod.mk.inj hpair).2
            exact (hrest ▸ ihMembers _ _ _ hmembers).trans (skipSpace_suffix _)
        · exact Or.inl h
      · obtain ⟨m, v, r, hm, hv, hloop⟩ := parseItems_inv h
        obtain rfl := Nat.succ.inj hm
        have hr : r <:+ cs := suffix_of_scanScalar_or_closed (ihValue _ _ _ hv)
        rcases hloop with ⟨hclose, -⟩ | ⟨r', vs', hcomma, hitems, -⟩
        · exact (suffix_of_skipSpace hclose).trans hr
        · have hr' : r' <:+ r := (List.suffix_cons _ _).trans (suffix_of_skipSpace hcomma)
          exact (ihItems _ _ _ hitems).trans ((skipSpace_suffix r').trans (hr'.trans hr))
      · obtain ⟨m, cs', k, r, r', v, r'', hm, rfl, hk, hcolon, hv, hloop⟩ := parseMembers_inv h
        obtain rfl := Nat.succ.inj hm
        have hr : r <:+ doubleQuote :: cs' :=
          (List.suffix_cons _ _).trans ((quote_suffix_of_scanString hk).trans (List.suffix_cons _ _))
        have hr' : r' <:+ r := (List.suffix_cons _ _).trans (suffix_of_skipSpace hcolon)
        have hr'' : r'' <:+ doubleQuote :: cs' :=
          (suffix_of_scanScalar_or_closed (ihValue _ _ _ hv)).trans
            ((skipSpace_suffix r').trans (hr'.trans hr))
        rcases hloop with ⟨hclose, -⟩ | ⟨t, ms', hcomma, hmembers, -⟩
        · exact (suffix_of_skipSpace hclose).trans hr''
        · have ht : t <:+ r'' := (List.suffix_cons _ _).trans (suffix_of_skipSpace hcomma)
          exact (ihMembers _ _ _ hmembers).trans ((skipSpace_suffix t).trans (ht.trans hr''))

/-! ## The last member -/

/-- A number and the closing brace of an object. -/
def numberTail (lit : NumberLit) : PyText := ofString lit.text ++ [.scalar '}']

/-- The end of the text of an object whose last member is a number: a space, the name, the number
and the closing brace. -/
def memberTail (name : String) (lit : NumberLit) : PyText :=
  .scalar ' ' :: doubleQuote :: (ofString name ++ doubleQuote :: .scalar ':' :: .scalar ' ' ::
    numberTail lit)

/-- Two suffixes of one text that go on alike start alike. -/
lemma head_eq_of_suffix {u u' : PyChar} {t w : PyText} (h : u :: t <:+ w) (h' : u' :: t <:+ w) :
    u = u' := by
  obtain ⟨x, hx⟩ := h
  obtain ⟨y, hy⟩ := h'
  have heq : (x ++ [u]) ++ t = (y ++ [u']) ++ t := by
    rw [List.append_assoc, List.append_assoc, List.singleton_append, List.singleton_append, hx, hy]
  exact List.singleton_inj.mp (List.append_inj_right' (List.append_cancel_right heq) rfl)

/-- No white space was skipped before `t`, if something else precedes it. -/
lemma eq_of_skipSpace_eq {u : PyChar} {r t w : PyText} (hr : r <:+ w) (hskip : skipSpace r = t)
    (hu : isSpace u = false) (ht : u :: t <:+ w) : r = t := by
  obtain ⟨spaces, hspaces, heq⟩ := skipSpace_spec r
  rw [hskip] at heq
  rcases List.eq_nil_or_concat' spaces with rfl | ⟨before, s, rfl⟩
  · exact heq
  · have hs : s :: t <:+ w :=
      List.IsSuffix.trans ⟨before, by rw [heq, List.append_assoc, List.singleton_append]⟩ hr
    have hspace := hspaces s (by simp)
    rw [head_eq_of_suffix hs ht, hu] at hspace
    cases hspace

lemma isNumberUnit_of_mem {lit : NumberLit} {u : PyChar} (hu : u ∈ ofString lit.text) :
    isNumberUnit u = true := by
  obtain ⟨c, hc, rfl⟩ := List.mem_map.mp hu
  exact forall_of_isNumber lit.valid c hc

lemma ofChars_injective : Function.Injective ofChars :=
  List.map_injective_iff.mpr fun _ _ h => PyChar.scalar.inj h

section LastMember

variable {name : String} {lit : NumberLit} {w : PyText}

lemma exists_last_of_numberTail (hw : numberTail lit <:+ w) :
    ∃ ys d, ofString lit.text = ys ++ [d] ∧ isNumberUnit d = true ∧ d :: [.scalar '}'] <:+ w := by
  rcases List.eq_nil_or_concat' (ofString lit.text) with hnil | ⟨ys, d, heq⟩
  · have hvalid := lit.valid
    rw [List.map_eq_nil_iff.mp hnil] at hvalid
    exact absurd hvalid (by decide)
  · have hmem : d ∈ ofString lit.text := by simp [heq]
    refine ⟨ys, d, heq, isNumberUnit_of_mem hmem, List.IsSuffix.trans ⟨ys, ?_⟩ hw⟩
    rw [numberTail, heq, List.append_assoc]
    rfl

/-- The word before the closing brace, if it has no space, is the number. -/
lemma word_eq_of_suffix (hw : .scalar ' ' :: numberTail lit <:+ w) {r : PyText}
    {word : List Char} (hword : ' ' ∉ word) (hcolon : .scalar ':' :: r <:+ w)
    (hskip : skipSpace r = ofChars word ++ [.scalar '}']) : word = lit.text.toList := by
  have hr : r <:+ w := (List.suffix_cons _ _).trans hcolon
  have hV : ofChars word ++ [.scalar '}'] <:+ w := hskip ▸ (skipSpace_suffix r).trans hr
  have hspace : PyChar.scalar ' ' ∉ ofChars word ++ [.scalar '}'] := by
    intro hmem
    rcases List.mem_append.mp hmem with hmem | hmem
    · obtain ⟨c, hc, heq⟩ := List.mem_map.mp hmem
      exact hword (PyChar.scalar.inj heq ▸ hc)
    · exact absurd hmem (by decide)
  have hshort : ofChars word ++ [.scalar '}'] <:+ numberTail lit := by
    rcases List.suffix_or_suffix_of_suffix hV hw with h | h
    · rcases List.suffix_cons_iff.mp h with heq | h
      · exact absurd (heq ▸ List.mem_cons_self) hspace
      · exact h
    · exact absurd (h.subset List.mem_cons_self) hspace
  obtain ⟨y, hy⟩ := hshort
  rw [numberTail, ← List.append_assoc] at hy
  have hlit : y ++ ofChars word = ofString lit.text := List.append_cancel_right hy
  rcases List.eq_nil_or_concat' y with rfl | ⟨before, e, rfl⟩
  · exact ofChars_injective hlit
  · -- a character of the number cannot stand between the colon and the value
    have hmem : e ∈ ofString lit.text := by
      rw [← hlit]
      simp
    have he : isNumberUnit e = true := isNumberUnit_of_mem hmem
    have hsuf : e :: (ofChars word ++ [.scalar '}']) <:+ w := by
      refine List.IsSuffix.trans ⟨before, ?_⟩ ((List.suffix_cons _ _).trans hw)
      rw [numberTail, ← hlit]
      simp
    have heq := eq_of_skipSpace_eq hr hskip (isSpace_of_isNumberUnit he) hsuf
    rw [heq] at hcolon
    rw [← head_eq_of_suffix hcolon hsuf] at he
    exact absurd he (by decide)

/-- A value that ends right before the closing brace is the number. -/
lemma value_eq_of_suffix (hw : .scalar ' ' :: numberTail lit <:+ w) {m : ℕ} {r : PyText}
    {v : Json} (hcolon : .scalar ':' :: r <:+ w)
    (hv : parseValue m (skipSpace r) = some (v, [.scalar '}'])) :
    v = .number lit ∧ skipSpace r = numberTail lit := by
  have hV : skipSpace r <:+ w := (skipSpace_suffix r).trans ((List.suffix_cons _ _).trans hcolon)
  rcases (closed_of_parse m).1 _ _ _ hv with hscalar | ⟨c, hc, hclosed⟩
  · rcases eq_of_scanScalar hscalar with ⟨word, hmem, heq⟩ | ⟨lit', rfl, heq, -⟩
    · have hspace : ' ' ∉ word.toList ∧ isNumber word.toList = false := by
        simp only [keywords, List.mem_cons, Prod.mk.injEq, List.not_mem_nil, or_false] at hmem
        rcases hmem with ⟨rfl, -⟩ | ⟨rfl, -⟩ | ⟨rfl, -⟩ | ⟨rfl, -⟩ | ⟨rfl, -⟩ | ⟨rfl, -⟩ <;> decide
      have hlit := word_eq_of_suffix hw hspace.1 hcolon heq
      have hvalid := lit.valid
      rw [← hlit, hspace.2] at hvalid
      cases hvalid
    · have hspace : ' ' ∉ lit'.text.toList := fun hmem =>
        absurd (forall_of_isNumber lit'.valid _ hmem) (by decide)
      have hlit := word_eq_of_suffix hw hspace hcolon heq
      have hsame : lit' = lit := by
        cases lit'
        cases lit
        congr
        exact String.toList_inj.mp hlit
      exact ⟨by rw [hsame], by rw [heq, hsame]; rfl⟩
  · -- a closed value would end in a quote or a bracket
    obtain ⟨ys, d, hlit, hd, hsuf⟩ := exists_last_of_numberTail ((List.suffix_cons _ _).trans hw)
    have heq := head_eq_of_suffix (hclosed.trans hV) hsuf
    rw [← heq] at hd
    rcases hc with rfl | rfl | rfl <;> exact absurd hd (by decide)

lemma eq_space_cons_of_skipSpace {r t : PyText} (hcolon : .scalar ':' :: r <:+ w)
    (hskip : skipSpace r = t) (hcolon' : .scalar ':' :: .scalar ' ' :: t <:+ w)
    (hspace : .scalar ' ' :: t <:+ w) : r = .scalar ' ' :: t := by
  obtain ⟨spaces, hspaces, heq⟩ := skipSpace_spec r
  rw [hskip] at heq
  have hr : r <:+ w := (List.suffix_cons _ _).trans hcolon
  rcases List.eq_nil_or_concat' spaces with rfl | ⟨before, s, rfl⟩
  · rw [heq] at hcolon
    exact absurd (head_eq_of_suffix hcolon hspace) (by decide)
  · rw [List.append_assoc, List.singleton_append] at heq
    have hs : s = .scalar ' ' :=
      head_eq_of_suffix (List.IsSuffix.trans ⟨before, heq.symm⟩ hr) hspace
    subst hs
    rcases List.eq_nil_or_concat' before with rfl | ⟨before', s', rfl⟩
    · exact heq
    · rw [List.append_assoc, List.singleton_append] at heq
      have hs' := head_eq_of_suffix (List.IsSuffix.trans ⟨before', heq.symm⟩ hr) hcolon'
      have hmem := hspaces s' (by simp)
      rw [hs'] at hmem
      exact absurd hmem (by decide)

/-- The name that ends right before the colon is the known one. -/
lemma name_eq_of_suffix (hname : name.toList.flatMap escapeChar = name.toList)
    (hquote : '"' ∉ name.toList) (hw : memberTail name lit <:+ w) {cs k : PyText}
    (hcs : doubleQuote :: cs <:+ w)
    (hk : scanString cs = some (k, .scalar ':' :: .scalar ' ' :: numberTail lit)) :
    k = ofString name := by
  set colonTail : PyText := .scalar ':' :: .scalar ' ' :: numberTail lit with hcolonTail
  set nameTail : PyText := ofString name ++ doubleQuote :: colonTail with hnameTail
  have hw' : doubleQuote :: nameTail <:+ w := (List.suffix_cons _ _).trans hw
  have hcs' : cs <:+ w := (List.suffix_cons _ _).trans hcs
  -- the scanner cannot have started before the quote that opens the name
  have hnotBefore : ∀ q, cs ≠ q ++ doubleQuote :: nameTail := by
    intro q hq
    have hq' : ¬ [backslash] <:+ q := by
      rintro ⟨q', rfl⟩
      rw [List.append_assoc, List.singleton_append] at hq
      have hback := head_eq_of_suffix (List.IsSuffix.trans ⟨q', hq.symm⟩ hcs') hw
      exact absurd hback (by decide)
    obtain ⟨⟨units, rest⟩, hscan, hpair⟩ := Option.map_eq_some_iff.mp hk
    have hrest : rest = colonTail := (Prod.mk.inj hpair).2
    rw [hq, hrest] at hscan
    have hlen := (suffix_of_scanUnits hq' hscan).length_le
    rw [hnameTail, List.length_append, List.length_cons] at hlen
    omega
  have hcsName : cs = nameTail := by
    rcases List.suffix_or_suffix_of_suffix hcs' hw' with h | ⟨q, hq⟩
    · rcases List.suffix_cons_iff.mp h with heq | ⟨y, hy⟩
      · exact absurd heq (hnotBefore [])
      · rcases List.eq_nil_or_concat' y with rfl | ⟨before, e, rfl⟩
        · exact hy
        · -- nor after it
          rw [List.append_assoc, List.singleton_append] at hy
          have he := head_eq_of_suffix
            (List.IsSuffix.trans ⟨before, hy⟩ ((List.suffix_cons _ _).trans hw')) hcs
          obtain ⟨z, hz⟩ := quote_suffix_of_scanString hk
          have hsplit : (before ++ e :: z) ++ doubleQuote :: colonTail =
              ofString name ++ doubleQuote :: colonTail := by
            rw [List.append_assoc, List.cons_append, hz, hy]
          have hmem : doubleQuote ∈ ofString name := by
            rw [← List.append_cancel_right hsplit, he]
            simp
          obtain ⟨c, hc, heq⟩ := List.mem_map.mp hmem
          exact absurd (PyChar.scalar.inj heq ▸ hc) hquote
    · exact absurd hq.symm (hnotBefore q)
  have hread := scanString_quote name colonTail
  rw [hname] at hread
  rw [hcsName, hnameTail] at hk
  exact (Prod.mk.inj (Option.some.inj (hk.symm.trans hread))).1

/-- **The last member is the known one.** -/
lemma getLast?_parseMembers (hname : name.toList.flatMap escapeChar = name.toList)
    (hquote : '"' ∉ name.toList) (hw : memberTail name lit <:+ w) {n : ℕ} {cs rest : PyText}
    {ms : List (String × Json)} (h : parseMembers n cs = some (ms, rest))
    (hend : skipSpace rest = []) (hcs : cs <:+ w) : ms.getLast? = some (name, .number lit) := by
  have hname' : doubleQuote :: (ofString name ++ doubleQuote :: .scalar ':' :: .scalar ' ' ::
      numberTail lit) <:+ w := (List.suffix_cons _ _).trans hw
  have hkey : doubleQuote :: .scalar ':' :: .scalar ' ' :: numberTail lit <:+ w :=
    (List.suffix_append (doubleQuote :: ofString name) _).trans hname'
  have hcolon' : .scalar ':' :: .scalar ' ' :: numberTail lit <:+ w :=
    (List.suffix_cons _ _).trans hkey
  have hspace : .scalar ' ' :: numberTail lit <:+ w := (List.suffix_cons _ _).trans hcolon'
  obtain ⟨ys, d, -, hd, hbrace⟩ := exists_last_of_numberTail ((List.suffix_cons _ _).trans hspace)
  induction n generalizing cs ms with
  | zero => cases h
  | succ n ih =>
      obtain ⟨m, cs', k, r, r', v, r'', hm, rfl, hk, hcolon, hv, hloop⟩ := parseMembers_inv h
      obtain rfl := Nat.succ.inj hm
      have hcs' : cs' <:+ w := (List.suffix_cons _ _).trans hcs
      have hr : r <:+ w :=
        (List.suffix_cons _ _).trans ((quote_suffix_of_scanString hk).trans hcs')
      have hr' : .scalar ':' :: r' <:+ w := (suffix_of_skipSpace hcolon).trans hr
      have hr'' : r'' <:+ w :=
        (suffix_of_scanScalar_or_closed ((closed_of_parse n).1 _ _ _ hv)).trans
          ((skipSpace_suffix r').trans ((List.suffix_cons _ _).trans hr'))
      rcases hloop with ⟨hclose, rfl⟩ | ⟨t, ms', hcomma, hmembers, rfl⟩
      · have hrest : rest = [] := by
          refine eq_of_skipSpace_eq ((List.suffix_cons _ _).trans
            ((suffix_of_skipSpace hclose).trans hr'')) hend (u := .scalar '}') (by decide) ?_
          exact (List.suffix_cons _ _).trans hbrace
        subst hrest
        have hbrace'' : r'' = [.scalar '}'] :=
          eq_of_skipSpace_eq hr'' hclose (isSpace_of_isNumberUnit hd) hbrace
        rw [hbrace''] at hv
        obtain ⟨rfl, hnumber⟩ := value_eq_of_suffix hspace hr' hv
        rw [eq_space_cons_of_skipSpace hr' hnumber hcolon' hspace] at hcolon
        have hcolon'' := eq_of_skipSpace_eq hr hcolon (by decide) hkey
        rw [hcolon''] at hk
        rw [name_eq_of_suffix hname hquote hw hcs hk]
        simp
      · have ht : t <:+ w :=
          (List.suffix_cons _ _).trans ((suffix_of_skipSpace hcomma).trans hr'')
        have hlast := ih hmembers ((skipSpace_suffix t).trans ht)
        rw [List.getLast?_cons, hlast]
        rfl

/-- A later member replaces an earlier one of its name. -/
lemma find_dictOf_of_getLast? {ms : List (String × Json)} {k : String} {v : Json}
    (h : ms.getLast? = some (k, v)) : PyDict.find k (dictOf ms) = some v := by
  obtain ⟨before, rfl⟩ := List.getLast?_eq_some_iff.mp h
  rw [dictOf, List.foldl_append, List.foldl_cons, List.foldl_nil, PyDict.find_assign, if_pos rfl]

lemma nodup_dictOf (ms : List (String × Json)) : ((dictOf ms).map Prod.fst).Nodup := by
  have hfold : ∀ (l d : List (String × Json)), (d.map Prod.fst).Nodup →
      ((l.foldl (fun d m => PyDict.assign m.1 m.2 d) d).map Prod.fst).Nodup := by
    intro l
    induction l with
    | nil => exact fun d hd => hd
    | cons m l ih => exact fun d hd => ih _ (PyDict.nodup_map_fst_assign m.1 m.2 hd)
  exact hfold ms [] List.nodup_nil

/-- **Whatever the rest of the text is**, if it is read at all, it is read as an object with the
known last member. -/
theorem find_of_loads (hname : name.toList.flatMap escapeChar = name.toList)
    (hquote : '"' ∉ name.toList) {p : PyText} {v : Json}
    (h : loads (.scalar '{' :: (p ++ memberTail name lit)) = some v) :
    ∃ members, v = .obj members ∧ (members.map Prod.fst).Nodup ∧
      PyDict.find name members = some (.number lit) := by
  set w : PyText := .scalar '{' :: (p ++ memberTail name lit) with hw
  have htail : memberTail name lit <:+ w := (List.suffix_append p _).trans (List.suffix_cons _ _)
  unfold loads at h
  rw [hw, skipSpace_cons (by decide), ← hw] at h
  cases hparse : parseValue (w.length + 1) w with
  | none =>
      rw [hparse] at h
      cases h
  | some result =>
      obtain ⟨v', rest⟩ := result
      rw [hparse] at h
      dsimp only at h
      split_ifs at h with hend
      obtain rfl := Option.some.inj h
      rw [hw, parseValue] at hparse
      split at hparse
      · -- an object without members would end right here
        rename_i rest' hclose
        obtain ⟨-, rfl⟩ := Prod.mk.inj (Option.some.inj hparse)
        obtain ⟨spaces, hspaces, heq⟩ := skipSpace_spec (p ++ memberTail name lit)
        obtain ⟨spaces', hspaces', heq'⟩ := skipSpace_spec rest'
        rw [hclose] at heq
        rw [hend, List.append_nil] at heq'
        have hmem : doubleQuote ∈ spaces ++ .scalar '}' :: rest' := by
          rw [← heq, memberTail]
          simp
        rcases List.mem_append.mp hmem with hmem | hmem
        · exact absurd (hspaces _ hmem) (by decide)
        · rcases List.mem_cons.mp hmem with hmem | hmem
          · exact absurd hmem (by decide)
          · exact absurd (hspaces' _ (heq' ▸ hmem)) (by decide)
      · obtain ⟨⟨ms, rest'⟩, hmembers, hpair⟩ := Option.map_eq_some_iff.mp hparse
        obtain ⟨hv, hrest⟩ := Prod.mk.inj hpair
        have hlast := getLast?_parseMembers hname hquote htail hmembers
          (by rw [← hend]; exact congrArg _ hrest)
          ((skipSpace_suffix _).trans (List.suffix_cons _ _))
        exact ⟨dictOf ms, hv.symm, nodup_dictOf ms, find_dictOf_of_getLast? hlast⟩

end LastMember

end Json
