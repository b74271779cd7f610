import AtlasMemory.Active.JsonFacts

/-!
# Which facts are read back

The text of a list of facts, on its own or between two fences, given to `_parse_json_facts`.  Two
things decide whether the list comes back: that no fences inside the values cut a part out of the
text, and that the array, which ends for the regular expression at the first closing bracket, is
found whole, or else that no single object is found instead of it.

A text that was cut at a fence has lost the back-ticks of the fence, so it is lighter than the facts.
-/

namespace AtlasMemory

open PyText Json LazyMatches

namespace ShadowWorker

/-- Facts as the worker asks for them. -/
structure ExtractedFacts where
  facts : List Json
  ne_nil : facts ≠ []
  isFact : ∀ v ∈ facts, isFact v = true
  distinct : Distinct (.arr facts)

namespace ExtractedFacts

/-- `json.dumps` of the list. -/
def text (F : ExtractedFacts) : PyText := ofString (dumps (.arr F.facts))

/-- The array is found whole, or no fact is found instead of the list: there is only one, or a
closing brace inside the first one hides it. -/
def Picked (F : ExtractedFacts) : Prop :=
  .scalar ']' ∉ F.text.dropLast ∨ F.facts.length = 1 ∨
    ∃ v ∈ F.facts.head?, .scalar '\x7d' ∈ (ofString (dumps v)).dropLast

end ExtractedFacts

/-- A fence around an answer: with the tag or without it, and with white space at both ends. -/
structure Fencing where
  tagged : Bool
  before : PyText
  after : PyText
  isBlank_before : ∀ u ∈ before, isBlank u = true
  isBlank_after : ∀ u ∈ after, isBlank u = true

def Fencing.wrap (f : Fencing) (t : PyText) : PyText :=
  fence ++ ((if f.tagged then ofString "json" else []) ++ (f.before ++ (t ++ (f.after ++ fence))))

/-! ## The weight of the facts found -/

lemma weigh_le_of_isInfix {t t' : PyText} (h : t <:+: t') : weigh tickWeight t ≤ weigh tickWeight t' := by
  obtain ⟨a, b, rfl⟩ := h
  rw [weigh_append, weigh_append]
  omega

lemma ticks_nil : ticks (.arr []) = 0 := by decide

lemma ticks_singleton (v : Json) : ticks (.arr [v]) = ticks v := by
  rw [ticks_arr, List.map_singleton, List.sum_singleton]

lemma ticks_arrayFacts_le (t : PyText) : ticks (.arr (arrayFacts t)) ≤ weigh tickWeight t := by
  unfold arrayFacts
  split
  · rename_i items hload
    obtain ⟨s, hs, hload⟩ := Option.bind_eq_some_iff.mp hload
    calc ticks (.arr (items.filter isFact)) ≤ ticks (.arr items) := ticks_filter_le _ _
      _ ≤ weigh tickWeight s := ticks_le_of_loads hload
      _ ≤ weigh tickWeight t := weigh_le_of_isInfix (infix_of_enclosed hs)
  · rw [ticks_nil]
    exact Nat.zero_le _

lemma ticks_objectFact_le {t : PyText} {v : Json} (h : objectFact t = some v) :
    ticks v ≤ weigh tickWeight t := by
  obtain ⟨s, hs, hload⟩ := Option.bind_eq_some_iff.mp (Option.filter_eq_some_iff.mp h).1
  exact (ticks_le_of_loads hload).trans (weigh_le_of_isInfix (infix_of_enclosed hs))

lemma ticks_wholeFacts_le (t : PyText) : ticks (.arr (wholeFacts t)) ≤ weigh tickWeight t := by
  unfold wholeFacts
  split
  · rename_i items hload
    exact (ticks_filter_le _ _).trans (ticks_le_of_loads hload)
  · rename_i v _ hload
    refine (ticks_filter_le _ _).trans ?_
    rw [ticks_singleton]
    exact ticks_le_of_loads hload
  · rw [ticks_nil]
    exact Nat.zero_le _

/-- **What is found in a text** weighs no more than the text. -/
lemma ticks_candidateFacts_le (t : PyText) :
    ticks (.arr (candidateFacts t)) ≤ weigh tickWeight t := by
  unfold candidateFacts
  split
  · rename_i fact _ hfact
    rw [ticks_singleton]
    exact ticks_objectFact_le hfact
  · exact ticks_wholeFacts_le t
  · exact ticks_arrayFacts_le t

/-! ## The facts in their own text -/

lemma exists_dumps_of_isFact {v : Json} (h : isFact v = true) :
    ∃ Y, ofString (dumps v) = .scalar '\x7b' :: (Y ++ [.scalar '\x7d']) := by
  cases v with
  | obj members => exact ⟨writeMembersWith escapedBody members, ofString_dumps _⟩
  | _ => cases h

/-- The text of the first fact stands behind the opening bracket. -/
lemma exists_dumps_arr_cons (v : Json) (vs : List Json) :
    ∃ z, ofString (dumps (.arr (v :: vs))) =
      .scalar '[' :: (ofString (dumps v) ++ (z ++ [.scalar ']'])) := by
  rw [ofString_dumps, ofString_dumps, writeWith]
  cases vs with
  | nil => exact ⟨[], rfl⟩
  | cons w ws =>
    refine ⟨.scalar ',' :: .scalar ' ' :: writeItemsWith escapedBody (w :: ws), ?_⟩
    rw [writeItemsWith, List.append_assoc]

/-- A proper prefix of the text of an array or an object cannot be read. -/
lemma loads_prefix_eq_none {v : Json} {u : PyChar} {p q : PyText}
    (hu : u = .scalar '[' ∨ u = .scalar '\x7b') (h : ofString (dumps v) = u :: (p ++ q))
    (hq : q ≠ []) : loads (u :: p) = none := by
  rw [ofString_dumps] at h
  refine loads_eq_none_of_prefix
    (@ForallStrings.of_infix _ escapedBody v fun s _ => scanString_quote s) ?_ h hq
  rcases hu with rfl | rfl
  · exact ⟨'[', p ++ q, h, .inr (.inl rfl)⟩
  · exact ⟨'\x7b', p ++ q, h, .inr (.inr rfl)⟩

namespace ExtractedFacts

variable (F : ExtractedFacts)

lemma exists_text_eq : ∃ X, F.text = .scalar '[' :: (X ++ [PyChar.scalar ']']) :=
  ⟨writeItemsWith escapedBody F.facts, ofString_dumps _⟩

lemma loads_text : loads F.text = some (.arr F.facts) := loads_dumps F.distinct

lemma filter_facts : F.facts.filter ShadowWorker.isFact = F.facts :=
  List.filter_eq_self.mpr F.isFact

lemma wholeFacts_text : wholeFacts F.text = F.facts := by
  rw [wholeFacts, F.loads_text]
  exact F.filter_facts

/-- The array is found if no closing bracket stands before the last one. -/
lemma arrayFacts_text :
    (.scalar ']' ∉ F.text.dropLast → arrayFacts F.text = F.facts) ∧
      (.scalar ']' ∈ F.text.dropLast → arrayFacts F.text = []) := by
  obtain ⟨X, hX⟩ := F.exists_text_eq
  have hlast : F.text.dropLast = .scalar '[' :: X := by
    rw [hX, ← List.cons_append, List.dropLast_concat]
  have hmem : .scalar ']' ∈ F.text.dropLast ↔ .scalar ']' ∈ X := by
    rw [hlast, List.mem_cons]
    exact or_iff_right (by decide)
  rw [hmem]
  refine ⟨fun hnot => ?_, fun hin => ?_⟩
  · have hfind : arrayMatch F.text = some F.text := by
      rw [hX]
      exact @enclosed_of_notMem _ [] X [] _ _ _ List.not_mem_nil hnot
    rw [arrayFacts, hfind, Option.bind_some, F.loads_text]
    exact F.filter_facts
  · obtain ⟨l, r, rfl, hfind⟩ := @enclosed_of_mem _ [] X [] _ (.scalar '[') _ List.not_mem_nil hin
    have hnone : loads (.scalar '[' :: (l ++ [.scalar ']'])) = none := by
      refine @loads_prefix_eq_none (.arr F.facts) _ _ (r ++ [.scalar ']']) (.inl rfl) ?_ (by simp)
      show F.text = _
      rw [hX]
      simp
    have hmatch : arrayMatch F.text = some (.scalar '[' :: (l ++ [.scalar ']'])) := by
      rw [hX]
      exact hfind
    rw [arrayFacts, hmatch, Option.bind_some, hnone]

/-- The first fact is found as an object if no closing brace stands inside it. -/
lemma objectFact_text {v : Json} (hv : v ∈ F.facts.head?) :
    (.scalar '\x7d' ∉ (ofString (dumps v)).dropLast → objectFact F.text = some v) ∧
      (.scalar '\x7d' ∈ (ofString (dumps v)).dropLast → objectFact F.text = none) := by
  obtain ⟨vs, hvs⟩ := List.head?_eq_some_iff.mp hv
  have hfact : ShadowWorker.isFact v = true := F.isFact v (hvs ▸ List.mem_cons_self)
  have hdistinct : Distinct v := by
    have hall := F.distinct
    rw [hvs] at hall
    exact hall.1
  obtain ⟨Y, hY⟩ := exists_dumps_of_isFact hfact
  obtain ⟨z, hz⟩ := exists_dumps_arr_cons v vs
  have htext : F.text = [.scalar '['] ++ .scalar '\x7b' :: (Y ++ .scalar '\x7d' ::
      (z ++ [.scalar ']'])) := by
    rw [text, hvs, hz, hY]
    simp
  have hlast : (ofString (dumps v)).dropLast = .scalar '\x7b' :: Y := by
    rw [hY, ← List.cons_append, List.dropLast_concat]
  have hmem : .scalar '\x7d' ∈ (ofString (dumps v)).dropLast ↔ .scalar '\x7d' ∈ Y := by
    rw [hlast, List.mem_cons]
    exact or_iff_right (by decide)
  have hopen : PyChar.scalar '\x7b' ∉ [PyChar.scalar '['] := by decide
  rw [hmem]
  refine ⟨fun hnot => ?_, fun hin => ?_⟩
  · have hfind : objMatch F.text = some (ofString (dumps v)) := by
      rw [htext, hY]
      exact enclosed_of_notMem hopen hnot
    rw [objectFact, hfind, Option.bind_some, loads_dumps hdistinct, Option.filter_some, if_pos hfact]
  · obtain ⟨l, r, rfl, hfind⟩ := @enclosed_of_mem _ _ Y (z ++ [.scalar ']']) _ _ _ hopen hin
    have hnone : loads (.scalar '\x7b' :: (l ++ [.scalar '\x7d'])) = none := by
      refine @loads_prefix_eq_none v _ _ (r ++ [.scalar '\x7d']) (.inr rfl) ?_ (by simp)
      rw [hY]
      simp
    have hmatch : objMatch F.text = some (.scalar '\x7b' :: (l ++ [.scalar '\x7d'])) := by
      rw [htext]
      exact hfind
    rw [objectFact, hmatch, Option.bind_some, hnone]
    rfl

/-- **The three attempts**, on the text of the facts: the list comes back exactly if it is picked. -/
lemma candidateFacts_text_iff : candidateFacts F.text = F.facts ↔ F.Picked := by
  obtain ⟨hwhole, hcut⟩ := F.arrayFacts_text
  obtain ⟨v, vs, hvs⟩ := List.exists_cons_of_ne_nil F.ne_nil
  have hhead : v ∈ F.facts.head? := by
    rw [hvs]
    rfl
  obtain ⟨hfound, hhidden⟩ := F.objectFact_text hhead
  by_cases harr : .scalar ']' ∈ F.text.dropLast
  · by_cases hobj : .scalar '\x7d' ∈ (ofString (dumps v)).dropLast
    · have hfacts : candidateFacts F.text = F.facts := by
        rw [candidateFacts, hcut harr, hhidden hobj]
        exact F.wholeFacts_text
      exact ⟨fun _ => .inr (.inr ⟨v, hhead, hobj⟩), fun _ => hfacts⟩
    · have hone : candidateFacts F.text = [v] := by
        rw [candidateFacts, hcut harr, hfound hobj]
      rw [hone]
      refine ⟨fun heq => .inr (.inl ?_), fun hpicked => ?_⟩
      · rw [← heq]
        rfl
      · rcases hpicked with hwhole' | hlen | ⟨w, hw, hin⟩
        · exact absurd harr hwhole'
        · rw [hvs] at hlen ⊢
          rw [List.length_eq_zero_iff.mp (Nat.succ.inj hlen)]
        · obtain rfl := Option.some.inj (hhead.symm.trans hw)
          exact absurd hin hobj
  · have hfacts : candidateFacts F.text = F.facts := by
      rw [candidateFacts, hwhole harr, hvs]
    exact ⟨fun _ => Or.inl harr, fun _ => hfacts⟩

end ExtractedFacts

/-! ## Fences -/

lemma weigh_fence : weigh tickWeight fence = 3 := by decide

/-- What was cut out between two fences is lighter than the text. -/
lemma weigh_blockMatch_lt {t block : PyText} (h : blockMatch t = some block) :
    weigh tickWeight block < weigh tickWeight t := by
  obtain ⟨a, b, c, rfl, hblock⟩ := fences_of_blockMatch h
  have hle := weigh_le_of_isInfix hblock
  simp only [weigh_append, weigh_fence]
  omega

lemma strip_eq (t : PyText) : strip t = stripList isBlank t := rfl

lemma weigh_strip_le (t : PyText) : weigh tickWeight (strip t) ≤ weigh tickWeight t := by
  refine weigh_le_of_isInfix ?_
  rw [strip_eq, stripList_eq]
  exact (List.rdropWhile_prefix _ _).isInfix.trans (List.dropWhile_suffix _).isInfix

namespace ExtractedFacts

variable (F : ExtractedFacts)

/-- Facts that are found in a text are not heavier than the text. -/
lemma candidateFacts_ne {t : PyText} (h : weigh tickWeight t < weigh tickWeight F.text) :
    candidateFacts t ≠ F.facts := by
  intro heq
  have hle := ticks_candidateFacts_le t
  rw [heq] at hle
  exact absurd h (not_lt.mpr hle)

lemma strip_text : strip F.text = F.text := by
  obtain ⟨X, hX⟩ := F.exists_text_eq
  rw [hX, strip_eq]
  exact stripList_of_ends isBlank (by decide) (by decide) X

/-- **Without a fence around it**, the text is cut if two fences stand in it. -/
lemma parseJsonFacts_text_iff :
    parseJsonFacts F.text = F.facts ↔ ¬TwoFences F.text ∧ F.Picked := by
  by_cases hfences : TwoFences F.text
  · obtain ⟨block, hblock⟩ := exists_blockMatch hfences
    have hcut : candidateStr F.text = strip block := by
      rw [candidateStr, F.strip_text, hblock]
    have hlight := (weigh_strip_le block).trans_lt (weigh_blockMatch_lt hblock)
    rw [parseJsonFacts, hcut]
    exact ⟨fun heq => absurd heq (F.candidateFacts_ne hlight), fun h => absurd hfences h.1⟩
  · have hwhole : candidateStr F.text = F.text := by
      rw [candidateStr, F.strip_text, blockMatch_eq_none hfences]
    rw [parseJsonFacts, hwhole, F.candidateFacts_text_iff]
    exact ⟨fun h => ⟨hfences, h⟩, And.right⟩

end ExtractedFacts

namespace Fencing

variable (f : Fencing)

lemma dropTag_before {u : PyChar} (hu : u ≠ .scalar 'j') (t : PyText) :
    dropTag ((if f.tagged then ofString "json" else []) ++ (f.before ++ u :: t)) =
      f.before ++ u :: t := by
  by_cases htag : f.tagged = true
  · rw [if_pos htag, dropTag, if_pos ⟨_, rfl⟩]
    exact List.drop_left' rfl
  · have hhead : ∃ w ws, f.before ++ u :: t = w :: ws ∧ w ≠ .scalar 'j' := by
      rcases hbefore : f.before with _ | ⟨w, ws⟩
      · exact ⟨u, t, rfl, hu⟩
      · refine ⟨w, ws ++ u :: t, rfl, ?_⟩
        rintro rfl
        have hblank := f.isBlank_before (.scalar 'j') (hbefore ▸ List.mem_cons_self)
        exact absurd hblank (by decide)
    obtain ⟨w, ws, heq, hw⟩ := hhead
    rw [if_neg htag, List.nil_append, heq, dropTag, if_neg]
    rintro ⟨s, hs⟩
    exact hw (List.cons.inj hs).1.symm

lemma strip_wrap (t : PyText) : strip (f.wrap t) = f.wrap t := by
  have hwrap : f.wrap t = .scalar '\x60' :: ((ofString "``" ++
      ((if f.tagged then ofString "json" else []) ++ (f.before ++ (t ++ (f.after ++
        ofString "``"))))) ++ [PyChar.scalar '\x60']) := by
    simp [wrap, fence, ofString]
  rw [hwrap, strip_eq]
  exact stripList_of_ends isBlank (by decide) (by decide) _

/-- The block of a text inside a fence ends at the first fence. -/
lemma blockMatch_wrap (X : PyText) :
    blockMatch (f.wrap (.scalar '[' :: X)) =
      (splitInfix fence (.scalar '[' :: X ++ (f.after ++ fence))).map
        fun r => r.1.rdropWhile isBlank := by
  have hopen : splitInfix fence (f.wrap (.scalar '[' :: X)) =
      some ([], (if f.tagged then ofString "json" else []) ++
        (f.before ++ (.scalar '[' :: X ++ (f.after ++ fence)))) := by
    rw [wrap, splitInfix_of_isPrefix ⟨_, rfl⟩, List.drop_left]
  rw [blockMatch, hopen]
  show (splitInfix fence ((dropTag _).dropWhile isBlank)).bind _ = _
  rw [List.cons_append, f.dropTag_before (by decide), List.dropWhile_append_of_pos f.isBlank_before,
    List.dropWhile_cons_of_neg (by decide)]
  rcases splitInfix fence (.scalar '[' :: (X ++ (f.after ++ fence))) with _ | r
  · rfl
  · rfl

lemma splitInfix_after {t X : PyText} (ht : t = X ++ [.scalar ']']) (h : ¬fence <:+: t) :
    splitInfix fence (t ++ (f.after ++ fence)) = some (t ++ f.after, []) := by
  have hnot : ¬fence <:+: t ++ f.after ++ fence.dropLast := by
    intro hinside
    rw [ht, List.append_assoc, List.append_assoc, List.singleton_append] at hinside
    rcases infix_of_append_cons_of_notMem hinside (by decide) with hX | hafter
    · rw [ht] at h
      exact h (hX.trans (List.prefix_append _ _).isInfix)
    · have hcount := hafter.sublist.count_le (.scalar '\x60')
      have hnone : f.after.count (.scalar '\x60') = 0 := by
        refine List.count_eq_zero.mpr fun hmem => ?_
        exact absurd (f.isBlank_after _ hmem) (by decide)
      rw [List.count_append, hnone] at hcount
      exact absurd hcount (by decide)
  have hsplit := @splitInfix_eq _ fence (t ++ f.after) [] _ hnot (by decide)
  rwa [List.append_nil, List.append_assoc] at hsplit

end Fencing

/-- **Inside a fence**, the text is cut if one fence stands in it. -/
lemma ExtractedFacts.parseJsonFacts_wrap_iff (F : ExtractedFacts) (f : Fencing) :
    parseJsonFacts (f.wrap F.text) = F.facts ↔ ¬fence <:+: F.text ∧ F.Picked := by
  obtain ⟨X, hX⟩ := F.exists_text_eq
  have hmatch : blockMatch (f.wrap F.text) = (splitInfix fence (F.text ++ (f.after ++ fence))).map
      fun r => r.1.rdropWhile isBlank := by
    rw [hX]
    exact f.blockMatch_wrap _
  by_cases hfence : fence <:+: F.text
  · obtain ⟨r, hr⟩ := exists_splitInfix hfence
    have hcut : candidateStr (f.wrap F.text) = strip (r.1.rdropWhile isBlank) := by
      rw [candidateStr, f.strip_wrap, hmatch, splitInfix_append hr]
      rfl
    have hlight : weigh tickWeight (strip (r.1.rdropWhile isBlank)) < weigh tickWeight F.text := by
      have hstrip := weigh_strip_le (r.1.rdropWhile isBlank)
      have hblock := weigh_le_of_isInfix (List.rdropWhile_prefix isBlank r.1).isInfix
      rw [eq_of_splitInfix hr, weigh_append, weigh_append, weigh_fence]
      omega
    rw [parseJsonFacts, hcut]
    exact ⟨fun heq => absurd heq (F.candidateFacts_ne hlight), fun h => absurd hfence h.1⟩
  · have hblock : blockMatch (f.wrap F.text) = some F.text := by
      rw [hmatch, f.splitInfix_after (X := .scalar '[' :: X) hX hfence, Option.map_some,
        rdropWhile_append_of_pos isBlank f.isBlank_after, hX, ← List.cons_append,
        List.rdropWhile_concat_neg _ _ _ (by decide)]
    have hwhole : candidateStr (f.wrap F.text) = F.text := by
      rw [candidateStr, f.strip_wrap, hblock]
      exact F.strip_text
    rw [parseJsonFacts, hwhole, F.candidateFacts_text_iff]
    exact ⟨fun h => ⟨hfence, h⟩, And.right⟩

/-- **Which facts survive**: on its own the list of facts comes back exactly if no two fences stand in
its text and it is picked, inside a fence exactly if no fence stands in its text and it is picked. -/
theorem facts_survive_iff (F : ExtractedFacts) :
    (parseJsonFacts F.text = F.facts ↔ ¬TwoFences F.text ∧ F.Picked) ∧
      ∀ f : Fencing, parseJsonFacts (f.wrap F.text) = F.facts ↔ ¬fence <:+: F.text ∧ F.Picked :=
  ⟨F.parseJsonFacts_text_iff, F.parseJsonFacts_wrap_iff⟩

/-- Two facts, the first of which holds a closing bracket. -/
def bracketedFacts : ExtractedFacts where
  facts := [
    .obj [("subject", .str "a"), ("predicate", .str "p"), ("object", .str "x]")],
    .obj [("subject", .str "b"), ("predicate", .str "q"), ("object", .str "y")]]
  ne_nil := List.cons_ne_nil _ _
  isFact := by decide
  distinct := by simp [Distinct, DistinctItems, DistinctMembers]

/-- Of two facts only the first comes back, if a value in it holds a closing bracket. -/
theorem second_fact_lost : parseJsonFacts bracketedFacts.text ≠ bracketedFacts.facts := by
  have hone : (parseJsonFacts bracketedFacts.text).length = 1 := by decide +kernel
  intro heq
  rw [heq] at hone
  exact absurd hone (by decide)

end ShadowWorker

end AtlasMemory
