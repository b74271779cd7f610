import AtlasMemory.Cognitive.Candidates

/-!
# Arbitration and iteration order

The arbiter sorts the candidates so that its decision does not depend on which record is met first.
The sort is by score alone, and it is stable; so of two records whose candidates have the same
highest score, the arbiter decides about the one that comes first in the dictionary.  The marker of
the write is built before any record is looked at, and a tie with it does no harm.
-/

namespace AtlasMemory

namespace ConflictArbiter

variable (rt : Runtime) (lex : Lexicon) (arbiter : ConflictArbiter) (w : Incoming)

/-! ## Verdicts -/

/-- What the write path goes by: the action, the keys and the reason of an arbitration. -/
structure Verdict where
  action : ArbitrationAction
  supersededKey : Option String
  conflictingKey : Option String
  reason : Option ConflictReason

def verdictOf (r : ArbitrationResult) : Verdict :=
  ⟨r.action, r.supersededKey, r.conflictingKey, r.reason⟩

/-- The verdict is the same in whatever order the records come. -/
def OrderFree (items : PyDict String ExistingItem) : Prop :=
  ∀ items' : PyDict String ExistingItem, items'.entries.Perm items.entries →
    (arbitrate rt lex arbiter w items').map verdictOf =
      (arbitrate rt lex arbiter w items).map verdictOf

/-- The marker of the write, if it has one. -/
def markers : List ArbitrationCandidate :=
  if w.markedConflict rt lex then [explicitMarkerCandidate rt lex w] else []

/-- The candidate of a record has the highest score of all, and a higher one than the marker. -/
def TopScorer (items : PyDict String ExistingItem) (c : ArbitrationCandidate) : Prop :=
  StableSort.IsBest ArbitrationCandidate.score (markers rt lex w)
    (items.entries.filterMap fun e => scanExistingItem rt lex arbiter e.1 e.2 w) c

/-- The candidate would be kept in the metadata without a warning. -/
structure Retained (c : ArbitrationCandidate) : Prop where
  notSuperseding :
    EpistemicDecisionKernel.decideAction lex w.key c.key (kernelInput rt arbiter w c) ≠ .supersede
  notInversion : c.reason ≠ .confidenceInversion
  lowScore : c.score < arbiter.highScoreThreshold
  notMarker : c.reason ≠ .explicitConflictMarker
  notCollision : c.reason ≠ .exclusivityCollision

/-- At most one record has a top score, or the candidates of all that have it are kept for the same
reason. -/
def TopScorersAgree (items : PyDict String ExistingItem) : Prop :=
  ∀ c c', TopScorer rt lex arbiter w items c → TopScorer rt lex arbiter w items c' →
    c.key = c'.key ∨
      Retained rt lex arbiter w c ∧ Retained rt lex arbiter w c' ∧ c.reason = c'.reason

variable {rt lex arbiter w} {items : PyDict String ExistingItem} {c c' : ArbitrationCandidate}

/-! ## What the verdict depends on -/

/-- The verdict about sorted candidates is that about the first. -/
lemma verdictOf_decideBest (cs : List ArbitrationCandidate) :
    verdictOf (decideBest rt lex arbiter w cs) =
      verdictOf (decideBest rt lex arbiter w cs.head?.toList) := by
  cases cs with
  | nil => rfl
  | cons best others =>
      rw [List.head?_cons, Option.toList_some]
      unfold decideBest
      dsimp only
      split_ifs
      all_goals rfl

lemma verdictOf_of_retained (h : Retained rt lex arbiter w c) :
    verdictOf (decideBest rt lex arbiter w [c]) = ⟨.accept, none, none, some c.reason⟩ := by
  have hquiet : ¬ (arbiter.highScoreThreshold ≤ c.score ∨ c.reason = .explicitConflictMarker ∨
      c.reason = .exclusivityCollision) := by
    rintro (hhigh | hmarker | hcollision)
    · exact absurd h.lowScore (not_lt.mpr hhigh)
    · exact h.notMarker hmarker
    · exact h.notCollision hcollision
  unfold decideBest
  dsimp only
  rw [if_neg h.notSuperseding, if_neg h.notInversion, if_neg hquiet]
  rfl

/-- A candidate that is not merely kept is named as the conflict. -/
lemma conflictingKey_of_not_retained (h : ¬ Retained rt lex arbiter w c) :
    (verdictOf (decideBest rt lex arbiter w [c])).conflictingKey = some c.key := by
  unfold decideBest
  dsimp only
  split_ifs with hsup hinv hloud
  · rfl
  · rfl
  · rfl
  · rw [not_or, not_or, not_le] at hloud
    exact absurd ⟨hsup, hinv, hloud.1, hloud.2.1, hloud.2.2⟩ h

/-- Candidates with the same verdict have the same key, or both are kept for the same reason. -/
lemma verdictOf_eq_iff (hkey : c.key = c'.key → c = c') :
    verdictOf (decideBest rt lex arbiter w [c]) = verdictOf (decideBest rt lex arbiter w [c']) ↔
      c.key = c'.key ∨
        Retained rt lex arbiter w c ∧ Retained rt lex arbiter w c' ∧ c.reason = c'.reason := by
  constructor
  · intro h
    have hnamed := congrArg Verdict.conflictingKey h
    by_cases hc : Retained rt lex arbiter w c
    · by_cases hc' : Retained rt lex arbiter w c'
      · rw [verdictOf_of_retained hc, verdictOf_of_retained hc'] at h
        exact Or.inr ⟨hc, hc', Option.some.inj (congrArg Verdict.reason h)⟩
      · rw [verdictOf_of_retained hc, conflictingKey_of_not_retained hc'] at hnamed
        exact absurd hnamed (by simp)
    · by_cases hc' : Retained rt lex arbiter w c'
      · rw [conflictingKey_of_not_retained hc, verdictOf_of_retained hc'] at hnamed
        exact absurd hnamed (by simp)
      · rw [conflictingKey_of_not_retained hc, conflictingKey_of_not_retained hc'] at hnamed
        exact Or.inl (Option.some.inj hnamed)
  · rintro (hsame | ⟨hc, hc', hreason⟩)
    · rw [hkey hsame]
    · rw [verdictOf_of_retained hc, verdictOf_of_retained hc', hreason]

/-- Records have different keys, and so have their candidates. -/
lemma eq_of_key_eq
    (hc : c ∈ items.entries.filterMap fun e => scanExistingItem rt lex arbiter e.1 e.2 w)
    (hc' : c' ∈ items.entries.filterMap fun e => scanExistingItem rt lex arbiter e.1 e.2 w)
    (hkey : c.key = c'.key) : c = c' := by
  have hrecord : ∀ {c : ArbitrationCandidate} {e : String × ExistingItem},
      scanExistingItem rt lex arbiter e.1 e.2 w = some c → c.key = e.1 := by
    intro c e hscan
    obtain ⟨p, -, hcand⟩ := Option.bind_eq_some_iff.mp hscan
    exact (candidateOf_spec hcand).1
  obtain ⟨e, he, hscan⟩ := List.mem_filterMap.mp hc
  obtain ⟨e', he', hscan'⟩ := List.mem_filterMap.mp hc'
  have hfst : e.1 = e'.1 := by rw [← hrecord hscan, ← hrecord hscan', hkey]
  have hsnd : some e.2 = some e'.2 := by
    rw [← PyDict.mem_entries_iff.mp he, ← PyDict.mem_entries_iff.mp he', hfst]
  rw [hfst, Option.some.inj hsnd] at hscan
  exact Option.some.inj (hscan.symm.trans hscan')

/-! ## Reordered records -/

/-- The verdict about valid candidates is read off the head of the sorted ones. -/
lemma map_verdictOf_arbitrate
    (h : (foundCandidates rt lex arbiter w items).all ArbitrationCandidate.valid = true) :
    (arbitrate rt lex arbiter w items).map verdictOf =
      .ok (verdictOf (decideBest rt lex arbiter w
        (sortByScore (foundCandidates rt lex arbiter w items)).head?.toList)) := by
  rw [arbitrate_of_valid h, ← verdictOf_decideBest]
  rfl

lemma all_valid_of_perm {items' : PyDict String ExistingItem}
    (hperm : items'.entries.Perm items.entries) :
    (foundCandidates rt lex arbiter w items').all ArbitrationCandidate.valid =
      (foundCandidates rt lex arbiter w items).all ArbitrationCandidate.valid :=
  ((hperm.filterMap _).append_left _).all_eq

lemma arbitrate_of_not_valid
    (h : ¬ (foundCandidates rt lex arbiter w items).all ArbitrationCandidate.valid = true) :
    arbitrate rt lex arbiter w items =
      .error ⟨.valueError, "1 validation error for ArbitrationCandidate"⟩ := by
  unfold arbitrate generateCandidates
  dsimp only
  rw [if_neg h]
  rfl

/-- The verdict about valid candidates does not depend on the order of the records exactly if the
top scorers agree. -/
lemma orderFree_iff_of_valid
    (hvalid : (foundCandidates rt lex arbiter w items).all ArbitrationCandidate.valid = true) :
    OrderFree rt lex arbiter w items ↔ TopScorersAgree rt lex arbiter w items := by
  let read : Option ArbitrationCandidate → Verdict := fun o =>
    verdictOf (decideBest rt lex arbiter w o.toList)
  have hread := @StableSort.read_head_iff _ _ _ _ _ ArbitrationCandidate.score
    (markers rt lex w) (fun e : String × ExistingItem => scanExistingItem rt lex arbiter e.1 e.2 w)
    items.entries read
  have horder : OrderFree rt lex arbiter w items ↔ ∀ es : List (String × ExistingItem),
      es.Perm items.entries →
        read (sortByScore (markers rt lex w ++ es.filterMap fun e =>
          scanExistingItem rt lex arbiter e.1 e.2 w)).head? =
        read (sortByScore (foundCandidates rt lex arbiter w items)).head? := by
    constructor
    · intro hfree es hperm
      have hnodup : (es.map Prod.fst).Nodup :=
        (hperm.map Prod.fst).nodup_iff.mpr items.nodupKeys
      have heq := hfree ⟨es, hnodup⟩ hperm
      rw [map_verdictOf_arbitrate hvalid,
        map_verdictOf_arbitrate ((all_valid_of_perm hperm).trans hvalid)] at heq
      exact Except.ok.inj heq
    · intro hes items' hperm
      rw [map_verdictOf_arbitrate hvalid,
        map_verdictOf_arbitrate ((all_valid_of_perm hperm).trans hvalid)]
      exact congrArg Except.ok (hes items'.entries hperm)
  rw [horder]
  refine hread.trans ?_
  constructor
  · intro hbest c c' hc hc'
    exact (verdictOf_eq_iff (eq_of_key_eq hc.mem hc'.mem)).mp (hbest c c' hc hc')
  · intro hagree c c' hc hc'
    exact (verdictOf_eq_iff (eq_of_key_eq hc.mem hc'.mem)).mpr (hagree c c' hc hc')

def editorWrite : Incoming := ⟨"alpha:editor", .str "only vim", 9 / 10, ∅⟩

def emacsItem : ExistingItem := .dict (some (.str "only emacs")) none none (some (9 / 10)) none none

/-- Two records that exclude the claim alike. -/
def emacsItems : PyDict String ExistingItem :=
  PyDict.ofEntries [("alpha:ide", emacsItem), ("alpha:tool", emacsItem)]

end ConflictArbiter

end AtlasMemory
