import AtlasMemory.Cognitive.ConflictArbiter
import AtlasMemory.Foundations.StableSort

/-!
# Candidates and their order

What is known of a candidate from where it was found, and which of the candidates the arbiter decides
about: the first of those with the highest score, in the order in which they were found.
-/

namespace AtlasMemory

namespace ConflictArbiter

variable {rt : Runtime} {lex : Lexicon} {arbiter : ConflictArbiter} {w : Incoming}

/-! ## Where candidates come from -/

lemma arbitrate_of_valid {items : PyDict String ExistingItem}
    (h : (foundCandidates rt lex arbiter w items).all ArbitrationCandidate.valid = true) :
    arbitrate rt lex arbiter w items =
      .ok (decideBest rt lex arbiter w (sortByScore (foundCandidates rt lex arbiter w items))) := by
  unfold arbitrate generateCandidates
  dsimp only
  rw [if_pos h]
  rfl

lemma sorted_of_generateCandidates {items : PyDict String ExistingItem}
    {cs : List ArbitrationCandidate} (h : generateCandidates rt lex arbiter w items = .ok cs) :
    sortByScore (foundCandidates rt lex arbiter w items) = cs := by
  unfold generateCandidates at h
  dsimp only at h
  split_ifs at h
  exact Except.ok.inj h

/-- A candidate is the marker, or belongs to a live record. -/
lemma candidate_source {items : PyDict String ExistingItem} {c : ArbitrationCandidate}
    (hc : c ∈ foundCandidates rt lex arbiter w items) :
    c = explicitMarkerCandidate rt lex w ∨ ∃ e ∈ items.entries, ∃ p,
      e.2.parse rt = some p ∧ candidateOf rt lex arbiter e.1 p w = some c := by
  unfold foundCandidates at hc
  rcases List.mem_append.mp hc with hc | hc
  · left
    split_ifs at hc
    · exact List.mem_singleton.mp hc
    · exact absurd hc List.not_mem_nil
  · right
    obtain ⟨e, he, hscan⟩ := List.mem_filterMap.mp hc
    obtain ⟨p, hp, hcand⟩ := Option.bind_eq_some_iff.mp hscan
    exact ⟨e, he, p, hp, hcand⟩

/-- The detectors report a contradiction, never a revision or an inversion. -/
lemma reason_of_firstSemanticConflict {ctx : CrossContext} {f : Finding}
    (h : firstSemanticConflict lex ctx = some f) :
    f.reason = .exclusivityCollision ∨ f.reason = .semanticContradiction ∨
      f.reason = .exclusivityViolation := by
  unfold firstSemanticConflict at h
  obtain ⟨detector, hmem, hfound⟩ := List.exists_of_findSome?_eq_some h
  simp only [List.mem_cons, List.not_mem_nil, or_false] at hmem
  rcases hmem with rfl | rfl | rfl | rfl | rfl
  · unfold detectExclusivityCollision at hfound
    dsimp only at hfound
    split_ifs at hfound
    all_goals exact Or.inl (by rw [← Option.some.inj hfound])
  · unfold detectProhibitionContradiction at hfound
    dsimp only at hfound
    split_ifs at hfound
    exact Or.inr (Or.inl (by rw [← Option.some.inj hfound]))
  · unfold detectCapabilityConflict at hfound
    dsimp only at hfound
    split_ifs at hfound
    exact Or.inr (Or.inl (by rw [← Option.some.inj hfound]))
  · unfold detectExclusivityViolation at hfound
    dsimp only at hfound
    split_ifs at hfound
    exact Or.inr (Or.inr (by rw [← Option.some.inj hfound]))
  · unfold detectPolarityContradiction at hfound
    dsimp only at hfound
    split_ifs at hfound
    exact Or.inr (Or.inl (by rw [← Option.some.inj hfound]))

/-- A cross-key candidate is one of the record, for a contradiction. -/
lemma scanCrossKey_spec {exK : String} {p : ParsedItem} {c : ArbitrationCandidate}
    (h : scanCrossKey rt lex arbiter exK p w = some c) :
    c.key = exK ∧ c.confidence = p.confidence ∧ c.reason ≠ .beliefRevision ∧
      c.reason ≠ .confidenceInversion := by
  unfold scanCrossKey at h
  dsimp only at h
  split_ifs at h
  all_goals
    obtain ⟨f, hf, rfl⟩ := Option.map_eq_some_iff.mp h
    rcases reason_of_firstSemanticConflict hf with hr | hr | hr
    all_goals
      refine ⟨rfl, rfl, ?_, ?_⟩
      · show f.reason ≠ _
        rw [hr]
        nofun
      · show f.reason ≠ _
        rw [hr]
        nofun

lemma confidenceInversionCandidate_spec {exK : String} {p : ParsedItem} {same : Bool}
    {c : ArbitrationCandidate} (h : confidenceInversionCandidate rt exK p w same = some c) :
    c.key = exK ∧ c.confidence = p.confidence ∧ c.metadata = p.metadata ∧ c.score = 90 ∧
      c.reason = .confidenceInversion := by
  unfold confidenceInversionCandidate at h
  dsimp only at h
  split_ifs at h
  all_goals
    rw [← Option.some.inj h]
    exact ⟨rfl, rfl, rfl, rfl, rfl⟩

/-- A candidate has the key of its record, and revises it only if the metadata name the key or the
write is to the same key. -/
lemma candidateOf_spec {exK : String} {p : ParsedItem} {c : ArbitrationCandidate}
    (h : candidateOf rt lex arbiter exK p w = some c) :
    c.key = exK ∧ (c.reason = .beliefRevision → w.supersedes exK = true ∨ exK = w.key) := by
  unfold candidateOf at h
  split_ifs at h with hsup hkey
  · rw [← Option.some.inj h]
    exact ⟨rfl, fun _ => Or.inl hsup⟩
  · refine ⟨?_, fun _ => Or.inr hkey⟩
    cases hsame : evaluateSameKey rt lex arbiter exK p w with
    | none =>
        rw [hsame, Option.getD_none] at h
        exact (scanCrossKey_spec h).1
    | some found =>
        rw [hsame, Option.getD_some] at h
        subst h
        unfold evaluateSameKey at hsame
        dsimp only at hsame
        split_ifs at hsame
        · exact (confidenceInversionCandidate_spec (Option.some.inj hsame)).1
        · rw [← Option.some.inj (Option.some.inj hsame)]
          rfl
        · obtain ⟨c', hc', heq⟩ := Option.map_eq_some_iff.mp hsame
          rw [← Option.some.inj heq]
          exact (confidenceInversionCandidate_spec hc').1
  · obtain ⟨hkey', -, hreason, -⟩ := scanCrossKey_spec h
    exact ⟨hkey', fun hrev => absurd hrev hreason⟩

/-- A revision has a key that the metadata name, or the key of the write. -/
lemma named_of_beliefRevision {items : PyDict String ExistingItem} {c : ArbitrationCandidate}
    (hc : c ∈ foundCandidates rt lex arbiter w items) (hreason : c.reason = .beliefRevision) :
    w.supersedes c.key = true ∨ c.key = w.key := by
  rcases candidate_source hc with rfl | ⟨e, -, p, -, hcand⟩
  · exact Or.inr rfl
  · obtain ⟨hkey, hnamed⟩ := candidateOf_spec hcand
    rw [hkey]
    exact hnamed hreason

/-! ## The best candidate -/

/-- The best candidate is the first of those with the highest score. -/
lemma head?_sortByScore {l : List ArbitrationCandidate} {c : ArbitrationCandidate} :
    (sortByScore l).head? = some c ↔ ∃ pre post, l = pre ++ c :: post ∧
      (∀ a ∈ pre, a.score < c.score) ∧ ∀ a ∈ post, a.score ≤ c.score :=
  StableSort.head?_sortBy

end ConflictArbiter

end AtlasMemory
