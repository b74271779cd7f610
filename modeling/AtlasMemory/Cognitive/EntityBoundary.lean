import AtlasMemory.Cognitive.Candidates

/-!
# The entity boundary

The kernel is documented to guarantee that a write supersedes the record of another key only inside
one entity.  Its argument `is_explicit_supersede` lifts the check, and `arbitrate` sets it also for
two flags of the metadata that name no key: then the best candidate is superseded, of whatever
entity it is.  `boundary_respected_iff` says exactly when the boundary holds.
-/

namespace AtlasMemory

namespace ConflictArbiter

variable {rt : Runtime} {lex : Lexicon} {arbiter : ConflictArbiter} {w : Incoming}

/-! ## The boundary -/

/-- A superseded key other than the key of the write is named by the metadata or belongs to the same
entity, without a multi-valued slot. -/
def BoundaryRespected (lex : Lexicon) (w : Incoming) (r : ArbitrationResult) : Prop :=
  ∀ s, r.action = .supersede → r.supersededKey = some s → s ≠ w.key →
    w.supersedes s = true ∨ EpistemicDecisionKernel.SameEntity lex w.key s

/-- A flag without a name meets a best candidate of another entity. -/
def FlagCrosses (rt : Runtime) (lex : Lexicon) (arbiter : ConflictArbiter) (w : Incoming)
    (items : PyDict String ExistingItem) : Prop :=
  w.flagged = true ∧ ∃ best,
    (sortByScore (foundCandidates rt lex arbiter w items)).head? = some best ∧
    best.key ≠ w.key ∧ w.supersedes best.key = false ∧
    EpistemicDecisionKernel.multiValued lex w.key best.key = false ∧
    entityRoot lex w.key ≠ entityRoot lex best.key

/-- The result supersedes exactly if the kernel says so about the best candidate. -/
lemma decideBest_supersede {best : ArbitrationCandidate} {others : List ArbitrationCandidate}
    {s : String} :
    ((decideBest rt lex arbiter w (best :: others)).action = .supersede ∧
      (decideBest rt lex arbiter w (best :: others)).supersededKey = some s) ↔
    (EpistemicDecisionKernel.decideAction lex w.key best.key (kernelInput rt arbiter w best) =
      .supersede ∧ best.key = s) := by
  unfold decideBest
  dsimp only
  split_ifs with h <;> simp [h]

lemma supersede_of_decideBest_nil {s : String} :
    ¬((decideBest rt lex arbiter w []).action = .supersede ∧
      (decideBest rt lex arbiter w []).supersededKey = some s) := by
  rintro ⟨haction, -⟩
  have haccept : ArbitrationAction.accept = .supersede := haction
  exact absurd haccept (by decide)

/-- **The boundary.**  It is respected unless a flag that names no key meets a best candidate of
another entity. -/
theorem boundary_respected_iff {items : PyDict String ExistingItem} {r : ArbitrationResult}
    (h : arbitrate rt lex arbiter w items = .ok r) :
    BoundaryRespected lex w r ↔ ¬FlagCrosses rt lex arbiter w items := by
  obtain ⟨cs, hcs, rfl⟩ : ∃ cs, generateCandidates rt lex arbiter w items = .ok cs ∧
      decideBest rt lex arbiter w cs = r := by
    unfold arbitrate at h
    cases hgen : generateCandidates rt lex arbiter w items with
    | error err => simp [hgen, Except.map] at h
    | ok cs => exact ⟨cs, rfl, by simpa [hgen, Except.map] using h⟩
  have hsorted := sorted_of_generateCandidates hcs
  unfold FlagCrosses
  rw [hsorted]
  cases cs with
  | nil =>
      refine iff_of_true (fun s haction hs => ?_) (by simp)
      exact absurd ⟨haction, hs⟩ supersede_of_decideBest_nil
  | cons best others =>
      have hbest : best ∈ foundCandidates rt lex arbiter w items := by
        have hmem : best ∈ sortByScore (foundCandidates rt lex arbiter w items) := by
          rw [hsorted]
          exact List.mem_cons_self
        exact (List.mem_insertionSort _).mp hmem
      constructor
      · -- a crossing flag makes the kernel supersede across the boundary
        rintro hrespects ⟨hflag, b, hb, hne, hnamed, hmulti, hroot⟩
        obtain rfl : best = b := by simpa using hb
        have hexplicit : (kernelInput rt arbiter w best).isExplicitSupersede = true := by
          simp [kernelInput, hflag]
        have hkernel := (@EpistemicDecisionKernel.supersede_of_explicit lex w.key best.key _
          hexplicit).mpr (Or.inr hmulti)
        obtain ⟨haction, hs⟩ := decideBest_supersede.mpr ⟨hkernel, rfl⟩
        rcases hrespects best.key haction hs hne with hsup | hsame
        · rw [hsup] at hnamed
          exact absurd hnamed (by decide)
        · exact hroot hsame.1
      · intro hflag s haction hs hne
        obtain ⟨hkernel, rfl⟩ := decideBest_supersede.mp ⟨haction, hs⟩
        have hmulti := EpistemicDecisionKernel.not_multiValued_of_supersede (Ne.symm hne) hkernel
        by_cases hsup : w.supersedes best.key = true
        · exact Or.inl hsup
        right
        rw [Bool.not_eq_true] at hsup
        by_cases hexplicit : w.flagged = true
        · refine ⟨?_, hmulti⟩
          by_contra hroot
          exact hflag ⟨hexplicit, best, rfl, hne, hsup, hmulti, hroot⟩
        · -- without a flag only a named revision lifts the check
          refine EpistemicDecisionKernel.sameEntity_of_supersede (Ne.symm hne) ?_ hkernel
          have hreason : best.reason ≠ .beliefRevision := by
            intro hreason
            rcases named_of_beliefRevision hbest hreason with hnamed | hkey
            · rw [hnamed] at hsup
              exact absurd hsup (by decide)
            · exact hne hkey
          simp [kernelInput, hreason, hsup, hexplicit]

end ConflictArbiter

/-! ## A flag that crosses the boundary -/

/-- A write about one entity, flagged as a revision. -/
def flaggedWrite : ConflictArbiter.Incoming where
  key := "fact:alpha:plan"
  val := .str "only sync deploy"
  confidence := 1
  metadata := PyDict.ofEntries [("is_belief_revision", .bool true)]

def otherEntityItems : PyDict String ExistingItem :=
  PyDict.ofEntries [("fact:beta:plan",
    .dict (some (.str "only test deploy")) none none (some (9 / 10)) none none)]

/-- The record of the other entity is the one candidate of the write. -/
lemma candidates_flaggedWrite :
    (ConflictArbiter.foundCandidates Runtime.sample sampleLexicon {} flaggedWrite
      otherEntityItems).map (fun c => (c.key, c.valid)) = [("fact:beta:plan", true)] := by
  unfold ConflictArbiter.foundCandidates ConflictArbiter.scanExistingItem
    ConflictArbiter.candidateOf ConflictArbiter.scanCrossKey
  simp -zeta only [LexicalProfile.of, OverlapMeasures.of, extractStems_genericWords,
    unspecificStems_sampleLexicon]
  decide +kernel

/-- The boundary is crossed: the record of `fact:beta` is superseded by a write about `fact:alpha`,
which neither names it nor shares its entity. -/
theorem boundary_crossed : ∃ r,
    ConflictArbiter.arbitrate Runtime.sample sampleLexicon {} flaggedWrite otherEntityItems =
      .ok r ∧ ¬ConflictArbiter.BoundaryRespected sampleLexicon flaggedWrite r := by
  obtain ⟨best, hfound, hbest⟩ := List.map_eq_singleton_iff.mp candidates_flaggedWrite
  obtain ⟨hkey, hvalid⟩ := Prod.mk.inj hbest
  have harbitrate := @ConflictArbiter.arbitrate_of_valid Runtime.sample sampleLexicon {}
    flaggedWrite otherEntityItems (by rw [hfound]; simp [hvalid])
  have hsorted : ConflictArbiter.sortByScore [best] = [best] := rfl
  rw [hfound, hsorted] at harbitrate
  refine ⟨_, harbitrate, fun hrespects => ?_⟩
  have hunnamed : flaggedWrite.supersedes "fact:beta:plan" = false := by decide
  have hmulti : EpistemicDecisionKernel.multiValued sampleLexicon "fact:alpha:plan"
      "fact:beta:plan" = false := by decide
  have hroots : entityRoot sampleLexicon "fact:alpha:plan" ≠
      entityRoot sampleLexicon "fact:beta:plan" := by decide
  have hkernel : EpistemicDecisionKernel.decideAction sampleLexicon flaggedWrite.key best.key
      (ConflictArbiter.kernelInput Runtime.sample {} flaggedWrite best) = .supersede := by
    refine (EpistemicDecisionKernel.supersede_of_explicit ?_).mpr (Or.inr ?_)
    · have hflag : flaggedWrite.flagged = true := by decide
      simp [ConflictArbiter.kernelInput, hflag]
    · rw [hkey]
      exact hmulti
  obtain ⟨haction, hs⟩ := ConflictArbiter.decideBest_supersede.mpr ⟨hkernel, hkey⟩
  rcases hrespects "fact:beta:plan" haction hs (by decide) with h | h
  · rw [hunnamed] at h
    exact absurd h (by decide)
  · exact hroots h.1

/-- A write that names the record it revises. -/
def namedWrite : ConflictArbiter.Incoming :=
  { flaggedWrite with metadata := PyDict.ofEntries [("supersedes", .str "fact:beta:plan")] }

theorem boundary_respected_namedWrite : ∃ r,
    ConflictArbiter.arbitrate Runtime.sample sampleLexicon {} namedWrite otherEntityItems = .ok r ∧
      r.supersededKey = some "fact:beta:plan" ∧
      ConflictArbiter.BoundaryRespected sampleLexicon namedWrite r := by
  have h := @ConflictArbiter.arbitrate_of_valid Runtime.sample sampleLexicon {} namedWrite
    otherEntityItems (by decide +kernel)
  refine ⟨_, h, by decide, (ConflictArbiter.boundary_respected_iff h).mpr ?_⟩
  rintro ⟨hflag, -⟩
  exact absurd hflag (by decide)

end AtlasMemory
