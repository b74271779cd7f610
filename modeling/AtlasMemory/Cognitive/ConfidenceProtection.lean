import AtlasMemory.Cognitive.Candidates
import AtlasMemory.Cognitive.WriteOutcome

/-!
# Confidence protection

A write to the key of an established record, with another value, a lower confidence and no word of a
revision, is meant to be rejected, and the record to stay.  The record gives a candidate with the
score 90 for that, but only the best candidate decides: a rival with a higher score lets the write
through with a warning.  `protected_iff` says exactly when the record is protected.
-/

namespace AtlasMemory

namespace ConflictArbiter

variable {rt : Runtime} {lex : Lexicon} {arbiter : ConflictArbiter} {w : Incoming}

/-! ## The candidate of the inversion -/

/-- The record is established, and the write has a lower confidence; lower by more than a fifth if
the two texts agree up to case. -/
def StandsAgainst (rt : Runtime) (lex : Lexicon) (p : ParsedItem) (w : Incoming) : Prop :=
  (9 / 10 ≤ p.confidence ∨
    ((orElseTruthy rt (p.metadata.get? "source_type")
      (orElseTruthy rt (p.metadata.get? "source") none)).map rt.pyStr).getD "" = "user_explicit") ∧
  (if lex.lower p.value = w.valStr rt lex then 1 / 5 else 0) < p.confidence - w.confidence

/-- A rule counts as melted, by the metadata of the record or of the write, and the write is
confident enough to replace it. -/
def MeltsRule (rt : Runtime) (p : ParsedItem) (w : Incoming) : Prop :=
  (rt.truthy ((p.metadata.get? "is_rule_melted").getD .null) = true ∨
    rt.truthy ((w.metadata.get? "is_rule_melted").getD .null) = true) ∧ 7 / 10 ≤ w.confidence

lemma confidence_lt_of_standsAgainst {p : ParsedItem} (h : StandsAgainst rt lex p w) :
    w.confidence < p.confidence := by
  have hdrop := h.2
  split_ifs at hdrop
  all_goals linarith

lemma isSome_inversion_iff (exK : String) {p : ParsedItem} :
    (confidenceInversionCandidate rt exK p w
      (decide (lex.lower p.value = w.valStr rt lex))).isSome = true ↔ StandsAgainst rt lex p w := by
  unfold confidenceInversionCandidate StandsAgainst
  by_cases htext : lex.lower p.value = w.valStr rt lex
  all_goals
    simp only [htext, decide_true, decide_false, if_true, if_false, Bool.false_eq_true]
    split_ifs with h
    · exact iff_of_true rfl h
    · exact iff_of_false (by decide) h

/-- An inversion is reported for a record of the key that stands against the write. -/
lemma standsAgainst_of_candidate {exK : String} {p : ParsedItem} {c : ArbitrationCandidate}
    (h : candidateOf rt lex arbiter exK p w = some c) (hreason : c.reason = .confidenceInversion) :
    exK = w.key ∧ StandsAgainst rt lex p w ∧ c.score = 90 ∧ c.confidence = p.confidence ∧
      c.metadata = p.metadata := by
  unfold candidateOf at h
  split_ifs at h with hsup hkey
  · rw [← Option.some.inj h] at hreason
    cases hreason
  · refine ⟨hkey, ?_⟩
    cases hsame : evaluateSameKey rt lex arbiter exK p w with
    | none =>
        rw [hsame, Option.getD_none] at h
        exact absurd hreason (scanCrossKey_spec h).2.2.2
    | some found =>
        rw [hsame, Option.getD_some] at h
        subst h
        unfold evaluateSameKey at hsame
        dsimp only at hsame
        split_ifs at hsame with htext hrev
        · have hcand := Option.some.inj hsame
          obtain ⟨-, hconf, hmeta, hscore, -⟩ := confidenceInversionCandidate_spec hcand
          refine ⟨(isSome_inversion_iff exK).mp ?_, hscore, hconf, hmeta⟩
          rw [decide_eq_true htext, hcand]
          rfl
        · rw [← Option.some.inj (Option.some.inj hsame)] at hreason
          cases hreason
        · obtain ⟨c', hcand, heq⟩ := Option.map_eq_some_iff.mp hsame
          obtain rfl := Option.some.inj heq
          obtain ⟨-, hconf, hmeta, hscore, -⟩ := confidenceInversionCandidate_spec hcand
          refine ⟨(isSome_inversion_iff exK).mp ?_, hscore, hconf, hmeta⟩
          rw [decide_eq_false htext, hcand]
          rfl
  · exact absurd hreason (scanCrossKey_spec h).2.2.2

/-- A record of the key that stands against the write gives the candidate of the inversion, unless
the write names the key or the engine finds the rule melted. -/
lemma candidate_of_standsAgainst {p : ParsedItem} (h : StandsAgainst rt lex p w)
    (hnamed : w.supersedes w.key = false) (hmelted : arbiter.ruleMelted lex w.key = false) :
    ∃ c, candidateOf rt lex arbiter w.key p w = some c ∧ c.reason = .confidenceInversion := by
  have hconf := confidence_lt_of_standsAgainst h
  obtain ⟨c, hcand⟩ := Option.isSome_iff_exists.mp ((isSome_inversion_iff w.key).mpr h)
  refine ⟨c, ?_, (confidenceInversionCandidate_spec hcand).2.2.2.2⟩
  unfold candidateOf
  rw [hnamed, if_neg (by decide), if_pos rfl]
  unfold evaluateSameKey
  dsimp only
  by_cases htext : lex.lower p.value = w.valStr rt lex
  · rw [decide_eq_true htext] at hcand
    rw [if_pos htext, Option.getD_some, hcand]
  · rw [decide_eq_false htext] at hcand
    -- the user's word replaces a record of at most the same confidence only
    have hrev : ¬((w.isUserExplicit rt arbiter = true ∧
        arbiter.confidenceThreshold ≤ w.confidence ∧ p.confidence ≤ w.confidence) ∨
        (false = true ∧ 7 / 10 ≤ w.confidence)) := by
      rintro (⟨-, -, hle⟩ | ⟨hfalse, -⟩)
      · exact absurd hle (not_le.mpr hconf)
      · exact absurd hfalse (by decide)
    rw [if_neg htext, hmelted, if_neg hrev, hcand]
    rfl

/-- The kernel lets an inversion of the key pass only for a melted rule. -/
lemma supersede_of_inversion {p : ParsedItem} {c : ArbitrationCandidate} (hkey : c.key = w.key)
    (hreason : c.reason = .confidenceInversion) (hconf : c.confidence = p.confidence)
    (hmeta : c.metadata = p.metadata) (hlt : w.confidence < p.confidence)
    (hnamed : w.supersedes w.key = false) (hflag : w.flagged = false) :
    EpistemicDecisionKernel.decideAction lex w.key c.key (kernelInput rt arbiter w c) = .supersede ↔
      MeltsRule rt p w := by
  have hexplicit : (kernelInput rt arbiter w c).isExplicitSupersede = false := by
    simp [kernelInput, hreason, hkey, hnamed, hflag]
  have hlower : ¬(kernelInput rt arbiter w c).existingConf ≤
      (kernelInput rt arbiter w c).incomingConf := by
    show ¬c.confidence ≤ w.confidence
    rw [hconf]
    exact not_le.mpr hlt
  unfold EpistemicDecisionKernel.decideAction EpistemicDecisionKernel.canSupersede
  rw [hkey, if_neg (fun h => h.1 rfl), hexplicit]
  simp only [hlower, decide_false, Bool.and_false, Bool.false_and,
    Bool.or_false, Bool.false_or, Bool.or_true, Bool.and_true, if_true, decide_true]
  have hmelts : ((kernelInput rt arbiter w c).isRuleMelted = true ∧
      7 / 10 ≤ (kernelInput rt arbiter w c).incomingConf) ↔ MeltsRule rt p w := by
    unfold MeltsRule kernelInput
    rw [hmeta]
    simp [Bool.or_eq_true]
  rw [← hmelts]
  by_cases hboth : (kernelInput rt arbiter w c).isRuleMelted = true ∧
      7 / 10 ≤ (kernelInput rt arbiter w c).incomingConf
  · simp [hboth]
  · rw [if_neg (by simpa using hboth)]
    refine iff_of_false ?_ hboth
    split_ifs <;> rintro ⟨⟩

/-! ## The rejection -/

/-- The write is rejected exactly if its best candidate is an inversion that the kernel lets stand. -/
lemma rejects_decideBest_iff {cs : List ArbitrationCandidate} :
    WritePath.rejects (decideBest rt lex arbiter w cs) = true ↔ ∃ best, cs.head? = some best ∧
      best.reason = .confidenceInversion ∧
      EpistemicDecisionKernel.decideAction lex w.key best.key (kernelInput rt arbiter w best) ≠
        .supersede := by
  cases cs with
  | nil => simp [WritePath.rejects, decideBest]
  | cons best others =>
      simp only [List.head?_cons, Option.some.injEq, exists_eq_left']
      unfold WritePath.rejects decideBest
      dsimp only
      split_ifs with hsup hreason hhigh
      · simp [hsup]
      · simp [hreason, hsup]
      · simp [hreason]
      · simp [hreason]

/-- The record under the key stands against the write, and no candidate beats the one it gives; every
candidate passes its validation. -/
def Shields (rt : Runtime) (lex : Lexicon) (arbiter : ConflictArbiter) (w : Incoming)
    (items : PyDict String ExistingItem) : Prop :=
  (∃ item p, items.get? w.key = some item ∧ item.parse rt = some p ∧ StandsAgainst rt lex p w ∧
    ¬MeltsRule rt p w) ∧
  ∀ c ∈ foundCandidates rt lex arbiter w items, c.valid = true ∧ c.score ≤ 90

lemma not_markedConflict_of_score {items : PyDict String ExistingItem}
    (h : ∀ c ∈ foundCandidates rt lex arbiter w items, c.score ≤ 90) :
    w.markedConflict rt lex = false := by
  by_contra hmarked
  rw [Bool.not_eq_false] at hmarked
  have hmem : explicitMarkerCandidate rt lex w ∈ foundCandidates rt lex arbiter w items := by
    unfold foundCandidates
    rw [if_pos hmarked]
    exact List.mem_append_left _ (List.mem_singleton.mpr rfl)
  have hscore : (100 : ℚ) ≤ 90 := h _ hmem
  exact absurd hscore (by norm_num)

/-- **The rejection.**  A write that says nothing of a revision, to the key of the record that comes
first, is rejected exactly if that record shields it. -/
theorem rejected_iff_shields {items : PyDict String ExistingItem} {item : ExistingItem}
    (hfirst : items.entries.head? = some (w.key, item)) (hnamed : w.supersedes w.key = false)
    (hflag : w.flagged = false) (hmelted : arbiter.ruleMelted lex w.key = false) :
    (∃ r, arbitrate rt lex arbiter w items = .ok r ∧ WritePath.rejects r = true) ↔
      Shields rt lex arbiter w items := by
  have hitem : items.get? w.key = some item :=
    PyDict.mem_entries_iff.mp (List.mem_of_mem_head? hfirst)
  constructor
  · rintro ⟨r, hr, hrejects⟩
    unfold arbitrate at hr
    cases hgen : generateCandidates rt lex arbiter w items with
    | error err => simp [hgen, Except.map] at hr
    | ok cs =>
        have hvalid : (foundCandidates rt lex arbiter w items).all ArbitrationCandidate.valid =
            true := by
          by_contra hvalid
          unfold generateCandidates at hgen
          dsimp only at hgen
          rw [if_neg hvalid] at hgen
          cases hgen
        obtain rfl := sorted_of_generateCandidates hgen
        obtain rfl : decideBest rt lex arbiter w _ = r := by simpa [hgen, Except.map] using hr
        obtain ⟨best, hbest, hreason, hkernel⟩ := rejects_decideBest_iff.mp hrejects
        obtain ⟨pre, post, hfound, hpre, hpost⟩ := head?_sortByScore.mp hbest
        have hmem : best ∈ foundCandidates rt lex arbiter w items := by
          rw [hfound]
          exact List.mem_append_right _ List.mem_cons_self
        rcases candidate_source hmem with rfl | ⟨e, he, p, hp, hcand⟩
        · cases hreason
        · obtain ⟨hkey, hstands, hscore, hconf, hmeta⟩ := standsAgainst_of_candidate hcand hreason
          have hbestkey : best.key = w.key := (candidateOf_spec hcand).1.trans hkey
          have hget : items.get? w.key = some e.2 := by
            rw [← hkey]
            exact PyDict.mem_entries_iff.mp he
          refine ⟨⟨e.2, p, hget, hp, hstands, fun hmelts => hkernel ?_⟩, fun c hc => ⟨?_, ?_⟩⟩
          · exact (supersede_of_inversion hbestkey hreason hconf hmeta
              (confidence_lt_of_standsAgainst hstands) hnamed hflag).mpr hmelts
          · exact List.all_eq_true.mp hvalid c hc
          · rw [hfound] at hc
            rcases List.mem_append.mp hc with hc | hc
            · exact (hpre c hc).le.trans hscore.le
            · rcases List.mem_cons.mp hc with rfl | hc
              · exact hscore.le
              · exact (hpost c hc).trans hscore.le
  · rintro ⟨⟨item', p, hget, hp, hstands, hmelts⟩, hall⟩
    obtain rfl : item = item' := Option.some.inj (hitem.symm.trans hget)
    obtain ⟨c, hcand, hreason⟩ := @candidate_of_standsAgainst _ _ _ _ _ hstands hnamed hmelted
    obtain ⟨-, -, hscore, hconf, hmeta⟩ := standsAgainst_of_candidate hcand hreason
    have hkey : c.key = w.key := (candidateOf_spec hcand).1
    -- the candidate is the first one, so that no rival with the same score comes before it
    have hfound : ∃ rest, foundCandidates rt lex arbiter w items = c :: rest := by
      obtain ⟨tail, htail⟩ := List.head?_eq_some_iff.mp hfirst
      have hscan : scanExistingItem rt lex arbiter w.key item w = some c := by
        unfold scanExistingItem
        rw [hp]
        exact hcand
      refine ⟨tail.filterMap fun e => scanExistingItem rt lex arbiter e.1 e.2 w, ?_⟩
      unfold foundCandidates
      rw [not_markedConflict_of_score fun c hc => (hall c hc).2, htail]
      simp [hscan]
    obtain ⟨rest, hrest⟩ := hfound
    have hhead : (sortByScore (foundCandidates rt lex arbiter w items)).head? = some c := by
      refine head?_sortByScore.mpr ⟨[], rest, hrest, fun a ha => absurd ha List.not_mem_nil,
        fun a ha => ?_⟩
      rw [hscore]
      refine (hall a ?_).2
      rw [hrest]
      exact List.mem_cons_of_mem c ha
    refine ⟨_, arbitrate_of_valid (List.all_eq_true.mpr fun a ha => (hall a ha).1),
      rejects_decideBest_iff.mpr ⟨c, hhead, hreason, fun hsup => hmelts ?_⟩⟩
    exact (supersede_of_inversion hkey hreason hconf hmeta
      (confidence_lt_of_standsAgainst hstands) hnamed hflag).mp hsup

end ConflictArbiter

namespace WritePath

variable {ρ : Type} {env : WriteEnv ρ}

/-! ## The record of the key comes first -/

/-- The key is the first of the dictionary. -/
def FirstKey {ν : Type} (d : PyDict String ν) (key : String) : Prop := d.keys.head? = some key

lemma firstKey_set {ν : Type} {d : PyDict String ν} {key : String} (h : FirstKey d key)
    (k : String) (v : ν) : FirstKey (d.set k v) key := by
  have hkeys : (d.set k v).keys = if k ∈ d.keys then d.keys else d.keys ++ [k] :=
    PyDict.map_fst_assign k v d.entries
  unfold FirstKey at h ⊢
  rw [hkeys]
  split_ifs
  · exact h
  · rw [List.head?_append, h]
    rfl

lemma firstKey_addRows {t : StateTable} {cap : Option ℕ} {key : String} (keys : List String)
    {items : PyDict String MemoryItem} (h : FirstKey items key) :
    FirstKey (addRows env t cap keys items) key := by
  unfold addRows
  induction keys generalizing items with
  | nil => exact h
  | cons k ks ih =>
      rw [List.foldl_cons]
      apply ih
      cases t.get? k with
      | none => exact h
      | some row =>
          dsimp only
          split_ifs
          · exact h
          · exact firstKey_set h k _

lemma firstKey_addNamed {t : StateTable} {metadata : PyDict String Json} {key : String}
    {items : PyDict String MemoryItem} (h : FirstKey items key) :
    FirstKey (addNamed env t metadata items) key := by
  unfold addNamed
  split
  · dsimp only
    split_ifs
    · exact h
    · split
      · exact firstKey_set h _ _
      · exact h
  · exact h

lemma firstKey_mixIn {key : String} (es : List HotBufferEntry) {items : PyDict String MemoryItem}
    (h : FirstKey items key) : FirstKey (es.foldl mixIn items) key := by
  induction es generalizing items with
  | nil => exact h
  | cons e es ih =>
      rw [List.foldl_cons]
      apply ih
      unfold mixIn
      split_ifs
      · exact h
      · split
        · split_ifs
          · exact h
          · exact firstKey_set h _ _
        · exact firstKey_set h _ _

/-- The arbitration sees the record of the key first, whatever else there is. -/
lemma firstKey_existingItems {s : Stores ρ} {key : String} {row : StateRow}
    (h : s.kv.db.stateVariables.get? key = some row) (value : Json) (metadata : PyDict String Json)
    (session : Option String) (now : ℚ) :
    FirstKey (existingItems env s key value metadata session now) key := by
  have hexact : FirstKey (addRows env s.kv.db.stateVariables none [key] ∅) key := by
    unfold addRows
    rw [List.foldl_cons, List.foldl_nil, h]
    rfl
  unfold existingItems getArbitrationCandidates
  apply firstKey_mixIn
  apply firstKey_addNamed
  extract_lets exact root inNamespace withNamespace
  have hrows : FirstKey withNamespace key := firstKey_addRows inNamespace hexact
  split_ifs
  · exact firstKey_addRows _ hrows
  · exact hrows

lemma head?_arbiterItems {items : PyDict String MemoryItem} {key : String}
    (h : FirstKey items key) : ∃ item, (arbiterItems items).entries.head? = some (key, item) := by
  unfold FirstKey PyDict.keys at h
  unfold arbiterItems
  rw [PyDict.entries_mapValues]
  obtain ⟨e, he, rfl⟩ := Option.map_eq_some_iff.mp (List.head?_map.symm.trans h)
  rw [List.head?_map, he]
  exact ⟨_, rfl⟩

/-! ## Rejections -/

/-- The call returns a rejection and leaves the record of the key as it was. -/
def Protected (env : WriteEnv ρ) (s : Stores ρ) (req : WriteRequest ρ) (times : WriteTimes)
    (key : String) : Prop :=
  (∃ resp, (write env s req times).2 = .ok resp ∧ resp.status = "rejected") ∧
    (write env s req times).1.kv.db.stateVariables.get? key = s.kv.db.stateVariables.get? key

variable {s : Stores ρ} {req : WriteRequest ρ} {times : WriteTimes} {input : NormalizedInput}

lemma protected_of_stopped (hinput : normalizeWriteInput env req = .ok input)
    (h : StoppedByGate env input) : Protected env s req times input.key := by
  obtain ⟨resp, hwrite, hstatus, -⟩ := @write_of_stopped _ env s req times input hinput h
  unfold Protected
  rw [hwrite]
  exact ⟨⟨resp, rfl, hstatus⟩, rfl⟩

lemma not_protected_of_replay (hinput : normalizeWriteInput env req = .ok input)
    (hgate : ¬StoppedByGate env input) (hreplay : TakenForReplay env s req input) :
    ¬Protected env s req times input.key := by
  rintro ⟨⟨resp, hresp, hstatus⟩, -⟩
  rw [write_of_replay hinput hgate hreplay] at hresp
  obtain rfl := Except.ok.inj hresp
  have hok : "ok" = "rejected" := hstatus
  exact absurd hok (by decide)

lemma writeArbitrated_of_error {w : ConflictArbiter.Incoming} {err : PyError}
    (h : env.arbiter.arbitrate env.rt env.lex w (arbiterItems
      (existingItems env s w.key w.val w.metadata req.sessionId times.scanned)) = .error err) :
    writeArbitrated env s req w.key w.val w.metadata w.confidence times = (s, .error err) := by
  unfold writeArbitrated
  dsimp only
  rw [h]

lemma writeArbitrated_of_ok {w : ConflictArbiter.Incoming} {r : ArbitrationResult}
    (h : env.arbiter.arbitrate env.rt env.lex w (arbiterItems
      (existingItems env s w.key w.val w.metadata req.sessionId times.scanned)) = .ok r) :
    (rejects r = true → writeArbitrated env s req w.key w.val w.metadata w.confidence times =
      (s, .ok (rejected w.key "reject_conflict" "epistemic_conflict" none r.conflictDetails))) ∧
    (rejects r ≠ true → ∀ resp,
      (writeArbitrated env s req w.key w.val w.metadata w.confidence times).2 = .ok resp →
        resp.status = "ok") := by
  unfold writeArbitrated
  dsimp only
  rw [h]
  dsimp only
  constructor
  · intro hrejects
    rw [if_pos hrejects]
  · intro hrejects resp hresp
    rw [if_neg hrejects] at hresp
    split at hresp
    · cases hresp
    · exact (response_of_persist hresp).1

/-- The arbitration decides whether the write is rejected. -/
lemma protected_iff_rejects (hinput : normalizeWriteInput env req = .ok input)
    (hgate : ¬StoppedByGate env input) (hreplay : ¬TakenForReplay env s req input) :
    Protected env s req times input.key ↔ ∃ r,
      env.arbiter.arbitrate env.rt env.lex (incomingOf env req input)
        (arbitrated env s req input times) = .ok r ∧ rejects r = true := by
  unfold Protected
  rw [write_eq_arbitrated hinput hgate hreplay]
  cases harb : env.arbiter.arbitrate env.rt env.lex (incomingOf env req input)
      (arbitrated env s req input times) with
  | error err =>
      rw [writeArbitrated_of_error harb]
      simp
  | ok r =>
      obtain ⟨hrejected, haccepted⟩ := writeArbitrated_of_ok harb
      constructor
      · rintro ⟨⟨resp, hresp, hstatus⟩, -⟩
        refine ⟨r, rfl, ?_⟩
        by_contra hrejects
        rw [haccepted hrejects resp hresp] at hstatus
        exact absurd hstatus (by decide)
      · rintro ⟨r', hr', hrejects⟩
        obtain rfl := Except.ok.inj hr'
        rw [hrejected hrejects]
        exact ⟨⟨_, rfl, rfl⟩, rfl⟩

/-! ## Protected records -/

/-- A write challenges an established record: it has its key, another value and a lower confidence,
names no revision, and the rule is not melted. -/
structure Challenges (env : WriteEnv ρ) (s : Stores ρ) (req : WriteRequest ρ)
    (input : NormalizedInput) (row : StateRow) : Prop where
  normalized : normalizeWriteInput env req = .ok input
  stored : s.kv.db.stateVariables.get? input.key = some row
  live : markedSuperseded (row.toMemoryItem env.rt input.key).metadata = false
  established : 9 / 10 ≤ row.confidence ∨
    (row.toMemoryItem env.rt input.key).metadata.get? "source_type" = some (.str "user_explicit")
  different : input.value ≠ row.decodedValue
  lower : input.confidence.lt (.finite row.confidence) = true
  unnamed : input.metadata.get? "supersedes" = none
  unflagged : isTrue (input.metadata.get? "is_belief_revision") = false
  unsuperseding : input.metadata.get? "action" ≠ some (.str "supersede")
  unmelted : env.arbiter.ruleMelted env.lex input.key = false

lemma supersedes_of_challenges {row : StateRow} (h : Challenges env s req input row) :
    (incomingOf env req input).supersedes (incomingOf env req input).key = false := by
  unfold ConflictArbiter.Incoming.supersedes
  rw [get?_incomingOf (by decide), h.unnamed]

lemma flagged_of_challenges {row : StateRow} (h : Challenges env s req input row) :
    (incomingOf env req input).flagged = false := by
  unfold ConflictArbiter.Incoming.flagged
  rw [get?_incomingOf (by decide), get?_incomingOf (by decide), h.unflagged, Bool.false_or]
  split
  · rename_i action haction
    refine decide_eq_false fun hsupersede => h.unsuperseding ?_
    rw [haction, hsupersede]
  · rfl

/-- A challenged record is protected where the arbitration shields it. -/
lemma protected_iff_shields {row : StateRow} (h : Challenges env s req input row)
    (hgate : ¬StoppedByGate env input) (hreplay : ¬TakenForReplay env s req input) :
    Protected env s req times input.key ↔
      ConflictArbiter.Shields env.rt env.lex env.arbiter (incomingOf env req input)
        (arbitrated env s req input times) := by
  rw [protected_iff_rejects h.normalized hgate hreplay]
  obtain ⟨item, hfirst⟩ := head?_arbiterItems (@firstKey_existingItems _ env _ _ _ h.stored
    input.value (incomingOf env req input).metadata req.sessionId times.scanned)
  exact ConflictArbiter.rejected_iff_shields hfirst (supersedes_of_challenges h)
    (flagged_of_challenges h) h.unmelted

/-- **Confidence protection.**  A challenged record is protected if and only if a gate stops the
write, or the write is no replay and the record that the arbitration sees under the key shields it:
that record stands against the write, and no candidate has a higher score. -/
theorem protected_iff {row : StateRow} (h : Challenges env s req input row) :
    Protected env s req times input.key ↔
      StoppedByGate env input ∨ ¬TakenForReplay env s req input ∧
        ConflictArbiter.Shields env.rt env.lex env.arbiter (incomingOf env req input)
          (arbitrated env s req input times) := by
  by_cases hgate : StoppedByGate env input
  · exact iff_of_true (protected_of_stopped h.normalized hgate) (Or.inl hgate)
  by_cases hreplay : TakenForReplay env s req input
  · refine iff_of_false (not_protected_of_replay h.normalized hgate hreplay) ?_
    rintro (hstop | ⟨hno, -⟩)
    · exact hgate hstop
    · exact hno hreplay
  · rw [protected_iff_shields h hgate hreplay]
    constructor
    · exact fun hshields => Or.inr ⟨hreplay, hshields⟩
    · rintro (hstop | ⟨-, hshields⟩)
      · exact absurd hstop hgate
      · exact hshields

/-! ## A rival that opens the way -/

/-- The stores with one more record, on the user's word. -/
def withFact (s : Stores Unit) (key value : String) : Stores Unit :=
  let fact : SetArgs :=
    { key := key
      value := .str value
      metadata := some (PyDict.ofEntries [("source_type", .str "user_explicit")]) }
  { s with kv := s.kv.call sampleWriteEnv.rt (.setSync fact 1) }

def establishedStores : Stores Unit := withFact emptyStores "fact:alpha:plan" "only sync deploy"

/-- An established record beside another one of the same entity. -/
def rivalStores : Stores Unit := withFact establishedStores "fact:alpha:stage" "only test deploy"

def establishedRow : StateRow where
  value := "\"only sync deploy\""
  confidence := 1
  timestamp := .finite 1
  metadata := some "\x7b\"source_type\": \"user_explicit\"\x7d"
  valueHash := some "#\"only sync deploy\""

/-- A later write to its key, without any confidence. -/
def challenge : WriteRequest Unit where
  key := .str "fact:alpha:plan"
  value := .str "only merge deploy"
  confidence := .finite 0

/-- The arguments of the challenge after their normalisation. -/
def challengeInput : NormalizedInput :=
  ⟨"fact:alpha:plan", .str "only merge deploy", .finite 0, ∅, none⟩

example : establishedStores.kv.db.stateVariables.get? "fact:alpha:plan" = some establishedRow := by
  decide +kernel

lemma not_stopped_challenge : ¬StoppedByGate sampleWriteEnv challengeInput := by
  rintro (hturn | hground)
  · exact absurd hturn (by decide +kernel)
  · exact absurd hground (by decide +kernel)

lemma not_replay_challenge {s : Stores Unit} :
    ¬TakenForReplay sampleWriteEnv s challenge challengeInput := by
  intro h
  have hfalse : (false || false) = true := (Bool.and_eq_true_iff.mp (Bool.and_eq_true_iff.mp h).1).1
  exact absurd hfalse (by decide)

lemma challenges_of_stored {s : Stores Unit}
    (h : s.kv.db.stateVariables.get? "fact:alpha:plan" = some establishedRow) :
    Challenges sampleWriteEnv s challenge challengeInput establishedRow where
  normalized := rfl
  stored := h
  live := by decide +kernel
  established := Or.inl (by show (9 / 10 : ℚ) ≤ 1; norm_num)
  different h := absurd (congrArg Json.dumps h) (by decide +kernel)
  lower := by decide +kernel
  unnamed := rfl
  unflagged := rfl
  unsuperseding := by nofun
  unmelted := by decide +kernel

theorem protected_established :
    Protected sampleWriteEnv establishedStores challenge (timesAt 2) "fact:alpha:plan" := by
  refine (protected_iff (challenges_of_stored (by decide +kernel))).mpr
    (Or.inr ⟨not_replay_challenge, ?_⟩)
  have hfound : (ConflictArbiter.foundCandidates sampleWriteEnv.rt sampleWriteEnv.lex
      sampleWriteEnv.arbiter (incomingOf sampleWriteEnv challenge challengeInput)
      (arbitrated sampleWriteEnv establishedStores challenge challengeInput (timesAt 2))).map
        (fun c => (c.reason, c.valid, c.score)) = [(.confidenceInversion, true, 90)] := by
    unfold ConflictArbiter.foundCandidates ConflictArbiter.scanExistingItem
      ConflictArbiter.candidateOf ConflictArbiter.scanCrossKey
    simp -zeta only [show sampleWriteEnv.lex = sampleLexicon from rfl, LexicalProfile.of,
      OverlapMeasures.of, extractStems_genericWords, unspecificStems_sampleLexicon]
    decide +kernel
  obtain ⟨c, hc, hdata⟩ := List.map_eq_singleton_iff.mp hfound
  obtain ⟨hreason, hrest⟩ := Prod.mk.inj hdata
  obtain ⟨hvalid, hscore⟩ := Prod.mk.inj hrest
  refine ⟨?_, fun c' hc' => ?_⟩
  · rcases ConflictArbiter.candidate_source (hc ▸ List.mem_singleton.mpr rfl) with
      rfl | ⟨e, he, p, hp, hcand⟩
    · cases hreason
    · obtain ⟨hkey, hstands, -⟩ := ConflictArbiter.standsAgainst_of_candidate hcand hreason
      refine ⟨e.2, p, ?_, hp, hstands, fun hmelts => ?_⟩
      · rw [← hkey]
        exact PyDict.mem_entries_iff.mp he
      · exact absurd hmelts.2 (by decide +kernel)
  · rw [hc] at hc'
    obtain rfl := List.mem_singleton.mp hc'
    exact ⟨hvalid, hscore.le⟩

/-- The protection is lost: a candidate of the other record has a higher score, and the challenge
goes through with a warning. -/
theorem protection_lost :
    Challenges sampleWriteEnv rivalStores challenge challengeInput establishedRow ∧
      ¬Protected sampleWriteEnv rivalStores challenge (timesAt 2) challengeInput.key := by
  have hchallenges : Challenges sampleWriteEnv rivalStores challenge challengeInput
      establishedRow := challenges_of_stored (by decide +kernel)
  refine ⟨hchallenges, fun hprotected => ?_⟩
  have hshields := (protected_iff_shields hchallenges not_stopped_challenge
    not_replay_challenge).mp hprotected
  have hrival : (ConflictArbiter.foundCandidates sampleWriteEnv.rt sampleWriteEnv.lex
      sampleWriteEnv.arbiter (incomingOf sampleWriteEnv challenge challengeInput)
      (arbitrated sampleWriteEnv rivalStores challenge challengeInput (timesAt 2))).any
        (fun c => decide (90 < c.score)) = true := by
    unfold ConflictArbiter.foundCandidates ConflictArbiter.scanExistingItem
      ConflictArbiter.candidateOf ConflictArbiter.scanCrossKey
    simp -zeta only [show sampleWriteEnv.lex = sampleLexicon from rfl, LexicalProfile.of,
      OverlapMeasures.of, extractStems_genericWords, unspecificStems_sampleLexicon]
    decide +kernel
  obtain ⟨c, hc, hscore⟩ := List.any_eq_true.mp hrival
  exact absurd (hshields.2 c hc).2 (not_le.mpr (of_decide_eq_true hscore))

end WritePath

end AtlasMemory
