import AtlasMemory.L3Procedural.SleepBaker
import Mathlib.Data.Set.List

/-!
# The groups of the sleep baker

A signature is read back to the sequence of tools if no tool has an arrow in its name, so there is
one group for every sequence.  What a group counts depends on which trajectories there are and not
on their order; only the steps of the procedure are those of the first one.
-/

namespace AtlasMemory

/-- The name of a tool has no arrow in it. -/
def ArrowFree (token : String) : Prop := ¬ ['-', '>'] <:+: token.toList

instance (token : String) : Decidable (ArrowFree token) := inferInstanceAs (Decidable (¬ _))

lemma toList_toolSignature (tokens : List String) :
    (toolSignature tokens).toList = ['-', '>'].intercalate (tokens.map String.toList) :=
  String.toList_intercalate

/-- A sequence of tools is determined by its signature. -/
lemma toolSignature_inj {tokens tokens' : List String} (hne : tokens ≠ []) (hne' : tokens' ≠ [])
    (hfree : ∀ t ∈ tokens, ArrowFree t) (hfree' : ∀ t ∈ tokens', ArrowFree t)
    (h : toolSignature tokens = toolSignature tokens') : tokens = tokens' := by
  have hlist := congrArg String.toList h
  rw [toList_toolSignature, toList_toolSignature] at hlist
  have hmap : tokens.map String.toList = tokens'.map String.toList := by
    refine SeparatedText.intercalate_pair_inj (by decide) (by simpa using hne) (by simpa using hne')
      ?_ ?_ hlist
    · intro x hx
      obtain ⟨t, ht, rfl⟩ := List.mem_map.mp hx
      exact hfree t ht
    · intro x hx
      obtain ⟨t, ht, rfl⟩ := List.mem_map.mp hx
      exact hfree' t ht
  exact List.map_injective_iff.mpr (fun _ _ => String.toList_inj.mp) hmap

/-! ## The trajectories that were read -/

/-- The signature of a trajectory that was read. -/
abbrev sigOf (run : SessionRun) : String := toolSignature run.tokens

namespace BakerEnv

variable (env : BakerEnv)

/-- The trajectory as it was read, if it was and is not skipped. -/
def runOf (t : RawTrajectory) : Option SessionRun := (env.readTrajectory t).toOption.join

def runs (ts : List RawTrajectory) : List SessionRun := ts.filterMap env.runOf

variable {env}

lemma runOf_of_read {t : RawTrajectory} {o : Option SessionRun} (h : env.readTrajectory t = .ok o) :
    env.runOf t = o := by
  rw [runOf, h]
  rfl

lemma signature_ne_of_runOf {t : RawTrajectory} {run : SessionRun} (h : env.runOf t = some run) :
    toolSignature run.tokens ≠ "" := by
  cases hread : env.readTrajectory t with
  | error e =>
      rw [runOf, hread] at h
      exact absurd h (by simp [Except.toOption])
  | ok o =>
      rw [runOf_of_read hread] at h
      subst h
      unfold readTrajectory at hread
      split at hread
      · exact absurd hread (by simp)
      · obtain ⟨items, -, hmoves⟩ := exists_of_bind_eq_ok hread
        cases hsteps : env.extractSteps items with
        | error e => rw [hsteps] at hmoves; exact absurd hmoves (by simp [Except.map])
        | ok moves =>
            rw [hsteps] at hmoves
            have hrun := Except.ok.inj hmoves
            simp only [Option.ite_none_left_eq_some] at hrun
            rw [← Option.some.inj hrun.2]
            exact hrun.1

lemma tokens_ne_nil_of_mem {ts : List RawTrajectory} {run : SessionRun} (h : run ∈ env.runs ts) :
    run.tokens ≠ [] := by
  obtain ⟨t, -, ht⟩ := List.mem_filterMap.mp h
  intro hnil
  have hsig := signature_ne_of_runOf ht
  rw [hnil] at hsig
  exact hsig rfl

lemma runs_perm {ts ts' : List RawTrajectory} (h : ts.Perm ts') :
    (env.runs ts).Perm (env.runs ts') := h.filterMap env.runOf

lemma runs_concat (ts : List RawTrajectory) {t : RawTrajectory} {o : Option SessionRun}
    (h : env.readTrajectory t = .ok o) : env.runs (ts ++ [t]) = env.runs ts ++ o.toList := by
  rw [runs, List.filterMap_append]
  cases o <;> simp [runOf_of_read h, runs]

lemma groupedStats_concat (ts : List RawTrajectory) (t : RawTrajectory) :
    env.groupedStats (ts ++ [t]) = (env.groupedStats ts).bind fun d =>
      (env.readTrajectory t).map fun
        | none => d
        | some run => d.set (sigOf run) (SopGroup.add (d.get? (sigOf run)) run) := by
  rw [groupedStats, List.foldlM_append]
  simp only [List.foldlM_cons, List.foldlM_nil, bind_pure]
  rfl

/-- The statistics are those of the trajectories that were read. -/
lemma groupedStats_eq_ok_iff {ts : List RawTrajectory} {d : PyDict String SopGroup} :
    env.groupedStats ts = .ok d ↔ (∀ t ∈ ts, ∃ o, env.readTrajectory t = .ok o) ∧
      d = PyDict.groupBy sigOf SopGroup.add (env.runs ts) := by
  induction ts using List.reverseRecOn generalizing d with
  | nil => simp [groupedStats, runs, PyDict.groupBy, pure, Except.pure, eq_comm]
  | append_singleton ts t ih =>
      rw [groupedStats_concat]
      constructor
      · intro h
        obtain ⟨d₀, hd₀, hlast⟩ := exists_of_bind_eq_ok h
        obtain ⟨hall, rfl⟩ := ih.mp hd₀
        cases hread : env.readTrajectory t with
        | error e => rw [hread] at hlast; exact absurd hlast (by simp [Except.map])
        | ok o =>
            rw [hread] at hlast
            refine ⟨?_, ?_⟩
            · intro t' ht'
              rcases List.mem_append.mp ht' with ht' | ht'
              · exact hall t' ht'
              · rw [List.mem_singleton.mp ht']
                exact ⟨o, hread⟩
            · rw [← Except.ok.inj hlast, runs_concat ts hread]
              cases o with
              | none => simp
              | some run => simp [PyDict.groupBy_concat]
      · rintro ⟨hall, rfl⟩
        obtain ⟨o, hread⟩ := hall t (by simp)
        have hbefore := ih.mpr ⟨fun t' ht' => hall t' (by simp [ht']), rfl⟩
        rw [hbefore, hread, runs_concat ts hread]
        cases o with
        | none => simp [Except.bind, Except.map]
        | some run => simp [PyDict.groupBy_concat, Except.bind, Except.map]

end BakerEnv

/-! ## What a group has collected -/

/-- The group has the trajectories, in their order; the steps of the first one are its sample. -/
structure SopGroup.Collects (g : SopGroup) (runs : List SessionRun) : Prop where
  count : g.count = runs.length
  successes : g.successes = runs.countP SessionRun.success
  sampleSteps : runs.head?.map SessionRun.steps = some g.sampleSteps
  allSteps : g.allSteps = runs.map SessionRun.steps
  contexts : g.contexts = runs.map SessionRun.context

lemma SopGroup.collects_first (run : SessionRun) : (SopGroup.add none run).Collects [run] := by
  refine ⟨rfl, ?_, rfl, rfl, rfl⟩
  cases h : run.success <;> simp [SopGroup.add, h]

lemma SopGroup.collects_more {g : SopGroup} {runs : List SessionRun} (run : SessionRun)
    (hg : g.Collects runs) (hsteps : ∀ r ∈ runs, r.steps ≠ []) :
    (SopGroup.add (some g) run).Collects (runs ++ [run]) := by
  obtain ⟨first, rest, rfl⟩ : ∃ first rest, runs = first :: rest := by
    cases runs with
    | nil => exact absurd hg.sampleSteps (by simp)
    | cons first rest => exact ⟨first, rest, rfl⟩
  have hsample : g.sampleSteps = first.steps := (Option.some.inj hg.sampleSteps).symm
  have hne : first.steps ≠ [] := hsteps first List.mem_cons_self
  refine ⟨?_, ?_, ?_, ?_, ?_⟩
  · simp [SopGroup.add, hg.count]
  · rw [List.countP_append, ← hg.successes]
    cases h : run.success <;> simp [SopGroup.add, h]
  · simp [SopGroup.add, hsample, hne]
  · simp [SopGroup.add, hg.allSteps]
  · simp [SopGroup.add, hg.contexts]

lemma SopGroup.exists_collects {runs : List SessionRun} (hruns : runs ≠ [])
    (hsteps : ∀ r ∈ runs, r.steps ≠ []) :
    ∃ g, runs.foldl (fun g run => some (SopGroup.add g run)) none = some g ∧ g.Collects runs := by
  induction runs using List.reverseRecOn with
  | nil => exact absurd rfl hruns
  | append_singleton runs run ih =>
      rw [List.foldl_append]
      by_cases hempty : runs = []
      · subst hempty
        exact ⟨_, rfl, SopGroup.collects_first run⟩
      · have hearlier : ∀ r ∈ runs, r.steps ≠ [] := fun r hr =>
          hsteps r (List.mem_append_left _ hr)
        obtain ⟨g, hfold, hg⟩ := ih hempty hearlier
        rw [hfold]
        exact ⟨_, rfl, SopGroup.collects_more run hg hearlier⟩

/-! ## The groups of the trajectories -/

namespace BakerEnv

variable {env : BakerEnv}

lemma steps_ne_nil_of_mem {ts : List RawTrajectory} {run : SessionRun} (h : run ∈ env.runs ts) :
    run.steps ≠ [] := by
  have htokens := tokens_ne_nil_of_mem h
  simpa [SessionRun.steps, SessionRun.tokens] using htokens

/-- The group of a signature has the trajectories with this signature. -/
lemma exists_group_of_signature {ts : List RawTrajectory} {sig : String}
    (h : ∃ run ∈ env.runs ts, sigOf run = sig) :
    ∃ g, (PyDict.groupBy sigOf SopGroup.add (env.runs ts)).get? sig = some g ∧
      g.Collects ((env.runs ts).filter fun run => sigOf run = sig) := by
  rw [PyDict.get?_groupBy]
  refine SopGroup.exists_collects ?_ fun run hrun =>
    steps_ne_nil_of_mem (List.mem_of_mem_filter hrun)
  obtain ⟨run, hrun, hsig⟩ := h
  exact List.ne_nil_of_mem (List.mem_filter.mpr ⟨hrun, decide_eq_true hsig⟩)

/-- What is read from a group when it is decided whether it becomes a procedure, and under which
name: its signature and its counts. -/
def shape (e : String × SopGroup) : String × ℕ × ℕ := (e.1, e.2.count, e.2.successes)

lemma nodup_shapes (d : PyDict String SopGroup) : (d.entries.map shape).Nodup := by
  refine List.Nodup.of_map Prod.fst ?_
  rw [List.map_map]
  exact d.nodupKeys

lemma exists_entry_of_perm {ts ts' : List RawTrajectory} (hperm : ts.Perm ts')
    {e : String × SopGroup}
    (he : e ∈ (PyDict.groupBy sigOf SopGroup.add (env.runs ts)).entries) :
    ∃ e' ∈ (PyDict.groupBy sigOf SopGroup.add (env.runs ts')).entries,
      shape e' = shape e ∧ e'.2.contexts.Perm e.2.contexts := by
  obtain ⟨sig, g⟩ := e
  have hget := PyDict.mem_entries_iff.mp he
  have hrun := (PyDict.mem_keys_groupBy sigOf SopGroup.add _ _).mp (PyDict.mem_keys_of_get? hget)
  have hruns : (env.runs ts').Perm (env.runs ts) := runs_perm hperm.symm
  have hfilter := hruns.filter fun run => decide (sigOf run = sig)
  obtain ⟨g₁, hg₁, hcol⟩ := exists_group_of_signature hrun
  obtain ⟨run, hmem, hsig⟩ := hrun
  obtain ⟨g', hg', hcol'⟩ := exists_group_of_signature ⟨run, hruns.mem_iff.mpr hmem, hsig⟩
  have hsame : g = g₁ := Option.some.inj (hget.symm.trans hg₁)
  subst hsame
  refine ⟨(sig, g'), PyDict.mem_entries_iff.mpr hg', ?_, ?_⟩
  · simp only [shape, hcol.count, hcol.successes, hcol'.count, hcol'.successes, hfilter.length_eq,
      hfilter.countP_eq]
  · rw [hcol.contexts, hcol'.contexts]
    exact hfilter.map _

/-- The signatures and counts of the groups do not depend on the order of the trajectories. -/
lemma shapes_perm {ts ts' : List RawTrajectory} (hperm : ts.Perm ts') :
    ((PyDict.groupBy sigOf SopGroup.add (env.runs ts)).entries.map shape).Perm
      ((PyDict.groupBy sigOf SopGroup.add (env.runs ts')).entries.map shape) := by
  refine (List.perm_ext_iff_of_nodup (nodup_shapes _) (nodup_shapes _)).mpr fun x => ?_
  have hsub : ∀ {us us' : List RawTrajectory}, us.Perm us' →
      x ∈ (PyDict.groupBy sigOf SopGroup.add (env.runs us)).entries.map shape →
      x ∈ (PyDict.groupBy sigOf SopGroup.add (env.runs us')).entries.map shape := by
    intro us us' h hx
    obtain ⟨e, he, rfl⟩ := List.mem_map.mp hx
    obtain ⟨e', he', hshape, -⟩ := exists_entry_of_perm h he
    exact List.mem_map.mpr ⟨e', he', hshape⟩
  exact ⟨hsub hperm, hsub hperm.symm⟩

lemma countUniqueSessions_perm {ts ts' : List RawTrajectory} (h : ts.Perm ts') :
    env.countUniqueSessions ts = env.countUniqueSessions ts' :=
  ((h.filterMap env.sessionOf).dedup).length_eq

end BakerEnv

/-! ## The procedures -/

/-- A loop that collects the results of its rounds returns if all of them do. -/
lemma mapM_eq_ok_iff {ε α β : Type} {f : α → Except ε β} {l : List α} {r : List β} :
    l.mapM f = .ok r ↔ l.map f = r.map .ok := by
  induction l generalizing r with
  | nil => cases r <;> simp [pure, Except.pure]
  | cons a l ih =>
      rw [List.mapM_cons, List.map_cons]
      constructor
      · intro h
        obtain ⟨b, hb, hrest⟩ := exists_of_bind_eq_ok h
        obtain ⟨bs, hbs, hr⟩ := exists_of_bind_eq_ok hrest
        rw [← Except.ok.inj hr, List.map_cons, hb, ih.mp hbs]
      · intro h
        cases r with
        | nil => exact absurd h (by simp)
        | cons b bs =>
            obtain ⟨hb, hbs⟩ := List.cons.inj h
            rw [hb, ih.mpr hbs]
            rfl

/-- A procedure without its steps and contexts. -/
structure ProcedureSummary where
  procedureId : String
  name : String
  signature : String
  invocationsCount : ℕ
  successRate : ℚ
  deriving DecidableEq

/-- The procedure without its steps and contexts. -/
def BakedProcedure.summary (p : BakedProcedure) : ProcedureSummary :=
  ⟨p.procedureId, p.name, p.signature, p.invocationsCount, p.successRate⟩

namespace SleepBaker

variable {baker : SleepBaker} {env : BakerEnv}

/-- The procedure of a group, from the signature and the counts alone. -/
def summaryOf (baker : SleepBaker) (env : BakerEnv) (minFreq : ℤ) (x : String × ℕ × ℕ) :
    Option ProcedureSummary :=
  if baker.Qualifies env minFreq x.2.1 x.2.2 then
    some ⟨env.procId x.1, "SOP: " ++ String.ofList (BakerEnv.replaceArrows x.1.toList), x.1, x.2.1,
      env.ratio x.2.2 (max 1 x.2.1)⟩
  else none

lemma summary_of_bakeGroup {minFreq : ℤ} {e : String × SopGroup} {o : Option BakedProcedure}
    (h : baker.bakeGroup env minFreq e = .ok o) :
    o.map BakedProcedure.summary = baker.summaryOf env minFreq (BakerEnv.shape e) := by
  unfold bakeGroup at h
  split_ifs at h with hq
  · have hqualifies : baker.Qualifies env minFreq (BakerEnv.shape e).2.1 (BakerEnv.shape e).2.2 := hq
    rw [summaryOf, if_pos hqualifies]
    unfold BakerEnv.uniqueContexts at h
    split_ifs at h with hhash
    · rw [← Except.ok.inj h]
      rfl
    · exact absurd h (by simp [Except.map])
  · have hfails : ¬ baker.Qualifies env minFreq (BakerEnv.shape e).2.1 (BakerEnv.shape e).2.2 := hq
    rw [summaryOf, if_neg hfails, ← Except.ok.inj h]
    rfl

/-- A round succeeds for a group with the same counts and the same contexts in another order. -/
lemma exists_bakeGroup {minFreq : ℤ} {e e' : String × SopGroup} {o : Option BakedProcedure}
    (hshape : BakerEnv.shape e' = BakerEnv.shape e) (hctx : e'.2.contexts.Perm e.2.contexts)
    (h : baker.bakeGroup env minFreq e = .ok o) :
    ∃ o', baker.bakeGroup env minFreq e' = .ok o' := by
  obtain ⟨-, hcounts⟩ := Prod.mk.inj hshape
  obtain ⟨hcount, hsucc⟩ := Prod.mk.inj hcounts
  unfold bakeGroup at h ⊢
  rw [hcount, hsucc]
  split_ifs at h ⊢ with hq
  · unfold BakerEnv.uniqueContexts at h ⊢
    rw [hctx.all_eq]
    split_ifs at h ⊢ with hhash
    · exact ⟨_, rfl⟩
    · exact absurd h (by simp [Except.map])
  · exact ⟨_, rfl⟩

lemma summaries_of_rounds {minFreq : ℤ} {l : List (String × SopGroup)}
    {r : List (Option BakedProcedure)}
    (h : l.map (baker.bakeGroup env minFreq) = r.map .ok) :
    r.reduceOption.map BakedProcedure.summary =
      (l.map BakerEnv.shape).filterMap (baker.summaryOf env minFreq) := by
  induction l generalizing r with
  | nil =>
      rw [List.map_nil] at h
      rw [List.map_eq_nil_iff.mp h.symm]
      rfl
  | cons e l ih =>
      cases r with
      | nil => exact absurd h (by simp)
      | cons o r =>
          obtain ⟨he, hl⟩ := List.cons.inj h
          rw [List.map_cons, List.filterMap_cons, ← summary_of_bakeGroup he, ← ih hl]
          cases o <;> rfl

/-- The call returns if every trajectory is read and the round of every group returns. -/
lemma konsolidacjaSesji_eq_ok_iff {ts : List RawTrajectory} {ps : List BakedProcedure} :
    baker.konsolidacjaSesji env ts = .ok ps ↔
      (∀ t ∈ ts, ∃ o, env.readTrajectory t = .ok o) ∧ ∃ r : List (Option BakedProcedure),
        (PyDict.groupBy sigOf SopGroup.add (env.runs ts)).entries.map (baker.bakeGroup env
          (baker.effectiveMinFrequency env (env.countUniqueSessions ts))) = r.map .ok ∧
        ps = r.reduceOption := by
  constructor
  · intro h
    obtain ⟨d, hd, hrest⟩ := exists_of_bind_eq_ok h
    obtain ⟨hall, rfl⟩ := BakerEnv.groupedStats_eq_ok_iff.mp hd
    cases hrounds : (PyDict.groupBy sigOf SopGroup.add (env.runs ts)).entries.mapM
        (baker.bakeGroup env
          (baker.effectiveMinFrequency env (env.countUniqueSessions ts))) with
    | error e =>
        rw [hrounds] at hrest
        exact absurd hrest (by simp [Except.map])
    | ok r =>
        rw [hrounds] at hrest
        exact ⟨hall, r, mapM_eq_ok_iff.mp hrounds, (Except.ok.inj hrest).symm⟩
  · rintro ⟨hall, r, hrounds, rfl⟩
    have hd := BakerEnv.groupedStats_eq_ok_iff.mpr
      ⟨hall, @rfl _ (PyDict.groupBy sigOf SopGroup.add (env.runs ts))⟩
    show (env.groupedStats ts).bind _ = _
    rw [hd]
    show Except.map List.reduceOption (List.mapM _ _) = _
    rw [mapM_eq_ok_iff.mpr hrounds]
    rfl

/-- The call returns for the trajectories in another order, and its procedures have the same
summaries. -/
lemma exists_konsolidacjaSesji_of_perm {ts ts' : List RawTrajectory} {ps : List BakedProcedure}
    (hperm : ts.Perm ts') (h : baker.konsolidacjaSesji env ts = .ok ps) :
    ∃ ps', baker.konsolidacjaSesji env ts' = .ok ps' ∧
      (ps.map BakedProcedure.summary).Perm (ps'.map BakedProcedure.summary) := by
  obtain ⟨hall, r, hrounds, rfl⟩ := konsolidacjaSesji_eq_ok_iff.mp h
  set minFreq := baker.effectiveMinFrequency env (env.countUniqueSessions ts) with hmin
  have hmin' : baker.effectiveMinFrequency env (env.countUniqueSessions ts') = minFreq := by
    rw [hmin, BakerEnv.countUniqueSessions_perm hperm]
  have hok : ∀ e' ∈ (PyDict.groupBy sigOf SopGroup.add (env.runs ts')).entries,
      ∃ o, baker.bakeGroup env minFreq e' = .ok o := by
    intro e' he'
    obtain ⟨e, he, hshape, hctx⟩ := BakerEnv.exists_entry_of_perm hperm.symm he'
    have hround : baker.bakeGroup env minFreq e ∈ r.map Except.ok :=
      hrounds ▸ List.mem_map_of_mem he
    obtain ⟨o, -, ho⟩ := List.mem_map.mp hround
    exact exists_bakeGroup hshape.symm hctx.symm ho.symm
  obtain ⟨r', hrounds'⟩ : (PyDict.groupBy sigOf SopGroup.add (env.runs ts')).entries.map
      (baker.bakeGroup env minFreq) ∈ Set.range (List.map Except.ok) := by
    rw [Set.range_list_map]
    intro x hx
    obtain ⟨e', he', rfl⟩ := List.mem_map.mp hx
    obtain ⟨o, ho⟩ := hok e' he'
    exact ⟨o, ho.symm⟩
  refine ⟨r'.reduceOption, konsolidacjaSesji_eq_ok_iff.mpr ⟨?_, r', ?_, rfl⟩, ?_⟩
  · exact fun t ht => hall t (hperm.mem_iff.mpr ht)
  · rw [hmin']
    exact hrounds'.symm
  · rw [summaries_of_rounds hrounds, summaries_of_rounds hrounds'.symm]
    exact (BakerEnv.shapes_perm hperm).filterMap _

/-! ## Sequences and groups -/

/-- The trajectories that have the sequence of tools are those that have its signature. -/
lemma filter_signature_eq {ts : List RawTrajectory} {seq : List String}
    (hfree : ∀ run ∈ env.runs ts, ∀ t ∈ run.tokens, ArrowFree t)
    (hseq : seq ∈ (env.runs ts).map SessionRun.tokens) :
    ((env.runs ts).filter fun run => sigOf run = toolSignature seq) =
      (env.runs ts).filter fun run => run.tokens = seq := by
  obtain ⟨run₀, hrun₀, rfl⟩ := List.mem_map.mp hseq
  refine List.filter_congr fun run hrun => ?_
  have hiff : sigOf run = toolSignature run₀.tokens ↔ run.tokens = run₀.tokens := by
    constructor
    · intro h
      exact toolSignature_inj (BakerEnv.tokens_ne_nil_of_mem hrun)
        (BakerEnv.tokens_ne_nil_of_mem hrun₀) (hfree run hrun) (hfree run₀ hrun₀) h
    · intro h
      rw [sigOf, h]
  exact decide_eq_decide.mpr hiff

lemma keys_perm_sequences {ts : List RawTrajectory}
    (hfree : ∀ run ∈ env.runs ts, ∀ t ∈ run.tokens, ArrowFree t) :
    (PyDict.groupBy sigOf SopGroup.add (env.runs ts)).keys.Perm
      (((env.runs ts).map SessionRun.tokens).dedup.map toolSignature) := by
  have hnodup : (((env.runs ts).map SessionRun.tokens).dedup.map toolSignature).Nodup := by
    refine List.Nodup.map_on ?_ (List.nodup_dedup _)
    intro seq hseq seq' hseq' h
    obtain ⟨run, hrun, rfl⟩ := List.mem_map.mp (List.mem_dedup.mp hseq)
    obtain ⟨run', hrun', rfl⟩ := List.mem_map.mp (List.mem_dedup.mp hseq')
    exact toolSignature_inj (BakerEnv.tokens_ne_nil_of_mem hrun)
      (BakerEnv.tokens_ne_nil_of_mem hrun') (hfree run hrun) (hfree run' hrun') h
  refine (List.perm_ext_iff_of_nodup (PyDict.nodupKeys _) hnodup).mpr fun sig => ?_
  refine (PyDict.mem_keys_groupBy sigOf SopGroup.add (env.runs ts) sig).trans ?_
  simp [sigOf]

/-- Sequences of tools without arrows have a group each, with a signature and an identifier of its
own, and the procedures of the groups do not depend on the order of the trajectories, their steps
and contexts apart; the sample of the steps is that of the first trajectory. -/
theorem konsolidacjaSesji_groups {ts ts' : List RawTrajectory} {ps : List BakedProcedure}
    (hperm : ts.Perm ts') (hok : baker.konsolidacjaSesji env ts = .ok ps)
    (hfree : ∀ run ∈ env.runs ts, ∀ t ∈ run.tokens, ArrowFree t)
    (hdigest : ∀ run ∈ env.runs ts, ∀ run' ∈ env.runs ts,
      env.procHash (toolSignature run.tokens) = env.procHash (toolSignature run'.tokens) →
        toolSignature run.tokens = toolSignature run'.tokens) :
    (∃ d, env.groupedStats ts = .ok d ∧
      d.keys.Perm (((env.runs ts).map SessionRun.tokens).dedup.map toolSignature) ∧
      ∀ seq ∈ (env.runs ts).map SessionRun.tokens, ∃ g, d.get? (toolSignature seq) = some g ∧
        g.Collects ((env.runs ts).filter fun run => run.tokens = seq)) ∧
      (∀ seq ∈ (env.runs ts).map SessionRun.tokens, ∀ seq' ∈ (env.runs ts).map SessionRun.tokens,
        seq ≠ seq' → toolSignature seq ≠ toolSignature seq' ∧
          env.procId (toolSignature seq) ≠ env.procId (toolSignature seq')) ∧
      ∃ ps', baker.konsolidacjaSesji env ts' = .ok ps' ∧
        (ps.map BakedProcedure.summary).Perm (ps'.map BakedProcedure.summary) := by
  obtain ⟨hall, -⟩ := konsolidacjaSesji_eq_ok_iff.mp hok
  refine ⟨⟨_, BakerEnv.groupedStats_eq_ok_iff.mpr ⟨hall, rfl⟩, keys_perm_sequences hfree, ?_⟩, ?_,
    exists_konsolidacjaSesji_of_perm hperm hok⟩
  · intro seq hseq
    obtain ⟨run, hrun, hseqOf⟩ := List.mem_map.mp hseq
    obtain ⟨g, hg, hcol⟩ := BakerEnv.exists_group_of_signature
      ⟨run, hrun, congrArg toolSignature hseqOf⟩
    rw [filter_signature_eq hfree hseq] at hcol
    exact ⟨g, hg, hcol⟩
  · intro seq hseq seq' hseq' hne
    obtain ⟨run, hrun, rfl⟩ := List.mem_map.mp hseq
    obtain ⟨run', hrun', rfl⟩ := List.mem_map.mp hseq'
    have hsig : toolSignature run.tokens ≠ toolSignature run'.tokens := fun h =>
      hne (toolSignature_inj (BakerEnv.tokens_ne_nil_of_mem hrun)
        (BakerEnv.tokens_ne_nil_of_mem hrun') (hfree run hrun) (hfree run' hrun') h)
    refine ⟨hsig, fun h => hsig (hdigest run hrun run' hrun' ?_)⟩
    have hlist := congrArg String.toList h
    rw [BakerEnv.procId, BakerEnv.procId, String.toList_append, String.toList_append] at hlist
    exact String.toList_inj.mp (List.append_cancel_left hlist)

end SleepBaker

/-! ## Trajectories of one tool -/

/-- An environment for evaluating the model: a digest of the last characters, and exact ratios. -/
def bakerSample : BakerEnv where
  rt := Runtime.sample
  lower s := s
  setOrder contexts := contexts
  gaussian _ := .null
  ratio a b := a / b
  ratio_nonneg a b := div_nonneg (Nat.cast_nonneg a) (Nat.cast_nonneg b)
  ratio_le_one a b h := div_le_one_of_le₀ (by exact_mod_cast h) (Nat.cast_nonneg b)
  ceilLog _ _ := 2

/-- A trajectory with one step: a tool and the name of its only parameter. -/
def oneStep (tool param : String) : RawTrajectory where
  steps := some (.value (.arr [.obj [("tool_name", .str tool),
    ("params", .obj [(param, .str "x")])]]))
  actions := none
  success := none
  context := none
  sessionId := none
  session := none

def eagerBaker : SleepBaker := ⟨some 1, 0, 1⟩

/-- The names of the parameters in the steps of a procedure. -/
def parameterNames (p : BakedProcedure) : List (List String) :=
  p.steps.map fun s => s.paramsPattern.map Prod.fst

lemma exists_ok_of_map {ε α β : Type} {x : Except ε α} {f : α → β} {b : β}
    (h : x.toOption.map f = some b) : ∃ a, x = .ok a ∧ f a = b := by
  cases x with
  | error e => exact absurd h (by simp [Except.toOption])
  | ok a => exact ⟨a, rfl, Option.some.inj h⟩

/-- Two trajectories of two tools are two groups. -/
theorem konsolidacjaSesji_groups_two :
    (∃ d, bakerSample.groupedStats [oneStep "read" "path", oneStep "write" "path"] = .ok d ∧
      d.keys.Perm ["read", "write"]) ∧
      bakerSample.procId "read" ≠ bakerSample.procId "write" := by
  have hnames : (eagerBaker.konsolidacjaSesji bakerSample
      [oneStep "read" "path", oneStep "write" "path"]).toOption.map (List.map parameterNames) =
        some [[["path"]], [["path"]]] := by decide +kernel
  have hruns : (bakerSample.runs [oneStep "read" "path", oneStep "write" "path"]).map
      SessionRun.tokens = [["read"], ["write"]] := by decide
  obtain ⟨ps, hok, -⟩ := exists_ok_of_map hnames
  obtain ⟨⟨d, hd, hkeys, -⟩, hids, -⟩ := SleepBaker.konsolidacjaSesji_groups
    (List.Perm.refl _) hok (by decide) (by decide)
  rw [hruns] at hkeys hids
  refine ⟨⟨d, hd, hkeys.trans (by decide)⟩, ?_⟩
  exact (hids ["read"] (by decide) ["write"] (by decide) (by decide)).2

/-- The steps of a procedure are those of the first trajectory, so that the order matters. -/
theorem first_trajectory_is_sample : ∃ ps ps',
    eagerBaker.konsolidacjaSesji bakerSample [oneStep "read" "path", oneStep "read" "file"] =
      .ok ps ∧
    eagerBaker.konsolidacjaSesji bakerSample [oneStep "read" "file", oneStep "read" "path"] =
      .ok ps' ∧ ∃ p ∈ ps, p ∉ ps' := by
  have hpath : (eagerBaker.konsolidacjaSesji bakerSample
      [oneStep "read" "path", oneStep "read" "file"]).toOption.map (List.map parameterNames) =
        some [[["path"]]] := by decide +kernel
  have hfile : (eagerBaker.konsolidacjaSesji bakerSample
      [oneStep "read" "file", oneStep "read" "path"]).toOption.map (List.map parameterNames) =
        some [[["file"]]] := by decide +kernel
  obtain ⟨ps, hps, hnames⟩ := exists_ok_of_map hpath
  obtain ⟨ps', hps', hnames'⟩ := exists_ok_of_map hfile
  have hmem : [["path"]] ∈ ps.map parameterNames := by rw [hnames]; simp
  obtain ⟨p, hp, hpnames⟩ := List.mem_map.mp hmem
  refine ⟨ps, ps', hps, hps', p, hp, fun hp' => ?_⟩
  have hother : [["path"]] ∈ ps'.map parameterNames := List.mem_map.mpr ⟨p, hp', hpnames⟩
  rw [hnames'] at hother
  exact absurd hother (by decide)

end AtlasMemory
