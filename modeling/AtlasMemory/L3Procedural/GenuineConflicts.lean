import AtlasMemory.Cognitive.Candidates
import AtlasMemory.L3Procedural.DeclarativeCascade

/-!
# What the cascade retires

A cluster is a clique, so every record that is marked has a pair of its own with the record that
supersedes it.  A pair of the similarity is checked for its entity and its slots, but not for its
environments; a pair of the arbiter is checked for everything, unless the first key has the marker
word, which the arbiter answers with a candidate that is not the pair at all.
-/

namespace AtlasMemory

namespace DeclarativeConsolidator

variable (env : CascadeEnv)

/-! ## The property and the condition -/

/-- The two records in the order in which the arbiter is asked. -/
def pairOf (m c : CandidateFact) : CandidateFact × CandidateFact :=
  if m.key ≤ c.key then (m, c) else (c, m)

/-- The value of an existing record as the arbiter reads it. -/
def existingText (b : CandidateFact) : String :=
  (((existingOf env b).parse env.rt).map ParsedItem.value).getD ""

/-- `_orthogonal_envs` of a pair. -/
def orthogonalEnvironments (a b : CandidateFact) : Bool :=
  ConflictArbiter.orthogonal
    (LexicalProfile.of env.lex a.key ((incomingOf env a).valStr env.rt env.lex)).env
    (LexicalProfile.of env.lex b.key (env.lex.lower (existingText env b))).env

/-- The comparison of the two records finds a conflict. -/
def semanticConflict (a b : CandidateFact) : Bool :=
  ((existingOf env b).parse env.rt).any fun p =>
    (ConflictArbiter.scanCrossKey env.rt env.lex {} b.key p (incomingOf env a)).any fun found =>
      isPaired (ConflictArbiter.decideBest env.rt env.lex {} (incomingOf env a) [found])

/-- One of the keys has a multi-valued slot. -/
def multiValued (a b : CandidateFact) : Bool :=
  EpistemicDecisionKernel.multiValued env.lex a.key b.key

/-- A pair that may be merged. -/
structure GenuineConflict (p : CandidateFact × CandidateFact) : Prop where
  root : entityRoot env.lex p.1.key = entityRoot env.lex p.2.key
  environments : orthogonalEnvironments env p.1 p.2 = false
  single : multiValued env p.1 p.2 = false
  cause : semanticConflict env p.1 p.2 = true ∨ (similarity env p.1 p.2).isSome = true

/-- The condition on a pair: if it is similar, its environments are not orthogonal, and if the first
key has the marker word, the two are in conflict or they are similar with single-valued slots. -/
def Supported (p : CandidateFact × CandidateFact) : Prop :=
  ((similarity env p.1 p.2).isSome = true → orthogonalEnvironments env p.1 p.2 = false) ∧
    ((incomingOf env p.1).markedConflict env.rt env.lex = true →
      semanticConflict env p.1 p.2 = true ∨
        (multiValued env p.1 p.2 = false ∧ (similarity env p.1 p.2).isSome = true))

variable {env}

/-! ## The arbiter on two records -/

/-- A candidate of the comparison has passed the guards. -/
lemma guards_of_scanCrossKey {exK : String} {p : ParsedItem} {w : ConflictArbiter.Incoming}
    {c : ArbitrationCandidate} (hne : exK ≠ w.key)
    (h : ConflictArbiter.scanCrossKey env.rt env.lex {} exK p w = some c) :
    EpistemicDecisionKernel.multiValued env.lex w.key exK = false ∧
      ConflictArbiter.orthogonal
        (LexicalProfile.of env.lex w.key (w.valStr env.rt env.lex)).env
        (LexicalProfile.of env.lex exK (env.lex.lower p.value)).env = false := by
  unfold ConflictArbiter.scanCrossKey at h
  dsimp only at h
  split_ifs at h with h₁ h₂ h₃
  all_goals
    rw [not_and, Bool.not_eq_true] at h₃
    exact ⟨h₃ hne, Bool.eq_false_of_not_eq_true h₂⟩

lemma guards_of_semanticConflict {a b : CandidateFact} (hne : a.key ≠ b.key)
    (h : semanticConflict env a b = true) :
    multiValued env a b = false ∧ orthogonalEnvironments env a b = false := by
  unfold semanticConflict at h
  unfold orthogonalEnvironments existingText
  cases hparse : (existingOf env b).parse env.rt with
  | none =>
      rw [hparse] at h
      cases h
  | some p =>
      rw [hparse, Option.any_some] at h
      cases hscan : ConflictArbiter.scanCrossKey env.rt env.lex {} b.key p (incomingOf env a) with
      | none =>
          rw [hscan] at h
          cases h
      | some c =>
          rw [Option.map_some, Option.getD_some]
          have hkey : b.key ≠ (incomingOf env a).key := hne.symm
          obtain ⟨hsingle, henvs⟩ := guards_of_scanCrossKey hkey hscan
          exact ⟨hsingle, henvs⟩

/-- The candidate of a record of another key is that of the comparison: no write of the cascade
names what it revises. -/
lemma scanExistingItem_of_ne {a b : CandidateFact} (hne : a.key ≠ b.key) :
    ConflictArbiter.scanExistingItem env.rt env.lex {} b.key (existingOf env b) (incomingOf env a) =
      ((existingOf env b).parse env.rt).bind fun p =>
        ConflictArbiter.scanCrossKey env.rt env.lex {} b.key p (incomingOf env a) := by
  have hsup : (incomingOf env a).supersedes b.key = false := by
    unfold ConflictArbiter.Incoming.supersedes incomingOf
    rw [PyDict.get?_empty]
  have hkey : b.key ≠ (incomingOf env a).key := hne.symm
  unfold ConflictArbiter.scanExistingItem
  congr 1
  funext p
  unfold ConflictArbiter.candidateOf
  rw [hsup, if_neg Bool.false_ne_true, if_neg hkey]

lemma entries_singleton (k : String) (v : ExistingItem) :
    (PyDict.ofEntries [(k, v)]).entries = [(k, v)] := rfl

/-- Without the marker word the only candidate is that of the comparison. -/
lemma foundCandidates_of_not_marked {a b : CandidateFact} (hne : a.key ≠ b.key)
    (hmarked : ¬ (incomingOf env a).markedConflict env.rt env.lex = true) :
    ConflictArbiter.foundCandidates env.rt env.lex {} (incomingOf env a)
        (PyDict.ofEntries [(b.key, existingOf env b)]) =
      (((existingOf env b).parse env.rt).bind fun p =>
        ConflictArbiter.scanCrossKey env.rt env.lex {} b.key p (incomingOf env a)).toList := by
  have hscan := @scanExistingItem_of_ne env _ _ hne
  unfold ConflictArbiter.foundCandidates
  rw [if_neg hmarked, List.nil_append, entries_singleton, List.filterMap_cons, hscan]
  generalize ((existingOf env b).parse env.rt).bind _ = found
  cases found with
  | none => rfl
  | some c => rfl

/-- The arbiter pairs two records of different keys when the first key has the marker word, or
when their comparison finds a conflict. -/
lemma cause_of_arbiterScore {a b : CandidateFact} {s : ℚ} (hne : a.key ≠ b.key)
    (h : arbiterScore env a b = some s) :
    (incomingOf env a).markedConflict env.rt env.lex = true ∨ semanticConflict env a b = true := by
  by_cases hmarked : (incomingOf env a).markedConflict env.rt env.lex = true
  · exact Or.inl hmarked
  · right
    unfold arbiterScore at h
    split at h
    · cases h
    · rename_i r hr
      have hfound := foundCandidates_of_not_marked hne hmarked
      obtain ⟨cs, hcs, hdecide⟩ : ∃ cs, ConflictArbiter.generateCandidates env.rt env.lex {}
          (incomingOf env a) (PyDict.ofEntries [(b.key, existingOf env b)]) = .ok cs ∧
          ConflictArbiter.decideBest env.rt env.lex {} (incomingOf env a) cs = r := by
        unfold ConflictArbiter.arbitrate at hr
        generalize ConflictArbiter.generateCandidates _ _ _ _ _ = found at hr ⊢
        cases found with
        | error e => cases hr
        | ok cs => exact ⟨cs, rfl, Except.ok.inj hr⟩
      have hsorted := ConflictArbiter.sorted_of_generateCandidates hcs
      rw [hfound] at hsorted
      have hpaired : isPaired r = true := by
        by_contra hnot
        rw [if_neg hnot] at h
        cases h
      unfold semanticConflict
      cases hparse : (existingOf env b).parse env.rt with
      | none =>
          rw [hparse] at hsorted
          subst hsorted
          rw [← hdecide] at hpaired
          cases hpaired
      | some p =>
          rw [hparse, Option.bind_some] at hsorted
          rw [Option.any_some]
          cases hscan : ConflictArbiter.scanCrossKey env.rt env.lex {} b.key p
              (incomingOf env a) with
          | none =>
              rw [hscan] at hsorted
              subst hsorted
              rw [← hdecide] at hpaired
              cases hpaired
          | some c =>
              rw [hscan] at hsorted
              subst hsorted
              rw [Option.any_some]
              rw [← hdecide] at hpaired
              exact hpaired

/-! ## Candidates and pairs -/

lemma key_of_toCandidate {e : String × StateRow} {c : CandidateFact}
    (h : toCandidate env e = some c) : c.key = e.1 := by
  unfold toCandidate at h
  dsimp only at h
  split_ifs at h
  obtain ⟨text, -, hc⟩ := Option.bind_eq_some_iff.mp h
  split_ifs at hc
  rw [← Option.some.inj hc]

/-- The candidates come in the strict order of their keys. -/
lemma pairwise_collectCandidates (states : StateTable) :
    (collectCandidates env states).Pairwise fun a b => a.key < b.key := by
  let r : CandidateFact → CandidateFact → Prop := fun a b => a.key ≤ b.key
  have : Std.Total r := ⟨fun a b => le_total a.key b.key⟩
  have : IsTrans CandidateFact r := ⟨fun _ _ _ => le_trans⟩
  unfold collectCandidates
  dsimp only
  generalize hfound : ((states.entries.filter fun e =>
    !isGcEligible env.rt env.gcConfFloor e && !isTombstoned env e).filterMap
      (toCandidate env)) = found
  have hdistinct : found.Pairwise fun a b => a.key ≠ b.key := by
    rw [← hfound]
    have hkeys : states.entries.Pairwise fun a b => a.1 ≠ b.1 :=
      List.pairwise_map.mp states.nodupKeys
    refine (hkeys.sublist List.filter_sublist).filterMap _ ?_
    intro e e' hne c hc c' hc'
    rw [key_of_toCandidate hc, key_of_toCandidate hc']
    exact hne
  have hsorted := List.pairwise_insertionSort r found
  have hne : (found.insertionSort r).Pairwise fun a b => a.key ≠ b.key :=
    hdistinct.perm (List.perm_insertionSort r found).symm Ne.symm
  exact (hsorted.and hne).imp fun h => lt_of_le_of_ne h.1 h.2

lemma mem_pairsOf {α : Type} {l : List α} {r : α → α → Prop} (hl : l.Pairwise r) {p : α × α}
    (hp : p ∈ pairsOf l) : p.1 ∈ l ∧ p.2 ∈ l ∧ r p.1 p.2 := by
  induction l with
  | nil => exact absurd hp List.not_mem_nil
  | cons a as ih =>
      obtain ⟨ha, has⟩ := List.pairwise_cons.mp hl
      rcases List.mem_append.mp hp with hp | hp
      · obtain ⟨b, hb, rfl⟩ := List.mem_map.mp hp
        exact ⟨List.mem_cons_self, List.mem_cons_of_mem a hb, ha b hb⟩
      · obtain ⟨h₁, h₂, hr⟩ := ih has hp
        exact ⟨List.mem_cons_of_mem a h₁, List.mem_cons_of_mem a h₂, hr⟩

/-- Two candidates are paired, in the order of their keys, by their similarity or by the arbiter. -/
structure Paired (env : CascadeEnv) (a b : CandidateFact) : Prop where
  order : a.key < b.key
  root : entityRoot env.lex a.key = entityRoot env.lex b.key
  cause : (multiValued env a b = false ∧ (similarity env a b).isSome = true) ∨
    ∃ s, arbiterScore env a b = some s

variable {candidates : List CandidateFact}

lemma paired_of_findPairs (hcs : candidates.Pairwise fun a b => a.key < b.key)
    {p : CandidateFact × CandidateFact × ℚ} (hp : p ∈ findPairs env candidates) :
    p.1 ∈ candidates ∧ p.2.1 ∈ candidates ∧ Paired env p.1 p.2.1 := by
  obtain ⟨q, hq, hfound⟩ := List.mem_filterMap.mp hp
  obtain ⟨h₁, h₂, horder⟩ := mem_pairsOf hcs hq
  obtain ⟨sim, hsim, hcheck⟩ := Option.bind_eq_some_iff.mp hfound
  split_ifs at hcheck with hcan hslots
  rw [← Option.some.inj hcheck]
  rw [Bool.not_eq_true', Bool.not_eq_false] at hcan
  have hsame := EpistemicDecisionKernel.sameEntity_of_canSupersede horder.ne hcan
  refine ⟨h₁, h₂, horder, hsame.1, Or.inl ⟨hsame.2, ?_⟩⟩
  show (similarity env q.1 q.2).isSome = true
  rw [hsim]
  rfl

lemma paired_of_arbiterPairs (hcs : candidates.Pairwise fun a b => a.key < b.key)
    {p : CandidateFact × CandidateFact × ℚ} (hp : p ∈ arbiterPairs env candidates) :
    p.1 ∈ candidates ∧ p.2.1 ∈ candidates ∧ Paired env p.1 p.2.1 := by
  obtain ⟨r, -, hpr⟩ := List.mem_flatMap.mp hp
  obtain ⟨q, hq, hfound⟩ := List.mem_filterMap.mp hpr
  obtain ⟨h₁, h₂, horder⟩ := mem_pairsOf (hcs.sublist List.filter_sublist) hq
  obtain ⟨hmem₁, hroot₁⟩ := List.mem_filter.mp h₁
  obtain ⟨hmem₂, hroot₂⟩ := List.mem_filter.mp h₂
  split_ifs at hfound
  obtain ⟨s, hs, rfl⟩ := Option.map_eq_some_iff.mp hfound
  have hroot : root env q.1 = root env q.2 :=
    (of_decide_eq_true hroot₁).trans (of_decide_eq_true hroot₂).symm
  exact ⟨hmem₁, hmem₂, horder, hroot, Or.inr ⟨s, hs⟩⟩

lemma paired_of_allPairs (hcs : candidates.Pairwise fun a b => a.key < b.key)
    {p : CandidateFact × CandidateFact × ℚ} (hp : p ∈ allPairs env candidates) :
    p.1 ∈ candidates ∧ p.2.1 ∈ candidates ∧ Paired env p.1 p.2.1 := by
  rcases List.mem_append.mp hp with hp | hp
  · exact paired_of_findPairs hcs hp
  · exact paired_of_arbiterPairs hcs (List.mem_filter.mp hp).1

/-! ## Clusters -/

lemma ends_comm (a b : String) : ends a b = ends b a := by
  unfold ends
  rcases lt_trichotomy a b with h | rfl | h
  · rw [if_pos h.le, if_neg (not_le.mpr h)]
  · rfl
  · rw [if_neg (not_le.mpr h), if_pos h.le]

lemma pair_of_edgeSim {pairs : List (CandidateFact × CandidateFact × ℚ)} {e : String × String}
    (h : (edgeSim pairs).contains e = true) :
    ∃ p ∈ pairs, ends p.1.key p.2.1.key = e := by
  have hfold : ∀ (ps : List (CandidateFact × CandidateFact × ℚ)) (d : PyDict (String × String) ℚ),
      (ps.foldl (fun d p => d.set (ends p.1.key p.2.1.key) p.2.2) d).contains e = true →
        d.contains e = true ∨ ∃ p ∈ ps, ends p.1.key p.2.1.key = e := by
    intro ps
    induction ps with
    | nil =>
        intro d hd
        exact Or.inl hd
    | cons p ps ih =>
        intro d hd
        rcases ih _ hd with hset | ⟨q, hq, he⟩
        · by_cases hp : ends p.1.key p.2.1.key = e
          · exact Or.inr ⟨p, List.mem_cons_self, hp⟩
          · unfold PyDict.contains at hset
            rw [PyDict.get?_set_of_ne _ _ hp] at hset
            exact Or.inl hset
        · exact Or.inr ⟨q, List.mem_cons_of_mem p hq, he⟩
  rcases hfold pairs ∅ h with hempty | hpair
  · cases hempty
  · exact hpair

/-- Every two members of the cluster have an edge. -/
def Clique (sims : PyDict (String × String) ℚ) (cluster : List String) : Prop :=
  ∀ x ∈ cluster, ∀ y ∈ cluster, x ≠ y → sims.contains (ends x y) = true

variable {sims : PyDict (String × String) ℚ} {cluster : List String}

lemma clique_singleton (seed : String) : Clique sims [seed] := by
  intro x hx y hy hne
  rw [List.mem_singleton] at hx hy
  exact absurd (hx.trans hy.symm) hne

lemma clique_join (h : Clique sims cluster) (cand : String) :
    Clique sims (join sims cluster cand) := by
  unfold join
  split_ifs with hall
  · rw [List.all_eq_true] at hall
    intro x hx y hy hne
    rcases List.mem_append.mp hx with hx | hx <;> rcases List.mem_append.mp hy with hy | hy
    · exact h x hx y hy hne
    · rw [List.mem_singleton.mp hy]
      exact hall x hx
    · rw [List.mem_singleton.mp hx, ends_comm]
      exact hall y hy
    · exact absurd ((List.mem_singleton.mp hx).trans (List.mem_singleton.mp hy).symm) hne
  · exact h

lemma clique_growCluster (seed : String) (cands : List String) :
    Clique sims (growCluster sims seed cands) := by
  unfold growCluster
  generalize sortDescending _ cands = sorted
  have hfold : ∀ (cs cluster : List String), Clique sims cluster →
      Clique sims (cs.foldl (join sims) cluster) := by
    intro cs
    induction cs with
    | nil =>
        intro cluster h
        exact h
    | cons c cs ih =>
        intro cluster h
        exact ih _ (clique_join h c)
  exact hfold sorted [seed] (clique_singleton seed)

lemma clique_sortKeys (h : Clique sims cluster) : Clique sims (sortKeys cluster) := by
  have hperm := List.perm_insertionSort (· ≤ ·) cluster
  intro x hx y hy hne
  exact h x (hperm.mem_iff.mp hx) y (hperm.mem_iff.mp hy) hne

lemma clique_of_seedClusters {neighbours : String → List String} {comp seeds : List String} :
    ∀ {assigned : List String}, cluster ∈ seedClusters sims neighbours comp seeds assigned →
      Clique sims cluster := by
  induction seeds with
  | nil =>
      intro assigned h
      exact absurd h List.not_mem_nil
  | cons seed seeds ih =>
      intro assigned h
      unfold seedClusters at h
      dsimp only at h
      split_ifs at h
      · exact ih h
      · rcases List.mem_cons.mp h with rfl | h
        · exact clique_sortKeys (clique_growCluster _ _)
        · exact ih h
      · exact ih h

lemma clique_of_componentClusters {neighbours : String → List String} {comp : List String}
    (h : cluster ∈ componentClusters sims neighbours comp) : Clique sims cluster := by
  unfold componentClusters at h
  split at h
  · exact absurd h List.not_mem_nil
  · exact absurd h List.not_mem_nil
  · rename_i x y
    split_ifs at h with hedge
    · rw [List.mem_singleton.mp h]
      have hjoin : join sims [x] y = [x, y] := by
        unfold join
        rw [List.all_cons, List.all_nil, Bool.and_true, if_pos hedge]
        rfl
      have hsingle : Clique sims [x] := clique_singleton x
      have hclique := clique_join hsingle y
      rw [hjoin] at hclique
      exact clique_sortKeys hclique
    · exact absurd h List.not_mem_nil
  · exact clique_of_seedClusters h

lemma clique_of_connectedComponents {nodes : List String}
    {pairs : List (CandidateFact × CandidateFact × ℚ)}
    (h : cluster ∈ connectedComponents env nodes pairs) : Clique (edgeSim pairs) cluster := by
  obtain ⟨fiber, -, hfiber⟩ := List.mem_flatMap.mp h
  obtain ⟨comp, -, hcomp⟩ := List.mem_flatMap.mp hfiber
  exact clique_of_componentClusters hcomp

/-! ## Markings -/

lemma pickCanonical_mem (first : CandidateFact) (rest : List CandidateFact) :
    pickCanonical first rest ∈ first :: rest := by
  unfold pickCanonical
  induction rest generalizing first with
  | nil => exact List.mem_singleton_self first
  | cons c rest ih =>
      rw [List.foldl_cons]
      rcases List.mem_cons.mp (ih (if ranksBelow first c then c else first)) with h | h
      · rw [h]
        split_ifs
        · exact List.mem_cons_of_mem _ List.mem_cons_self
        · exact List.mem_cons_self
      · exact List.mem_cons_of_mem _ (List.mem_cons_of_mem _ h)

/-- A marking is of two candidates with different keys of the cluster. -/
lemma mem_markings {q : CandidateFact × CandidateFact} (h : q ∈ markings candidates cluster) :
    q.1 ∈ candidates ∧ q.2 ∈ candidates ∧ q.1.key ∈ cluster ∧ q.2.key ∈ cluster ∧
      q.1.key ≠ q.2.key := by
  unfold markings at h
  split at h
  · rename_i first second rest hmembers
    have hmem : ∀ c ∈ first :: second :: rest, c ∈ candidates ∧ c.key ∈ cluster := by
      intro c hc
      rw [← hmembers] at hc
      obtain ⟨k, hk, hfind⟩ := List.mem_filterMap.mp hc
      have hkey : c.key = k := by
        have hdec := List.find?_some hfind
        exact of_decide_eq_true hdec
      exact ⟨List.mem_of_find?_eq_some hfind, hkey ▸ hk⟩
    obtain ⟨m, hm, rfl⟩ := List.mem_map.mp h
    obtain ⟨hm, hne⟩ := List.mem_filter.mp hm
    obtain ⟨hm₁, hm₂⟩ := hmem m hm
    obtain ⟨hc₁, hc₂⟩ := hmem _ (pickCanonical_mem first (second :: rest))
    exact ⟨hm₁, hc₁, hm₂, hc₂, of_decide_eq_true hne⟩
  · exact absurd h List.not_mem_nil

lemma eq_of_key {a b : CandidateFact} (hcs : candidates.Pairwise fun a b => a.key < b.key)
    (ha : a ∈ candidates) (hb : b ∈ candidates) (hkey : a.key = b.key) : a = b := by
  have hdistinct : (candidates.map CandidateFact.key).Nodup :=
    List.pairwise_map.mpr (hcs.imp fun h => h.ne)
  exact List.inj_on_of_nodup_map hdistinct ha hb hkey

/-- A record is marked with one that it is paired with. -/
lemma paired_of_consolidate {states : StateTable} {q : CandidateFact × CandidateFact}
    (h : q ∈ consolidate env states) :
    Paired env (pairOf q.1 q.2).1 (pairOf q.1 q.2).2 := by
  obtain ⟨cluster, hcluster, hq⟩ := List.mem_flatMap.mp h
  have hcs := (@pairwise_collectCandidates env states).sublist
    (List.take_sublist (max 2 env.factBatchCap) _)
  obtain ⟨hm, hc, hmkey, hckey, hne⟩ := mem_markings hq
  have hedge := clique_of_connectedComponents hcluster _ hmkey _ hckey hne
  obtain ⟨p, hp, hends⟩ := pair_of_edgeSim hedge
  obtain ⟨h₁, h₂, hpaired⟩ := paired_of_allPairs hcs hp
  rw [show ends p.1.key p.2.1.key = (p.1.key, p.2.1.key) from if_pos hpaired.order.le] at hends
  unfold ends at hends
  unfold pairOf
  split_ifs at hends ⊢ with hle
  · obtain ⟨hk₁, hk₂⟩ := Prod.mk.inj hends
    rw [← eq_of_key hcs h₁ hm hk₁, ← eq_of_key hcs h₂ hc hk₂]
    exact hpaired
  · obtain ⟨hk₁, hk₂⟩ := Prod.mk.inj hends
    rw [← eq_of_key hcs h₁ hc hk₁, ← eq_of_key hcs h₂ hm hk₂]
    exact hpaired

/-! ## What is retired -/

/-- The cascade retires a genuine conflict exactly when the pair is a supported one. -/
theorem genuineConflict_iff_supported {states : StateTable} {m c : CandidateFact}
    (h : (m, c) ∈ consolidate env states) :
    GenuineConflict env (pairOf m c) ↔ Supported env (pairOf m c) := by
  obtain ⟨horder, hroot, hcause⟩ := paired_of_consolidate h
  constructor
  · intro hgenuine
    refine ⟨fun _ => hgenuine.environments, fun _ => ?_⟩
    rcases hgenuine.cause with hconflict | hsimilar
    · exact Or.inl hconflict
    · exact Or.inr ⟨hgenuine.single, hsimilar⟩
  · rintro ⟨henvs, hmarked⟩
    have of_similar (hsingle : multiValued env (pairOf m c).1 (pairOf m c).2 = false)
        (hsimilar : (similarity env (pairOf m c).1 (pairOf m c).2).isSome = true) :
        GenuineConflict env (pairOf m c) :=
      ⟨hroot, henvs hsimilar, hsingle, Or.inr hsimilar⟩
    have of_conflict (hconflict : semanticConflict env (pairOf m c).1 (pairOf m c).2 = true) :
        GenuineConflict env (pairOf m c) := by
      obtain ⟨hsingle, hnot⟩ := guards_of_semanticConflict horder.ne hconflict
      exact ⟨hroot, hnot, hsingle, Or.inl hconflict⟩
    rcases hcause with ⟨hsingle, hsimilar⟩ | ⟨s, hs⟩
    · exact of_similar hsingle hsimilar
    · rcases cause_of_arbiterScore horder.ne hs with hmark | hconflict
      · rcases hmarked hmark with hconflict | ⟨hsingle, hsimilar⟩
        · exact of_conflict hconflict
        · exact of_similar hsingle hsimilar
      · exact of_conflict hconflict

def sampleCascade : CascadeEnv where
  rt := .sample
  lex := sampleLexicon
  rawText v := v.dumps
  isGarbageSubject _ := false
  cosine := none
  setOrder keys := keys

/-- Two records of one service that have nothing to do with each other. -/
def sampleSiblings : StateTable :=
  PyDict.ofEntries [("svc:db:conflict_policy", ⟨"\"retry twice\"", 1, .finite 1, none, none⟩),
    ("svc:db:owner", ⟨"\"team blue\"", 1, .finite 2, none, none⟩)]

theorem genuineConflict_iff_supported_siblings :
    ∃ m c, (m, c) ∈ consolidate sampleCascade sampleSiblings ∧
      (GenuineConflict sampleCascade (pairOf m c) ↔ Supported sampleCascade (pairOf m c)) := by
  have hmarked : (consolidate sampleCascade sampleSiblings).isEmpty = false := by decide +kernel
  obtain ⟨⟨m, c⟩, hq⟩ := List.exists_mem_of_ne_nil _ (List.isEmpty_eq_false_iff.mp hmarked)
  exact ⟨m, c, hq, genuineConflict_iff_supported hq⟩

/-- The marker word in the key of a policy retires it in favour of the owner. -/
theorem siblings_not_genuineConflict :
    ∃ m c, (m, c) ∈ consolidate sampleCascade sampleSiblings ∧
      m.key = "svc:db:conflict_policy" ∧ c.key = "svc:db:owner" ∧
      ¬ GenuineConflict sampleCascade (pairOf m c) := by
  have hmarked : (consolidate sampleCascade sampleSiblings).any (fun q =>
      decide (q.1.key = "svc:db:conflict_policy") && decide (q.2.key = "svc:db:owner") &&
        !semanticConflict sampleCascade (pairOf q.1 q.2).1 (pairOf q.1 q.2).2) = true := by
    decide +kernel
  obtain ⟨⟨m, c⟩, hq, hkeys⟩ := List.any_eq_true.mp hmarked
  rw [Bool.and_eq_true, Bool.and_eq_true, Bool.not_eq_true'] at hkeys
  obtain ⟨⟨hm, hc⟩, hno⟩ := hkeys
  refine ⟨m, c, hq, of_decide_eq_true hm, of_decide_eq_true hc, fun hgenuine => ?_⟩
  rcases hgenuine.cause with hconflict | hsimilar
  · rw [hno] at hconflict
    cases hconflict
  · cases hsimilar

end DeclarativeConsolidator

end AtlasMemory
