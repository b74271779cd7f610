import AtlasMemory.Causal.WhatIf
import AtlasMemory.Foundations.WaveFronts

/-!
# Causal diffusion

The model of `causal_diffusion_analysis`: a wave of effects passes from a node along the relations,
layer by layer.  It does not return to the start and does not pass a loop at a node.  What arrives
at a node in one layer adds up, to one at most, and is passed on in the next layer; the confidence
that is reported is the largest that arrived along a single relation.

So the nodes and their distances are those of the paths, `causalDiffusionAnalysis_reports`, but what
arrives along a relation can be more than any path has: at a node where two branches join, the sum
of both is passed on.  The confidence is at least that of every path, and is that of a path where
the walks of one length do not join.  Rounding is left out.
-/

namespace AtlasMemory

open Walks WaveFronts

/-- What is kept of a node. -/
structure NodeStats where
  impactScore : ℚ
  pathLength : ℕ
  cumulativeConfidence : ℚ

/-- `DiffusionNode`. -/
structure DiffusionNode where
  nodeId : String
  impactScore : ℚ
  pathLength : ℕ
  cumulativeConfidence : ℚ

/-- `DiffusionResult`. -/
structure DiffusionResult where
  nodes : List DiffusionNode
  edges : List CausalEdge
  totalImpact : ℚ
  maxDepthReached : ℕ

namespace RetroCausalEngine

variable {ρ : Type} (engine : RetroCausalEngine ρ)

/-! ## The analysis -/

/-- The variables of the loops. -/
structure DiffusionState where
  stats : PyDict String NodeStats := ∅
  edges : List CausalEdge := []
  seen : List Edge := []
  reached : ℕ := 0
  nextLayer : PyDict String ℚ := ∅

/-- The statistics of a node after an arrival. -/
def noteArrival (decay : ℚ) (depth : ℕ) (stats : Option NodeStats) (t : ℚ) : NodeStats :=
  match stats with
  | none => ⟨t * decay ^ depth, depth, min 1 t⟩
  | some st => ⟨st.impactScore + t * decay ^ depth, min st.pathLength depth,
      min 1 (max st.cumulativeConfidence t)⟩

/-- A relation that was not passed before is collected. -/
def collectEdge (r : Edge × ℚ) (s : DiffusionState) : Option DiffusionState :=
  if r.1 ∈ s.seen then some s
  else (engine.causalStep r).map fun e => { s with edges := s.edges ++ [e], seen := r.1 :: s.seen }

/-- The inner loop for a relation that leaves a node of the layer. -/
def passEdge (start : String) (decay : ℚ) (depth : ℕ) (x : String × ℚ) (s : DiffusionState)
    (r : Edge × ℚ) : Option DiffusionState :=
  if r.1.object = start ∨ r.1.object = x.1 then some s
  else (engine.collectEdge r s).map fun s =>
    let t := x.2 * r.2
    { s with
      reached := max s.reached depth
      stats := s.stats.set r.1.object (noteArrival decay depth (s.stats.get? r.1.object) t)
      nextLayer := s.nextLayer.set r.1.object (min 1 ((s.nextLayer.get? r.1.object).getD 0 + t)) }

def passLayer (relations : List (Edge × ℚ)) (start : String) (decay : ℚ) (depth : ℕ)
    (layer : PyDict String ℚ) (s : DiffusionState) : Option DiffusionState :=
  layer.entries.foldlM (fun s x =>
    (engine.adjacency relations x.1).foldlM (engine.passEdge start decay depth x) s)
    { s with nextLayer := ∅ }

/-- The loop over the depths, of which some are left. -/
def passLayers (relations : List (Edge × ℚ)) (start : String) (decay : ℚ) :
    ℕ → ℕ → PyDict String ℚ → DiffusionState → Option DiffusionState
  | 0, _, _, s => some s
  | left + 1, depth, layer, s => do
    let s ← engine.passLayer relations start decay depth layer s
    if s.nextLayer.entries = [] then some s
    else passLayers relations start decay left (depth + 1) s.nextLayer s

/-- The constructor of `DiffusionNode`, with the bounds of `_build_diffusion_nodes`. -/
def diffusionNode (x : String × NodeStats) : Option DiffusionNode :=
  if x.1 ≠ "" ∧ 0 ≤ x.2.impactScore then
    some ⟨x.1, x.2.impactScore, x.2.pathLength, min 1 (max 0 x.2.cumulativeConfidence)⟩
  else none

/-- `causal_diffusion_analysis`; `none` when a constructor refuses its arguments. -/
def causalDiffusionAnalysis (relations : List (Edge × ℚ)) (start : String) (maxDepth : ℤ)
    (decayFactor : ℚ) : Option DiffusionResult :=
  if relations = [] then some ⟨[], [], 0, 0⟩
  else do
    let s ← engine.passLayers relations start (max 0 (min 1 decayFactor)) (max 1 maxDepth).toNat 1
      ((∅ : PyDict String ℚ).set start 1) {}
    let nodes ← s.stats.entries.mapM diffusionNode
    some ⟨nodes, s.edges, (nodes.map DiffusionNode.impactScore).sum, s.reached⟩

/-! ## The layers are the fronts of a wave -/

/-- The relations that the wave passes from a node. -/
def spreads (relations : List (Edge × ℚ)) (start u : String) : List (Edge × ℚ) :=
  (engine.adjacency relations u).filter fun r => r.1.object ≠ start ∧ r.1.object ≠ u

def passedOn (start : String) (x : String × ℚ) (edges : List (Edge × ℚ)) : List (String × ℚ) :=
  (edges.filter fun r => r.1.object ≠ start ∧ r.1.object ≠ x.1).map fun r =>
    (objectOf r, x.2 * r.2)

/-- The loops do with the statistics and the next layer what the arrivals say. -/
structure Passed (decay : ℚ) (depth : ℕ) (items : List (String × ℚ)) (s s' : DiffusionState) :
    Prop where
  stats : s'.stats = updateAll (noteArrival decay depth) items s.stats
  next : s'.nextLayer = updateAll gathered items s.nextLayer

variable {engine} {relations : List (Edge × ℚ)} {start : String} {decay : ℚ} {depth : ℕ}

lemma Passed.trans {items items' : List (String × ℚ)} {s s' s'' : DiffusionState}
    (h : Passed decay depth items s s') (h' : Passed decay depth items' s' s'') :
    Passed decay depth (items ++ items') s s'' := by
  refine ⟨?_, ?_⟩
  · rw [h'.stats, h.stats, updateAll, updateAll, updateAll, List.foldl_append]
  · rw [h'.next, h.next, updateAll, updateAll, updateAll, List.foldl_append]

/-- A loop whose rounds raise nothing and pass something on. -/
lemma exists_passed {ι : Type} {f : DiffusionState → ι → Option DiffusionState}
    {items : ι → List (String × ℚ)} {l : List ι}
    (h : ∀ i ∈ l, ∀ s, ∃ s', f s i = some s' ∧ Passed decay depth (items i) s s')
    (s : DiffusionState) :
    ∃ s', l.foldlM f s = some s' ∧ Passed decay depth (l.flatMap items) s s' := by
  induction l generalizing s with
  | nil => exact ⟨s, rfl, rfl, rfl⟩
  | cons i l ih =>
      obtain ⟨hi, hl⟩ := List.forall_mem_cons.mp h
      obtain ⟨s₁, hs₁, hpass⟩ := hi s
      obtain ⟨s₂, hs₂, hpass'⟩ := ih hl s₁
      refine ⟨s₂, ?_, ?_⟩
      · rw [List.foldlM_cons, hs₁]
        exact hs₂
      · rw [List.flatMap_cons]
        exact hpass.trans hpass'

lemma exists_passEdge {x : String × ℚ} {r : Edge × ℚ} (hr : ValidStep r) (s : DiffusionState) :
    ∃ s', engine.passEdge start decay depth x s r = some s' ∧
      Passed decay depth (passedOn start x [r]) s s' := by
  unfold passEdge passedOn
  by_cases hskip : r.1.object = start ∨ r.1.object = x.1
  · have hdrop : [r].filter (fun r => decide (r.1.object ≠ start ∧ r.1.object ≠ x.1)) = [] := by
      simpa [not_and_or, or_iff_not_imp_left] using hskip
    rw [if_pos hskip, hdrop]
    exact ⟨s, rfl, rfl, rfl⟩
  · have hkeep : [r].filter (fun r => decide (r.1.object ≠ start ∧ r.1.object ≠ x.1)) = [r] := by
      simpa [not_or] using hskip
    have hcollect : ∃ s₁, engine.collectEdge r s = some s₁ ∧ s₁.stats = s.stats ∧
        s₁.nextLayer = s.nextLayer := by
      unfold collectEdge
      split_ifs
      · exact ⟨s, rfl, rfl, rfl⟩
      · rw [causalStep, if_pos hr]
        exact ⟨_, rfl, rfl, rfl⟩
    obtain ⟨s₁, hs₁, hstats, hnext⟩ := hcollect
    rw [if_neg hskip, hkeep, hs₁]
    refine ⟨_, rfl, ?_, ?_⟩
    · rw [← hstats]
      rfl
    · rw [← hnext]
      rfl

/-- A layer of valid relations: the statistics note what arrives, and the next layer is the next
front. -/
lemma exists_passLayer (hvalid : ∀ r ∈ relations, engine.admits r → ValidStep r)
    (layer : PyDict String ℚ) (s : DiffusionState) :
    ∃ s', engine.passLayer relations start decay depth layer s = some s' ∧
      s'.stats = updateAll (noteArrival decay depth)
        (arrivals (engine.spreads relations start) objectOf Prod.snd layer) s.stats ∧
      s'.nextLayer = nextFront (engine.spreads relations start) objectOf Prod.snd layer := by
  have hnode : ∀ x ∈ layer.entries, ∀ s, ∃ s',
      (engine.adjacency relations x.1).foldlM (engine.passEdge start decay depth x) s = some s' ∧
        Passed decay depth (passedOn start x (engine.adjacency relations x.1)) s s' := by
    intro x _ s
    have hedge : ∀ r ∈ engine.adjacency relations x.1, ∀ s, ∃ s',
        engine.passEdge start decay depth x s r = some s' ∧
          Passed decay depth (passedOn start x [r]) s s' := by
      intro r hr s
      obtain ⟨hmem, hadmits⟩ := List.mem_filter.mp hr
      exact exists_passEdge (hvalid r hmem (Bool.and_eq_true_iff.mp hadmits).1) s
    have hsplit : ∀ l : List (Edge × ℚ),
        l.flatMap (fun r => passedOn start x [r]) = passedOn start x l := by
      intro l
      induction l with
      | nil => rfl
      | cons r l ih =>
          rw [List.flatMap_cons, ih]
          unfold passedOn
          rw [← List.map_append, ← List.filter_append]
          rfl
    obtain ⟨s', hs', hpass⟩ := exists_passed hedge s
    rw [hsplit] at hpass
    exact ⟨s', hs', hpass⟩
  obtain ⟨s', hs', hpass⟩ := exists_passed hnode { s with nextLayer := ∅ }
  exact ⟨s', hs', hpass.stats, hpass.next⟩

/-! ## The statistics -/

/-- The arrivals at a node: the distance is that of the first layer, the confidence the largest. -/
lemma foldl_noteArrival {ts : List ℚ} (hts : ∀ t ∈ ts, t ≤ 1) {o o' : Option NodeStats}
    (ho : ∀ st, o = some st → st.pathLength ≤ depth ∧ st.cumulativeConfidence ≤ 1)
    (h : ts.foldl (fun o t => some (noteArrival decay depth o t)) o = o') :
    (o' = none ↔ o = none ∧ ts = []) ∧ ∀ st', o' = some st' →
      st'.pathLength = (o.map NodeStats.pathLength).getD depth ∧ st'.cumulativeConfidence ≤ 1 ∧
      (∀ st, o = some st → st.cumulativeConfidence ≤ st'.cumulativeConfidence) ∧
      (∀ t ∈ ts, t ≤ st'.cumulativeConfidence) ∧
      ((∃ st, o = some st ∧ st'.cumulativeConfidence = st.cumulativeConfidence) ∨
        st'.cumulativeConfidence ∈ ts) := by
  induction ts generalizing o with
  | nil =>
      obtain rfl : o = o' := h
      refine ⟨by simp, fun st hst => ⟨?_, (ho st hst).2, fun st' hst' => ?_, by nofun, ?_⟩⟩
      · rw [hst]
        rfl
      · rw [Option.some.inj (hst'.symm.trans hst)]
      · exact Or.inl ⟨st, hst, rfl⟩
  | cons t ts ih =>
      obtain ⟨ht, hts⟩ := List.forall_mem_cons.mp hts
      -- the statistics after the first arrival
      have hnote : (noteArrival decay depth o t).pathLength =
            (o.map NodeStats.pathLength).getD depth ∧
          (noteArrival decay depth o t).cumulativeConfidence =
            (o.map NodeStats.cumulativeConfidence).elim t (max · t) := by
        cases o with
        | none => exact ⟨rfl, min_eq_right ht⟩
        | some st =>
            obtain ⟨hlen, hconf⟩ := ho st rfl
            exact ⟨min_eq_left hlen, min_eq_right (max_le hconf ht)⟩
      have hbound : (noteArrival decay depth o t).pathLength ≤ depth ∧
          (noteArrival decay depth o t).cumulativeConfidence ≤ 1 := by
        rw [hnote.1, hnote.2]
        cases o with
        | none => exact ⟨le_refl depth, ht⟩
        | some st => exact ⟨(ho st rfl).1, max_le (ho st rfl).2 ht⟩
      obtain ⟨hnone, hsome⟩ := ih hts (fun st hst => Option.some.inj hst ▸ hbound) h
      refine ⟨by simpa using hnone, fun st' hst' => ?_⟩
      obtain ⟨hlen, hle, hfirst, hall, horigin⟩ := hsome st' hst'
      have hge := hfirst _ rfl
      rw [hnote.2] at hge
      refine ⟨hlen.trans hnote.1, hle, fun st hst => ?_, ?_, ?_⟩
      · subst hst
        exact (le_max_left _ _).trans hge
      · refine List.forall_mem_cons.mpr ⟨?_, hall⟩
        cases o with
        | none => exact hge
        | some st => exact (le_max_right _ _).trans hge
      · rcases horigin with ⟨st, hst, heq⟩ | hmem
        · rw [← Option.some.inj hst, hnote.2] at heq
          cases o with
          | none => exact Or.inr (heq ▸ List.mem_cons_self)
          | some st₀ =>
              rcases max_choice st₀.cumulativeConfidence t with hmax | hmax
              · exact Or.inl ⟨st₀, rfl, heq.trans hmax⟩
              · exact Or.inr ((heq.trans hmax) ▸ List.mem_cons_self)
        · exact Or.inr (List.mem_cons_of_mem t hmem)

lemma impact_foldl_noteArrival (hdecay : 0 ≤ decay) {ts : List ℚ} (hts : ∀ t ∈ ts, 0 ≤ t)
    {o : Option NodeStats} (ho : ∀ st, o = some st → 0 ≤ st.impactScore) :
    ∀ st, ts.foldl (fun o t => some (noteArrival decay depth o t)) o = some st →
      0 ≤ st.impactScore := by
  induction ts generalizing o with
  | nil => exact ho
  | cons t ts ih =>
      obtain ⟨ht, hts⟩ := List.forall_mem_cons.mp hts
      refine ih hts fun st hst => ?_
      have hterm : 0 ≤ t * decay ^ depth := mul_nonneg ht (pow_nonneg hdecay depth)
      obtain rfl := Option.some.inj hst
      cases o with
      | none => exact hterm
      | some st₀ => exact add_nonneg (ho st₀ rfl) hterm

variable (engine relations start) in
abbrev Spread (p : List (Edge × ℚ)) (v : String) : Prop :=
  IsWalk (engine.spreads relations start) objectOf start p v

variable (engine relations start) in
/-- No two walks of the wave of one length below `n` join before a relation to the node. -/
def Unmixed (n : ℕ) (v : String) : Prop :=
  ∀ r ∈ relations, r.1.object = v → ∀ p q : List (Edge × ℚ), p.length < n → p.length = q.length →
    engine.Spread relations start p r.1.subject → engine.Spread relations start q r.1.subject →
      p = q

variable (engine relations start) in
/-- What the statistics say after the first `n` layers. -/
structure Tracks (n : ℕ) (stats : PyDict String NodeStats) : Prop where
  mem_iff : ∀ v, v ∈ stats.keys ↔ ∃ p, p ≠ [] ∧ p.length ≤ n ∧ engine.Spread relations start p v
  distance : ∀ v st, stats.get? v = some st →
    (∃ p, p ≠ [] ∧ p.length = st.pathLength ∧ engine.Spread relations start p v) ∧
      ∀ p, p ≠ [] → engine.Spread relations start p v → st.pathLength ≤ p.length
  bound : ∀ v st, stats.get? v = some st → st.pathLength ≤ n ∧ st.cumulativeConfidence ≤ 1
  impact : ∀ v st, stats.get? v = some st → 0 ≤ st.impactScore
  lower : ∀ v st p, stats.get? v = some st → p ≠ [] → p.length ≤ n →
    engine.Spread relations start p v → productOf Prod.snd p ≤ st.cumulativeConfidence
  exact : relations.Nodup → ∀ v st, stats.get? v = some st →
    engine.Unmixed relations start n v → ∃ p, p ≠ [] ∧ p.length ≤ n ∧
      engine.Spread relations start p v ∧ productOf Prod.snd p = st.cumulativeConfidence

lemma tracks_empty : engine.Tracks relations start 0 ∅ := by
  refine ⟨fun v => ?_, by nofun, by nofun, by nofun, by nofun, by nofun⟩
  refine iff_of_false List.not_mem_nil ?_
  rintro ⟨p, hne, hlen, -⟩
  exact hne (List.length_eq_zero_iff.mp (Nat.le_zero.mp hlen))

lemma spreads_weight (hvalid : ∀ r ∈ relations, engine.admits r → ValidStep r) (u : String) :
    ∀ r ∈ engine.spreads relations start u, 0 ≤ r.2 ∧ r.2 ≤ 1 := by
  intro r hr
  obtain ⟨hmem, hadmits⟩ := List.mem_filter.mp (List.mem_of_mem_filter hr)
  exact (hvalid r hmem (Bool.and_eq_true_iff.mp hadmits).1).2.2.2

lemma mem_spreads {u : String} {r : Edge × ℚ} (h : r ∈ engine.spreads relations start u) :
    r ∈ relations ∧ r.1.subject = u := by
  have hadj := List.mem_of_mem_filter h
  exact ⟨List.mem_of_mem_filter hadj, subject_of_mem_adjacency hadj⟩

lemma Tracks.next {n : ℕ} {stats : PyDict String NodeStats} {front : PyDict String ℚ}
    (hdecay : 0 ≤ decay) (hvalid : ∀ r ∈ relations, engine.admits r → ValidStep r)
    (hfront : IsFront (engine.spreads relations start) objectOf Prod.snd start n front)
    (h : engine.Tracks relations start n stats) :
    engine.Tracks relations start (n + 1) (updateAll (noteArrival decay (n + 1))
      (arrivals (engine.spreads relations start) objectOf Prod.snd front) stats) := by
  have hweight : ∀ u, ∀ r ∈ engine.spreads relations start u, 0 ≤ r.2 ∧ r.2 ≤ 1 :=
    spreads_weight hvalid
  have hget : ∀ v, (updateAll (noteArrival decay (n + 1))
      (arrivals (engine.spreads relations start) objectOf Prod.snd front) stats).get? v =
        (arrivalsAt (engine.spreads relations start) objectOf Prod.snd front v).foldl
          (fun o t => some (noteArrival decay (n + 1) o t)) (stats.get? v) :=
    get?_updateAll _ _ stats
  have hfold := fun v => foldl_noteArrival
    (fun t ht => (hfront.unit_of_mem_arrivalsAt hweight (v := v) ht).2)
    (fun st hst => ⟨(h.bound v st hst).1.trans (Nat.le_succ n), (h.bound v st hst).2⟩) (hget v).symm
  -- an arrival belongs to a walk of one more edge
  have harrival : ∀ v, arrivalsAt (engine.spreads relations start) objectOf Prod.snd front v ≠ [] ↔
      ∃ p, p.length = n + 1 ∧ engine.Spread relations start p v := by
    intro v
    rw [exists_walk_succ]
    constructor
    · intro hne
      obtain ⟨t, ht⟩ := List.exists_mem_of_ne_nil _ hne
      obtain ⟨u, x, hx, e, he, hv, -⟩ := mem_arrivalsAt.mp ht
      exact ⟨u, (hfront.mem_iff u).mp (PyDict.mem_keys_of_get? hx), e, he, hv⟩
    · intro hex
      obtain ⟨p, hlen, hp⟩ := exists_walk_succ.mpr hex
      obtain ⟨t, ht, -⟩ := hfront.exists_arrival hweight hlen hp
      exact List.ne_nil_of_mem ht
  have hsplit : ∀ {p : List (Edge × ℚ)}, p.length ≤ n + 1 → p.length ≤ n ∨ p.length = n + 1 :=
    fun hp => Nat.le_succ_iff.mp hp
  have hne : ∀ {p : List (Edge × ℚ)}, p.length = n + 1 → p ≠ [] := by
    rintro p hlen rfl
    cases hlen
  refine ⟨fun v => ?_, fun v st hst => ?_, fun v st hst => ?_, fun v st hst => ?_,
    fun v st p hst hp hlen hwalk => ?_, fun hnodup v st hst hunmixed => ?_⟩
  · rw [PyDict.mem_keys_iff, Option.isSome_iff_ne_none, ne_eq, (hfold v).1, not_and_or]
    rw [← ne_eq, ← ne_eq, ← Option.isSome_iff_ne_none, ← PyDict.mem_keys_iff, h.mem_iff, harrival]
    constructor
    · rintro (⟨p, hp, hlen, hwalk⟩ | ⟨p, hlen, hwalk⟩)
      · exact ⟨p, hp, hlen.trans (Nat.le_succ n), hwalk⟩
      · exact ⟨p, hne hlen, hlen.le, hwalk⟩
    · rintro ⟨p, hp, hlen, hwalk⟩
      rcases hsplit hlen with hlen | hlen
      · exact Or.inl ⟨p, hp, hlen, hwalk⟩
      · exact Or.inr ⟨p, hlen, hwalk⟩
  · obtain ⟨hlength, -⟩ := (hfold v).2 st hst
    cases hold : stats.get? v with
    | some st₀ =>
        rw [hold] at hlength
        rw [hlength]
        exact h.distance v st₀ hold
    | none =>
        rw [hold] at hlength
        have hnew : v ∉ stats.keys := PyDict.get?_eq_none_iff.mp hold
        have hmin : ∀ p, p ≠ [] → engine.Spread relations start p v → n + 1 ≤ p.length := by
          intro p hp hwalk
          by_contra hlt
          exact hnew ((h.mem_iff v).mpr ⟨p, hp, by omega, hwalk⟩)
        have harr : arrivalsAt (engine.spreads relations start) objectOf Prod.snd front v ≠ [] := by
          intro hnil
          have hnone := (hfold v).1.mpr ⟨hold, hnil⟩
          rw [hnone] at hst
          cases hst
        obtain ⟨p, hlen, hwalk⟩ := (harrival v).mp harr
        refine ⟨⟨p, hne hlen, hlen.trans hlength.symm, hwalk⟩, fun q hq hqwalk => ?_⟩
        rw [hlength]
        exact hmin q hq hqwalk
  · obtain ⟨hlength, hle, -⟩ := (hfold v).2 st hst
    refine ⟨?_, hle⟩
    rw [hlength]
    cases hold : stats.get? v with
    | none => exact le_refl (n + 1)
    | some st₀ => exact (h.bound v st₀ hold).1.trans (Nat.le_succ n)
  · rw [hget] at hst
    exact impact_foldl_noteArrival hdecay
      (fun t ht => (hfront.unit_of_mem_arrivalsAt hweight ht).1) (h.impact v) st hst
  · obtain ⟨-, -, hold, hall, -⟩ := (hfold v).2 st hst
    rcases hsplit hlen with hlen | hlen
    · obtain ⟨st₀, hst₀⟩ := Option.isSome_iff_exists.mp
        (PyDict.mem_keys_iff.mp ((h.mem_iff v).mpr ⟨p, hp, hlen, hwalk⟩))
      exact (h.lower v st₀ p hst₀ hp hlen hwalk).trans (hold st₀ hst₀)
    · obtain ⟨t, ht, hle⟩ := hfront.exists_arrival hweight hlen hwalk
      exact hle.trans (hall t ht)
  · obtain ⟨-, -, -, -, horigin⟩ := (hfold v).2 st hst
    rcases horigin with ⟨st₀, hst₀, heq⟩ | hmem
    · obtain ⟨p, hp, hlen, hwalk, hprod⟩ := h.exact hnodup v st₀ hst₀
        fun r hr hv p q hp => hunmixed r hr hv p q (Nat.lt_succ_of_lt hp)
      exact ⟨p, hp, hlen.trans (Nat.le_succ n), hwalk, hprod.trans heq.symm⟩
    · obtain ⟨u, x, hx, r, hr, hv, heq⟩ := mem_arrivalsAt.mp hmem
      obtain ⟨hrel, hsubject⟩ := mem_spreads hr
      obtain ⟨p, hlen, hwalk, hprod⟩ := hfront.exact (fun u => (hnodup.filter _).filter _) u x hx
        fun p q hp hq hpw hqw => hunmixed r hrel hv p q (hp ▸ Nat.lt_succ_self n)
          (hp.trans hq.symm) (hsubject ▸ hpw) (hsubject ▸ hqw)
      refine ⟨p ++ [r], by simp, by simp [hlen], isWalk_concat.mpr ⟨u, hwalk, hr, hv⟩, ?_⟩
      rw [productOf_concat, hprod, heq]

lemma Tracks.of_no_front {n m : ℕ} {stats : PyDict String NodeStats}
    (h : engine.Tracks relations start n stats) (hnm : n ≤ m)
    (hdead : ∀ p v, engine.Spread relations start p v → p.length ≠ n) :
    engine.Tracks relations start m stats := by
  have hlen : ∀ p v, engine.Spread relations start p v → p.length ≤ n := by
    intro p v hp
    by_contra hlt
    -- the first `n` edges of a longer walk are a walk
    have htake : p = p.take n ++ p.drop n := (List.take_append_drop n p).symm
    unfold Spread at hp
    rw [htake] at hp
    obtain ⟨u, hu, -⟩ := isWalk_append.mp hp
    refine hdead _ u hu ?_
    rw [List.length_take]
    omega
  refine ⟨fun v => ?_, h.distance, fun v st hst => ?_, h.impact,
    fun v st p hst hp _ hwalk => ?_, fun hnodup v st hst hunmixed => ?_⟩
  · rw [h.mem_iff]
    refine exists_congr fun p => and_congr_right fun _ => ?_
    exact ⟨fun hp => ⟨hp.1.trans hnm, hp.2⟩, fun hp => ⟨hlen p v hp.2, hp.2⟩⟩
  · exact ⟨(h.bound v st hst).1.trans hnm, (h.bound v st hst).2⟩
  · exact h.lower v st p hst hp (hlen p v hwalk) hwalk
  · obtain ⟨p, hp, hle, hwalk, hprod⟩ := h.exact hnodup v st hst
      fun r hr hv p q hp => hunmixed r hr hv p q (hp.trans_le hnm)
    exact ⟨p, hp, hle.trans hnm, hwalk, hprod⟩

lemma exists_passLayers (hdecay : 0 ≤ decay)
    (hvalid : ∀ r ∈ relations, engine.admits r → ValidStep r) (left : ℕ) :
    ∀ {n : ℕ} {front : PyDict String ℚ} {s : DiffusionState},
      IsFront (engine.spreads relations start) objectOf Prod.snd start n front →
        engine.Tracks relations start n s.stats →
          ∃ s', engine.passLayers relations start decay left (n + 1) front s = some s' ∧
            engine.Tracks relations start (n + left) s'.stats := by
  induction left with
  | zero =>
      intro n front s _ hs
      exact ⟨s, rfl, hs⟩
  | succ left ih =>
      intro n front s hfront hs
      obtain ⟨s₁, hs₁, hstats, hnext⟩ : ∃ s₁,
          engine.passLayer relations start decay (n + 1) front s = some s₁ ∧ _ ∧ _ :=
        exists_passLayer hvalid front s
      have htracks := hs.next hdecay hvalid hfront
      rw [← hstats] at htracks
      have hfront₁ := hfront.next (spreads_weight hvalid)
      rw [← hnext] at hfront₁
      unfold passLayers
      rw [hs₁, Option.bind_eq_bind, Option.bind_some]
      by_cases hend : s₁.nextLayer.entries = []
      · rw [if_pos hend]
        refine ⟨s₁, rfl, htracks.of_no_front (by omega) fun p v hp hlen => ?_⟩
        have hmem := (hfront₁.mem_iff v).mpr ⟨p, hlen, hp⟩
        rw [PyDict.keys, hend] at hmem
        exact List.not_mem_nil hmem
      · rw [if_neg hend]
        obtain ⟨s₂, hs₂, htracks₂⟩ := ih hfront₁ htracks
        refine ⟨s₂, hs₂, ?_⟩
        rw [show n + (left + 1) = n + 1 + left by omega]
        exact htracks₂

/-! ## The paths of the graph -/

lemma isWalk_of_spread {a v : String} {p : List (Edge × ℚ)}
    (h : IsWalk (engine.spreads relations start) objectOf a p v) :
    IsWalk (engine.adjacency relations) objectOf a p v := by
  induction p generalizing a with
  | nil => exact h
  | cons r p ih => exact ⟨List.mem_of_mem_filter h.1, ih h.2⟩

/-- A simple path from the start is a walk of the wave. -/
lemma spread_of_isSimpleWalk {v : String} {p : List (Edge × ℚ)}
    (h : IsSimpleWalk (engine.adjacency relations) objectOf start p v) :
    engine.Spread relations start p v := by
  have hfrom : ∀ {a : String} {p : List (Edge × ℚ)}, start ∉ p.map objectOf →
      IsSimpleWalk (engine.adjacency relations) objectOf a p v →
        IsWalk (engine.spreads relations start) objectOf a p v := by
    intro a p
    induction p generalizing a with
    | nil => exact fun _ h => h.1
    | cons r p ih =>
        rintro hstart ⟨hwalk, hnodup⟩
        rw [List.map_cons, List.mem_cons, not_or] at hstart
        obtain ⟨ha, hnodup⟩ := List.nodup_cons.mp hnodup
        have hloop : objectOf r ≠ a := fun heq => ha (heq ▸ List.mem_cons_self)
        refine ⟨List.mem_filter.mpr ⟨hwalk.1, decide_eq_true ⟨?_, hloop⟩⟩,
          ih hstart.2 ⟨hwalk.2, hnodup⟩⟩
        exact fun heq => hstart.1 heq.symm
  exact hfrom (List.nodup_cons.mp h.2).1 h

/-- A path to another node can be shortened to a walk of the wave, which loses no confidence. -/
lemma exists_spread (hvalid : ∀ r ∈ relations, engine.admits r → ValidStep r) {v : String}
    (hv : v ≠ start) {p : List (Edge × ℚ)}
    (hp : IsWalk (engine.adjacency relations) objectOf start p v) :
    ∃ q, q ≠ [] ∧ q.length ≤ p.length ∧ engine.Spread relations start q v ∧
      productOf Prod.snd p ≤ productOf Prod.snd q := by
  obtain ⟨q, hq, hsub⟩ := hp.exists_simple
  have hmem : ∀ {a : String} {p : List (Edge × ℚ)},
      IsWalk (engine.adjacency relations) objectOf a p v →
        ∀ r ∈ p, 0 ≤ r.2 ∧ r.2 ≤ 1 := by
    intro a p
    induction p generalizing a with
    | nil => exact fun _ => by nofun
    | cons r p ih =>
        intro h
        obtain ⟨hr, hadmits⟩ := List.mem_filter.mp h.1
        exact List.forall_mem_cons.mpr
          ⟨(hvalid r hr (Bool.and_eq_true_iff.mp hadmits).1).2.2.2, ih h.2⟩
  refine ⟨q, ?_, hsub.length_le, spread_of_isSimpleWalk hq,
    productOf_le_of_sublist hsub (hmem hp)⟩
  rintro rfl
  exact hv (isWalk_nil.mp hq.1).symm

lemma ne_start_of_spread {v : String} {p : List (Edge × ℚ)} (hne : p ≠ [])
    (hp : engine.Spread relations start p v) : v ≠ start ∧ (∃ r ∈ relations,
      engine.admits r ∧ r.1.object = v) := by
  obtain ⟨q, r, rfl⟩ := (List.eq_nil_or_concat p).resolve_left hne
  rw [List.concat_eq_append] at hp
  obtain ⟨u, -, hr, rfl⟩ := isWalk_concat.mp hp
  obtain ⟨hadj, hspread⟩ := List.mem_filter.mp hr
  obtain ⟨hrel, hadmits⟩ := List.mem_filter.mp hadj
  exact ⟨(of_decide_eq_true hspread).1, r, hrel, (Bool.and_eq_true_iff.mp hadmits).1, rfl⟩

/-! ## The report -/

variable (engine relations start) in
/-- A directed path of at most `depth` relations. -/
def PathWithin (depth : ℤ) (p : List (Edge × ℚ)) (v : String) : Prop :=
  (p.length : ℤ) ≤ depth ∧ IsWalk (engine.adjacency relations) objectOf start p v

variable (engine relations start) in
/-- What the report says: the nodes within the depth, each once, with their distances, and with
confidences that no path exceeds; a confidence is that of a path where walks do not join. -/
structure ReportsPaths (depth : ℤ) (nodes : List DiffusionNode) : Prop where
  once : (nodes.map DiffusionNode.nodeId).Nodup
  mem_iff : ∀ v, v ∈ nodes.map DiffusionNode.nodeId ↔
    v ≠ start ∧ ∃ p, engine.PathWithin relations start depth p v
  distance : ∀ node ∈ nodes, IsLeast {n | ∃ p, p.length = n ∧
    IsWalk (engine.adjacency relations) objectOf start p node.nodeId} node.pathLength
  upper : ∀ node ∈ nodes, node.cumulativeConfidence ∈ upperBounds
    {x | ∃ p, engine.PathWithin relations start depth p node.nodeId ∧ productOf Prod.snd p = x}
  greatest : relations.Nodup → ∀ node ∈ nodes,
    engine.Unmixed relations start depth.toNat node.nodeId → IsGreatest
      {x | ∃ p, engine.PathWithin relations start depth p node.nodeId ∧ productOf Prod.snd p = x}
      node.cumulativeConfidence

/-- The node of the report for an entry of the statistics. -/
def nodeOf (x : String × NodeStats) : DiffusionNode :=
  ⟨x.1, x.2.impactScore, x.2.pathLength, x.2.cumulativeConfidence⟩

lemma mapM_diffusionNode {l : List (String × NodeStats)}
    (h : ∀ x ∈ l, x.1 ≠ "" ∧ 0 ≤ x.2.impactScore ∧ 0 ≤ x.2.cumulativeConfidence ∧
      x.2.cumulativeConfidence ≤ 1) :
    l.mapM diffusionNode = some (l.map nodeOf) := by
  induction l with
  | nil => rfl
  | cons x l ih =>
      obtain ⟨⟨hname, himpact, hnonneg, hle⟩, hl⟩ := List.forall_mem_cons.mp h
      rw [List.mapM_cons, diffusionNode, if_pos ⟨hname, himpact⟩, ih hl, max_eq_right hnonneg,
        min_eq_right hle]
      rfl

/-- The entries of the statistics, as the report has them. -/
lemma Tracks.entry {n : ℕ} {stats : PyDict String NodeStats}
    (hvalid : ∀ r ∈ relations, ValidStep r) (h : engine.Tracks relations start n stats)
    {x : String × NodeStats} (hx : x ∈ stats.entries) :
    x.1 ≠ "" ∧ 0 ≤ x.2.impactScore ∧ 0 ≤ x.2.cumulativeConfidence ∧
      x.2.cumulativeConfidence ≤ 1 := by
  have hget : stats.get? x.1 = some x.2 := PyDict.mem_entries_iff.mp hx
  obtain ⟨p, hne, hlen, hp⟩ := (h.mem_iff x.1).mp (PyDict.mem_keys_of_get? hget)
  obtain ⟨-, r, hr, -, hrx⟩ := ne_start_of_spread hne hp
  have hunit : ∀ e ∈ p, 0 ≤ e.2 ∧ e.2 ≤ 1 := by
    intro e he
    obtain ⟨q, q', rfl⟩ := List.append_of_mem he
    obtain ⟨u, -, hu⟩ := isWalk_append.mp hp
    exact spreads_weight (fun r hr _ => hvalid r hr) u e hu.1
  refine ⟨hrx ▸ (hvalid r hr).2.2.1, h.impact x.1 x.2 hget, ?_, (h.bound x.1 x.2 hget).2⟩
  exact (productOf_unit hunit).1.trans (h.lower x.1 x.2 p hget hne hlen hp)

/-- What the statistics say of the walks of the wave holds of the paths. -/
lemma Tracks.reportsPaths {n : ℕ} {stats : PyDict String NodeStats}
    (hvalid : ∀ r ∈ relations, ValidStep r) (h : engine.Tracks relations start n stats) :
    engine.ReportsPaths relations start n (stats.entries.map nodeOf) := by
  have hadmitted : ∀ r ∈ relations, engine.admits r → ValidStep r := fun r hr _ => hvalid r hr
  have hget : ∀ node ∈ stats.entries.map nodeOf, ∃ st, stats.get? node.nodeId = some st ∧
      node = nodeOf (node.nodeId, st) := by
    intro node hnode
    obtain ⟨x, hx, rfl⟩ := List.mem_map.mp hnode
    exact ⟨x.2, PyDict.mem_entries_iff.mp hx, rfl⟩
  have hother : ∀ v st, stats.get? v = some st → v ≠ start := by
    intro v st hst
    obtain ⟨p, hne, -, hp⟩ := (h.mem_iff v).mp (PyDict.mem_keys_of_get? hst)
    exact (ne_start_of_spread hne hp).1
  have hids : (stats.entries.map nodeOf).map DiffusionNode.nodeId = stats.keys := by
    rw [List.map_map]
    rfl
  have hupper : ∀ node ∈ stats.entries.map nodeOf, node.cumulativeConfidence ∈ upperBounds
      {x | ∃ p, engine.PathWithin relations start n p node.nodeId ∧
        productOf Prod.snd p = x} := by
    rintro node hnode x ⟨p, ⟨hlen, hp⟩, rfl⟩
    obtain ⟨st, hst, heq⟩ := hget node hnode
    obtain ⟨q, hne, hqlen, hq, hle⟩ := exists_spread hadmitted (hother _ st hst) hp
    rw [heq]
    exact hle.trans (h.lower _ st q hst hne (hqlen.trans (by omega)) hq)
  refine ⟨?_, fun v => ?_, fun node hnode => ?_, hupper, fun hnodup node hnode hunmixed => ?_⟩
  · rw [hids]
    exact stats.nodupKeys
  · rw [hids, h.mem_iff]
    constructor
    · rintro ⟨p, hne, hlen, hp⟩
      exact ⟨(ne_start_of_spread hne hp).1, p, by omega, isWalk_of_spread hp⟩
    · rintro ⟨hv, p, hlen, hp⟩
      obtain ⟨q, hne, hqlen, hq, -⟩ := exists_spread hadmitted hv hp
      exact ⟨q, hne, hqlen.trans (by omega), hq⟩
  · obtain ⟨st, hst, heq⟩ := hget node hnode
    obtain ⟨⟨p, -, hlen, hp⟩, hmin⟩ := h.distance _ st hst
    rw [heq]
    refine ⟨⟨p, hlen, isWalk_of_spread hp⟩, ?_⟩
    rintro m ⟨q, rfl, hq⟩
    obtain ⟨q', hne, hlen', hq', -⟩ := exists_spread hadmitted (hother _ st hst) hq
    exact (hmin q' hne hq').trans hlen'
  · refine ⟨?_, hupper node hnode⟩
    obtain ⟨st, hst, heq⟩ := hget node hnode
    obtain ⟨p, -, hlen, hp, hprod⟩ := h.exact hnodup _ st hst hunmixed
    rw [heq]
    exact ⟨p, ⟨by omega, isWalk_of_spread hp⟩, hprod⟩

/-- **The report of the diffusion**: the nodes within the depth, where a depth below one stands for
one, each with its distance and with a confidence that no path exceeds.  It is that of a path where
the walks of one length do not join. -/
theorem causalDiffusionAnalysis_reports (engine : RetroCausalEngine ρ)
    (relations : List (Edge × ℚ)) (hvalid : ∀ r ∈ relations, ValidStep r) (start : String)
    (maxDepth : ℤ) (decayFactor : ℚ) :
    ∃ result, engine.causalDiffusionAnalysis relations start maxDepth decayFactor = some result ∧
      engine.ReportsPaths relations start (max 1 maxDepth) result.nodes := by
  have hdepth : ((max 1 maxDepth).toNat : ℤ) = max 1 maxDepth := by omega
  unfold causalDiffusionAnalysis
  by_cases hrel : relations = []
  · subst hrel
    refine ⟨_, if_pos rfl, ?_⟩
    have hnone : ∀ v, ¬(v ≠ start ∧
        ∃ p, engine.PathWithin [] start (max 1 maxDepth) p v) := by
      rintro v ⟨hv, p, -, hp⟩
      cases p with
      | nil => exact hv (isWalk_nil.mp hp).symm
      | cons r p => exact List.not_mem_nil hp.1
    exact ⟨List.nodup_nil, fun v => iff_of_false List.not_mem_nil (hnone v), by nofun, by nofun,
      fun _ => by nofun⟩
  · have hdecay : 0 ≤ max 0 (min 1 decayFactor) := le_max_left _ _
    obtain ⟨s, hs, htracks⟩ : ∃ s, engine.passLayers relations start (max 0 (min 1 decayFactor))
          (max 1 maxDepth).toNat (0 + 1) ((∅ : PyDict String ℚ).set start 1) {} = some s ∧
        engine.Tracks relations start (0 + (max 1 maxDepth).toNat) s.stats :=
      exists_passLayers hdecay (fun r hr _ => hvalid r hr) _ isFront_start tracks_empty
    rw [Nat.zero_add] at hs htracks
    have hreport := htracks.reportsPaths hvalid
    rw [hdepth] at hreport
    have hnodes := mapM_diffusionNode fun x hx => htracks.entry hvalid hx
    rw [if_neg hrel, hs, Option.bind_eq_bind, Option.bind_some, hnodes]
    exact ⟨_, rfl, hreport⟩

/-- Two branches of the confidence 1/2 that join before the last node. -/
def joinedBranches : List (Edge × ℚ) :=
  [(⟨"hub", "hosts", "a"⟩, 1), (⟨"hub", "hosts", "b"⟩, 1), (⟨"a", "feeds", "sink"⟩, 1 / 2),
    (⟨"b", "feeds", "sink"⟩, 1 / 2), (⟨"sink", "feeds", "log"⟩, 1)]

/-- Every path to the last node passes one of the branches. -/
lemma productOf_le_joinedBranches {p : List (Edge × ℚ)}
    (hp : IsWalk ((constantEngine 1 (by norm_num)).adjacency joinedBranches) objectOf "hub" p
      "log") : productOf Prod.snd p ≤ 1 / 2 := by
  have hunit : ∀ {a b : String} {q : List (Edge × ℚ)},
      IsWalk ((constantEngine 1 (by norm_num)).adjacency joinedBranches) objectOf a q b →
        productOf Prod.snd q ≤ 1 := by
    intro a b q hq
    refine (productOf_unit fun r hr => ?_).2
    obtain ⟨q₁, q₂, rfl⟩ := List.append_of_mem hr
    obtain ⟨u, -, hu⟩ := isWalk_append.mp hq
    have hmem : r ∈ joinedBranches := List.mem_of_mem_filter hu.1
    exact (show ∀ r ∈ joinedBranches, 0 ≤ r.2 ∧ r.2 ≤ 1 by decide +kernel) r hmem
  have hlast : ∀ {b : String} {q : List (Edge × ℚ)}, b ≠ "hub" →
      IsWalk ((constantEngine 1 (by norm_num)).adjacency joinedBranches) objectOf "hub" q b →
        ∃ q' r, q = q' ++ [r] ∧ r ∈ joinedBranches ∧ r.1.object = b ∧
          IsWalk ((constantEngine 1 (by norm_num)).adjacency joinedBranches) objectOf "hub" q'
            r.1.subject := by
    intro b q hb hq
    obtain ⟨q', r, rfl⟩ := (List.eq_nil_or_concat q).resolve_left (by rintro rfl; exact hb hq.symm)
    rw [List.concat_eq_append] at hq ⊢
    obtain ⟨u, hu, hr, hobject⟩ := isWalk_concat.mp hq
    refine ⟨q', r, rfl, List.mem_of_mem_filter hr, hobject, ?_⟩
    rw [subject_of_mem_adjacency hr]
    exact hu
  obtain ⟨q, r, rfl, hr, hlog, hq⟩ := hlast (by decide) hp
  have hsink : r.1.subject = "sink" ∧ r.2 = 1 :=
    (show ∀ r ∈ joinedBranches, r.1.object = "log" → r.1.subject = "sink" ∧ r.2 = 1 by
      decide +kernel) r hr hlog
  rw [hsink.1] at hq
  obtain ⟨q', r', rfl, hr', hobject, hq'⟩ := hlast (by decide) hq
  have hhalf : r'.2 = 1 / 2 :=
    (show ∀ r ∈ joinedBranches, r.1.object = "sink" → r.2 = 1 / 2 by decide +kernel) r' hr' hobject
  rw [productOf_concat, productOf_concat, hsink.2, hhalf, mul_one]
  exact mul_le_of_le_one_left (by norm_num) (hunit hq')

/-- What both branches bring is passed on together: the last node is reported with the confidence
one, which no path to it has.  A depth of zero reports the neighbours. -/
theorem joined_branches_summed :
    (∀ r ∈ joinedBranches, ValidStep r) ∧
      (∃ result, (constantEngine 1 (by norm_num)).causalDiffusionAnalysis joinedBranches "hub" 3 1 =
        some result ∧ ∃ node ∈ result.nodes, node.nodeId = "log" ∧ ¬IsGreatest
          {x | ∃ p, (constantEngine 1 (by norm_num)).PathWithin joinedBranches "hub" 3 p
            node.nodeId ∧ productOf Prod.snd p = x} node.cumulativeConfidence) ∧
      ∃ result, (constantEngine 1 (by norm_num)).causalDiffusionAnalysis joinedBranches "hub" 0 1 =
        some result ∧ "a" ∈ result.nodes.map DiffusionNode.nodeId ∧
          ¬∃ p, (constantEngine 1 (by norm_num)).PathWithin joinedBranches "hub" 0 p "a" := by
  refine ⟨by decide +kernel, ?_, ?_⟩
  · have hrun : (((constantEngine 1 (by norm_num)).causalDiffusionAnalysis joinedBranches "hub" 3
        1).map fun result => result.nodes.map fun node =>
          (node.nodeId, node.cumulativeConfidence)) =
        some [("a", 1), ("b", 1), ("sink", 1 / 2), ("log", 1)] := by decide +kernel
    obtain ⟨result, hresult, hnodes⟩ := Option.map_eq_some_iff.mp hrun
    have hmem : ("log", (1 : ℚ)) ∈ result.nodes.map fun node =>
        (node.nodeId, node.cumulativeConfidence) := by
      rw [hnodes]
      simp
    obtain ⟨node, hnode, heq⟩ := List.mem_map.mp hmem
    obtain ⟨hid, hconf⟩ := Prod.ext_iff.mp heq
    refine ⟨result, hresult, node, hnode, hid, ?_⟩
    rintro ⟨⟨p, ⟨-, hp⟩, hprod⟩, -⟩
    rw [show node.nodeId = "log" from hid] at hp
    rw [show node.cumulativeConfidence = 1 from hconf] at hprod
    have hle := productOf_le_joinedBranches hp
    rw [hprod] at hle
    norm_num at hle
  · have hrun : (((constantEngine 1 (by norm_num)).causalDiffusionAnalysis joinedBranches "hub" 0
        1).map fun result => result.nodes.map DiffusionNode.nodeId) = some ["a", "b"] := by
      decide +kernel
    obtain ⟨result, hresult, hnodes⟩ := Option.map_eq_some_iff.mp hrun
    refine ⟨result, hresult, by rw [hnodes]; simp, ?_⟩
    rintro ⟨p, hlen, hp⟩
    have hnil : p = [] := List.length_eq_zero_iff.mp (by omega)
    subst hnil
    exact absurd (isWalk_nil.mp hp) (by decide)

/-- A chain of two relations. -/
theorem causalDiffusionAnalysis_chain :
    ∃ result, (constantEngine 1 (by norm_num)).causalDiffusionAnalysis
        [(⟨"hub", "hosts", "nas"⟩, 1), (⟨"nas", "mounts", "volume"⟩, 1 / 2)] "hub" 3 1 =
          some result ∧ (constantEngine 1 (by norm_num)).ReportsPaths
        [(⟨"hub", "hosts", "nas"⟩, 1), (⟨"nas", "mounts", "volume"⟩, 1 / 2)] "hub" 3 result.nodes :=
  causalDiffusionAnalysis_reports _ _ (by decide +kernel) "hub" 3 1

end RetroCausalEngine

end AtlasMemory
