import AtlasMemory.Cognitive.WritePath
import AtlasMemory.L2Semantic.GraphRestart

/-!
# The recalibration of the graph

The model of `recalibrate_graph_with_annealer`: the relations around an entity are annealed, and
every annealed edge is committed as a relation.  The insertion of a relation that is there raises its
confidence and never lowers it, in memory and on disk, so the annealed confidences arrive only where
they are the highest.

The annealer is a random descent on floating point numbers; of its result it matters that it has a
weight between zero and one for each edge.
-/

namespace AtlasMemory

/-- `CausalEdge`. -/
structure CausalEdge where
  relation : Edge
  confidence : ℚ
  impactType : String

/-- `CausalAnnealer.run`: the confidences of `final_edges`. -/
structure CausalAnnealer where
  weights : List CausalEdge → List ℚ
  length_weights : ∀ es, (weights es).length = es.length
  unit_of_mem_weights : ∀ es, ∀ w ∈ weights es, 0 ≤ w ∧ w ≤ 1

/-- `RetroCausalEngine`, with what it calls. -/
structure RetroCausalEngine (ρ : Type) where
  env : WriteEnv ρ
  /-- `re.findall(r"\w+", s)`. -/
  words : String → List String
  criticalPredicates : List String
  annealer : CausalAnnealer

/-- What a recalibration reports, with the annealed edges. -/
inductive RecalibrationReport
  | noRelations
  | emptyEdges
  | ok (finalEdges : List (Edge × ℚ)) (updatedEdges : ℕ)

def RecalibrationReport.annealed : RecalibrationReport → List (Edge × ℚ)
  | .ok finalEdges _ => finalEdges
  | .noRelations | .emptyEdges => []

namespace RetroCausalEngine

variable {ρ : Type} (engine : RetroCausalEngine ρ)

/-! ## The subgraph -/

/-- The tokens of an entity: its words of two letters or more, with blanks for underscores. -/
def entityTokens (entClean : String) : List String :=
  ((entClean.toList.splitOnP PyText.isPySpace).map String.ofList).filter fun w => 2 ≤ w.length

def matchesRoot (entity node : String) : Bool :=
  let lowered := engine.env.lex.lower (PyString.strip entity)
  let entClean := String.ofList (lowered.toList.map fun c => if c = '_' then ' ' else c)
  let entTokens := (entityTokens entClean).dedup
  let nodeStr := engine.env.lex.lower (PyString.strip node)
  let common := entTokens.filter fun w =>
    decide (w ∈ engine.words nodeStr) && decide (3 ≤ w.length)
  decide (node = entity) || decide (nodeStr = entClean) ||
    (decide (5 ≤ entClean.length) && PyString.hasInfix entClean nodeStr) ||
    decide (2 ≤ common.length) || (decide (entTokens.length = 1) && !common.isEmpty)

/-- A layer of the search: the neighbours of the nodes, in both directions. -/
def nextLayer (g : KuzuGraphStore) (layer seen : List String) : List String :=
  (g.nodes.keys.filter fun n => g.edges.keys.any fun e =>
    decide (e.subject ∈ layer ∧ e.object = n) || decide (e.object ∈ layer ∧ e.subject = n)).filter
      (· ∉ seen)

/-- The nodes within the depth of the layer. -/
def expand (g : KuzuGraphStore) : ℕ → List String → List String → List String
  | 0, _, seen => seen
  | depth + 1, layer, seen =>
    let next := nextLayer g layer seen
    if next = [] then seen else expand g depth next (seen ++ next)

/-- `get_subgraph_relations` for one entity: each root is expanded by itself, and the nodes of the
earlier ones are not passed again. -/
def subgraphRelations (g : KuzuGraphStore) (entity : String) (maxDepth : ℕ) : List (Edge × ℚ) :=
  let roots := if entity = "" then [] else g.nodes.keys.filter (engine.matchesRoot entity)
  let nodes := roots.foldl (fun seen root =>
    expand g (max 1 maxDepth) [root] (if root ∈ seen then seen else seen ++ [root])) []
  (g.edges.entries.filter fun e => decide (e.1.subject ∈ nodes ∧ e.1.object ∈ nodes)).map
    fun e => (e.1, e.2.confidence)

/-- The relations that are annealed: those around the entity, and where no entity is named and there
are none, all relations. -/
def relationsToAnneal (g : KuzuGraphStore) (target : Option String) (maxDepth : ℕ) :
    List (Edge × ℚ) :=
  let named := target.filter (· ≠ "")
  let around := engine.subgraphRelations g (named.getD "Root") maxDepth
  if around = [] ∧ (named = none ∨ named = some "Root") then
    g.edges.entries.map fun e => (e.1, e.2.confidence)
  else around

/-! ## Annealing and writing back -/

/-- A relation as an edge for the annealer; `none` if its confidence is not valid. -/
def toCausalEdge (r : Edge × ℚ) : Option CausalEdge :=
  if 0 ≤ r.2 ∧ r.2 ≤ 1 then
    some ⟨r.1, r.2, if r.1.predicate ∈ engine.criticalPredicates then "critical_dependency"
      else "general_dependency"⟩
  else none

/-- The edges for the annealer: relations without a name at one of their places are left out. -/
def causalEdges (relations : List (Edge × ℚ)) : Option (List CausalEdge) :=
  (relations.filter fun r =>
    decide (r.1.subject ≠ "" ∧ r.1.object ≠ "" ∧ r.1.predicate ≠ "")).mapM engine.toCausalEdge

/-- `final_edges` of the annealer. -/
def finalEdges (edges : List CausalEdge) : List (Edge × ℚ) :=
  (edges.map CausalEdge.relation).zip (engine.annealer.weights edges)

/-- `clamp_conf` of a number. -/
def clampConf (w : ℚ) : ℚ := max 0 (min 1 w)

/-- `commit_relation`: whether the relation was added. -/
def commitRelation (g : KuzuGraphStore) (e : Edge) (confidence now : ℚ) : KuzuGraphStore × Bool :=
  match WritePath.committed engine.env e with
  | none => (g, false)
  | some e' => (g.addRelation e' (clampConf confidence) now none, true)

/-- The loop over the annealed edges; the clock is read for each of them. -/
def writeBack (clock : Edge → ℚ) (g : KuzuGraphStore) :
    List (Edge × ℚ) → KuzuGraphStore × ℕ
  | [] => (g, 0)
  | p :: ps =>
    let (g₁, added) := engine.commitRelation g p.1 p.2 (clock p.1)
    let (g₂, n) := writeBack clock g₁ ps
    (g₂, n + if added then 1 else 0)

/-- `recalibrate_graph_with_annealer`; `none` when an edge is not valid. -/
def recalibrate (clock : Edge → ℚ) (g : KuzuGraphStore) (target : Option String) (maxDepth : ℕ) :
    Option (RecalibrationReport × KuzuGraphStore) :=
  let relations := engine.relationsToAnneal g target maxDepth
  if relations = [] then some (.noRelations, g)
  else
    (engine.causalEdges relations).map fun edges =>
      if edges = [] then (.emptyEdges, g)
      else
        let final := engine.finalEdges edges
        let (g', n) := engine.writeBack clock g final
        (.ok final n, g')

/-! ## What arrives -/

/-- The confidence of a relation after an insertion: the higher one. -/
def raise (stored : Option ℚ) (v : ℚ) : Option ℚ := some (KuzuGraphStore.higher v stored)

/-- The insertions of these confidences end with this one: it is not below any of them or the stored
one, and it is one of them. -/
def Settles (stored : Option ℚ) (arriving : List ℚ) (w : ℚ) : Prop :=
  (∀ c ∈ stored, c ≤ w) ∧ (∀ v ∈ arriving, v ≤ w) ∧ (stored = some w ∨ w ∈ arriving)

/-- The annealed confidences that are committed for the relation. -/
def arriving (final : List (Edge × ℚ)) (e : Edge) : List ℚ :=
  (final.filter fun p => decide (WritePath.committed engine.env p.1 = some e)).map Prod.snd

/-- The confidence that the tables have for a relation: that of a passage or a synonym, and
otherwise that of the relation. -/
def persistedConfidence (d : KuzuTables) (e : Edge) : Option ℚ :=
  d.hydratedConfidence (fun _ => true) e

/-- Every annealed edge has its annealed confidence, in memory and on disk. -/
def WrittenBack (g : KuzuGraphStore) (final : List (Edge × ℚ)) : Prop :=
  ∀ p ∈ final, g.edgeConfidence p.1 = some p.2 ∧ persistedConfidence g.disk p.1 = some p.2

/-- The condition on the stored and the annealed confidences of one edge. -/
def Raised (g : KuzuGraphStore) (final : List (Edge × ℚ)) (p : Edge × ℚ) : Prop :=
  Settles (g.edgeConfidence p.1) (engine.arriving final p.1) p.2 ∧
    (∀ c ∈ g.disk.linkConfidence (fun _ => true) p.1, c = p.2) ∧
    (g.disk.linkConfidence (fun _ => true) p.1 = none →
      Settles (g.disk.relationConfidence (fun _ => true) p.1) (engine.arriving final p.1) p.2)

instance (stored : Option ℚ) (arriving : List ℚ) (w : ℚ) : Decidable (Settles stored arriving w) :=
  inferInstanceAs (Decidable (_ ∧ _ ∧ _))

instance (g : KuzuGraphStore) (final : List (Edge × ℚ)) (p : Edge × ℚ) :
    Decidable (engine.Raised g final p) :=
  inferInstanceAs (Decidable (_ ∧ _ ∧ (_ → _)))

variable {engine}

lemma settles_nil {stored : Option ℚ} {w : ℚ} : Settles stored [] w ↔ stored = some w := by
  constructor
  · rintro ⟨-, -, h | h⟩
    · exact h
    · exact absurd h List.not_mem_nil
  · intro h
    refine ⟨fun c hc => ?_, nofun, Or.inl h⟩
    rw [h, Option.mem_some_iff] at hc
    rw [hc]

lemma settles_cons {stored : Option ℚ} {v w : ℚ} {vs : List ℚ} :
    Settles stored (v :: vs) w ↔ Settles (raise stored v) vs w := by
  have hraise : ∀ c ∈ raise stored v, (c = v ∨ c ∈ stored) ∧ v ≤ c ∧ ∀ d ∈ stored, d ≤ c := by
    intro c hc
    rw [raise, Option.mem_some_iff] at hc
    rw [← hc]
    cases stored with
    | none => exact ⟨Or.inl rfl, le_refl v, nofun⟩
    | some d =>
        unfold KuzuGraphStore.higher
        dsimp only
        split_ifs with h
        · refine ⟨Or.inr rfl, h.le, fun d' hd' => ?_⟩
          rw [Option.mem_some_iff.mp hd']
        · refine ⟨Or.inl rfl, le_refl v, fun d' hd' => ?_⟩
          rw [← Option.mem_some_iff.mp hd']
          exact not_lt.mp h
  obtain ⟨c, hc⟩ : ∃ c, raise stored v = some c := ⟨_, rfl⟩
  obtain ⟨hor, hv, hall⟩ := hraise c hc
  constructor
  · rintro ⟨hstored, harriving, hattained⟩
    have hvw : v ≤ w := harriving v List.mem_cons_self
    have hcw : c ≤ w := by
      rcases hor with h | h
      · rw [h]
        exact hvw
      · exact hstored c h
    refine ⟨fun d hd => ?_, fun u hu => harriving u (List.mem_cons_of_mem v hu), ?_⟩
    · rw [hc, Option.mem_some_iff] at hd
      rw [← hd]
      exact hcw
    · rcases hattained with h | h
      · have hwc : w ≤ c := hall w h
        exact Or.inl (hc.trans (congrArg some (le_antisymm hcw hwc)))
      · rcases List.mem_cons.mp h with h | h
        · have hwc : w ≤ c := h ▸ hv
          exact Or.inl (hc.trans (congrArg some (le_antisymm hcw hwc)))
        · exact Or.inr h
  · rintro ⟨hstored, harriving, hattained⟩
    have hcw : c ≤ w := hstored c hc
    refine ⟨fun d hd => (hall d hd).trans hcw, fun u hu => ?_, ?_⟩
    · rcases List.mem_cons.mp hu with h | h
      · rw [h]
        exact hv.trans hcw
      · exact harriving u h
    · rcases hattained with h | h
      · have hcw' : c = w := Option.some.inj (hc.symm.trans h)
        rw [← hcw']
        rcases hor with h | h
        · exact Or.inr (List.mem_cons.mpr (Or.inl h))
        · exact Or.inl h
      · exact Or.inr (List.mem_cons_of_mem v h)

/-- Raising by all that arrives ends with a confidence exactly when this one settles. -/
lemma foldl_raise_eq_some_iff {stored : Option ℚ} {vs : List ℚ} {w : ℚ} :
    vs.foldl raise stored = some w ↔ Settles stored vs w := by
  induction vs generalizing stored with
  | nil => exact settles_nil.symm
  | cons v vs ih =>
      rw [List.foldl_cons, settles_cons]
      exact ih

/-! ### One insertion -/

lemma edgeConfidence_addRelation (g : KuzuGraphStore) (e e' : Edge) (c now : ℚ) :
    (g.addRelation e c now none).edgeConfidence e' =
      if e = e' then raise (g.edgeConfidence e') c else g.edgeConfidence e' := by
  unfold KuzuGraphStore.edgeConfidence KuzuGraphStore.addRelation
  dsimp only
  rw [KuzuGraphStore.edgeConfidence_set]
  by_cases he : e = e'
  · rw [if_pos he, if_pos he, he, raise]
  · rw [if_neg he, if_neg he]

lemma relationConfidence_addRelation (g : KuzuGraphStore) (e e' : Edge) (c now : ℚ) :
    (g.addRelation e c now none).disk.relationConfidence (fun _ => true) e' =
      if e = e' then raise (g.disk.relationConfidence (fun _ => true) e') c
      else g.disk.relationConfidence (fun _ => true) e' := by
  unfold KuzuGraphStore.addRelation
  dsimp only
  have hrelations : ((g.disk.mergeEntity e.subject "entity").mergeEntity e.object
      "entity_or_val").relations = g.disk.relations := by simp
  rw [KuzuGraphStore.relationConfidence_mergeRelation,
    KuzuGraphStore.relationConfidence_congr hrelations, hrelations]
  by_cases he : e = e'
  · rw [if_pos he, if_pos he, he]
    rfl
  · rw [if_neg he, if_neg he]

lemma linkConfidence_addRelation (g : KuzuGraphStore) (e e' : Edge) (c now : ℚ) :
    (g.addRelation e c now none).disk.linkConfidence (fun _ => true) e' =
      g.disk.linkConfidence (fun _ => true) e' := by
  unfold KuzuGraphStore.addRelation
  dsimp only
  rw [KuzuGraphStore.linkConfidence_mergeRelation]
  exact KuzuGraphStore.linkConfidence_congr (by simp) (by simp) e'

lemma clampConf_of_unit {w : ℚ} (h : 0 ≤ w ∧ w ≤ 1) : clampConf w = w := by
  rw [clampConf, min_eq_right h.2, max_eq_right h.1]

/-! ### The loop -/

variable {clock : Edge → ℚ}

/-- What one committed edge does to a confidence that the insertions raise. -/
lemma observe_commitRelation (observe : KuzuGraphStore → Edge → Option ℚ)
    (hadd : ∀ g e e' c now, observe (g.addRelation e c now none) e' =
      if e = e' then raise (observe g e') c else observe g e')
    (g : KuzuGraphStore) {p : Edge × ℚ} (hunit : 0 ≤ p.2 ∧ p.2 ≤ 1) (now : ℚ) (e : Edge) :
    observe (engine.commitRelation g p.1 p.2 now).1 e =
      (engine.arriving [p] e).foldl raise (observe g e) := by
  unfold commitRelation arriving
  cases hcommitted : WritePath.committed engine.env p.1 with
  | none => simp [hcommitted]
  | some e' =>
      dsimp only
      rw [hadd, clampConf_of_unit hunit]
      by_cases he : e' = e
      · simp [hcommitted, he]
      · simp [hcommitted, he]

/-- A confidence that the insertions raise is raised by all that arrives for it. -/
lemma observe_writeBack (observe : KuzuGraphStore → Edge → Option ℚ)
    (hadd : ∀ g e e' c now, observe (g.addRelation e c now none) e' =
      if e = e' then raise (observe g e') c else observe g e')
    (g : KuzuGraphStore) {final : List (Edge × ℚ)}
    (hunit : ∀ p ∈ final, 0 ≤ p.2 ∧ p.2 ≤ 1) (e : Edge) :
    observe (engine.writeBack clock g final).1 e =
      (engine.arriving final e).foldl raise (observe g e) := by
  induction final generalizing g with
  | nil => rfl
  | cons p ps ih =>
      have hsplit : engine.arriving (p :: ps) e =
          engine.arriving [p] e ++ engine.arriving ps e := by
        unfold arriving
        rw [← List.map_append, ← List.filter_append]
        rfl
      rw [hsplit, List.foldl_append,
        ← observe_commitRelation observe hadd g (hunit p List.mem_cons_self) (clock p.1) e]
      exact ih _ fun q hq => hunit q (List.mem_cons_of_mem p hq)

/-- What the insertions leave alone, the loop leaves alone. -/
lemma linkConfidence_writeBack (g : KuzuGraphStore) (final : List (Edge × ℚ)) (e : Edge) :
    (engine.writeBack clock g final).1.disk.linkConfidence (fun _ => true) e =
      g.disk.linkConfidence (fun _ => true) e := by
  induction final generalizing g with
  | nil => rfl
  | cons p ps ih =>
      refine (ih (engine.commitRelation g p.1 p.2 (clock p.1)).1).trans ?_
      unfold commitRelation
      cases WritePath.committed engine.env p.1 with
      | none => rfl
      | some e' => exact linkConfidence_addRelation g e' e _ _

lemma unit_of_mem_finalEdges {edges : List CausalEdge} {p : Edge × ℚ}
    (h : p ∈ engine.finalEdges edges) : 0 ≤ p.2 ∧ p.2 ≤ 1 :=
  engine.annealer.unit_of_mem_weights edges p.2 (List.of_mem_zip h).2

/-- A recalibration that reports success has written the annealed edges back. -/
lemma recalibrate_eq_ok {g g' : KuzuGraphStore} {target : Option String} {maxDepth n : ℕ}
    {final : List (Edge × ℚ)}
    (h : engine.recalibrate clock g target maxDepth = some (.ok final n, g')) :
    (∀ p ∈ final, 0 ≤ p.2 ∧ p.2 ≤ 1) ∧ g' = (engine.writeBack clock g final).1 := by
  unfold recalibrate at h
  dsimp only at h
  split_ifs at h
  · cases h
  · obtain ⟨edges, -, hedges⟩ := Option.map_eq_some_iff.mp h
    split_ifs at hedges
    · cases hedges
    obtain ⟨hreport, hgraph⟩ := Prod.mk.inj hedges
    obtain ⟨hfinal, -⟩ := RecalibrationReport.ok.inj hreport
    rw [← hfinal, ← hgraph]
    exact ⟨fun p hp => unit_of_mem_finalEdges hp, rfl⟩

/-- **Annealing is written back** exactly when every annealed confidence is the highest of those
that are stored for its edge or arrive for it, and arrives for it or is stored for it already. -/
theorem writtenBack_iff {g g' : KuzuGraphStore} {target : Option String} {maxDepth n : ℕ}
    {final : List (Edge × ℚ)}
    (h : engine.recalibrate clock g target maxDepth = some (.ok final n, g')) :
    WrittenBack g' final ↔ ∀ p ∈ final, engine.Raised g final p := by
  obtain ⟨hunit, hgraph⟩ := recalibrate_eq_ok h
  rw [hgraph]
  refine forall₂_congr fun p _ => ?_
  have hmemory := @observe_writeBack _ engine clock KuzuGraphStore.edgeConfidence
    edgeConfidence_addRelation g _ hunit p.1
  have hrelation := @observe_writeBack _ engine clock
    (fun g e => g.disk.relationConfidence (fun _ => true) e) relationConfidence_addRelation g _
    hunit p.1
  rw [hmemory, foldl_raise_eq_some_iff, persistedConfidence, KuzuTables.hydratedConfidence,
    linkConfidence_writeBack]
  refine and_congr_right fun _ => ?_
  cases g.disk.linkConfidence (fun _ => true) p.1 with
  | some c =>
      constructor
      · intro hc
        refine ⟨fun d hd => ?_, by rintro ⟨⟩⟩
        rw [← Option.mem_some_iff.mp hd]
        exact Option.some.inj hc
      · intro hc
        exact congrArg some (hc.1 c rfl)
  | none =>
      rw [Option.none_or, hrelation, foldl_raise_eq_some_iff]
      exact ⟨fun h => ⟨by rintro _ ⟨⟩, fun _ => h⟩, fun h => h.2 rfl⟩

lemma eq_ok_of_annealed {r : Option (RecalibrationReport × KuzuGraphStore)} {p : Edge × ℚ}
    {ps : List (Edge × ℚ)} (h : (r.map fun r => r.1.annealed) = some (p :: ps)) :
    ∃ g' n, r = some (.ok (p :: ps) n, g') := by
  obtain ⟨⟨report, g'⟩, hr, hannealed⟩ := Option.map_eq_some_iff.mp h
  cases report with
  | noRelations => cases hannealed
  | emptyEdges => cases hannealed
  | ok final n =>
      have hfinal : final = p :: ps := hannealed
      rw [hr, hfinal]
      exact ⟨g', n, rfl⟩

/-- An engine whose annealer gives every edge the same weight. -/
def constantEngine (w : ℚ) (h : 0 ≤ w ∧ w ≤ 1) : RetroCausalEngine Unit where
  env := sampleWriteEnv
  words s := (s.toList.splitOnP fun c => !c.isAlphanum).map String.ofList
  criticalPredicates := ["depends_on"]
  annealer :=
    { weights := fun es => es.map fun _ => w
      length_weights := fun es => List.length_map _
      unit_of_mem_weights := fun es v hv => by
        obtain ⟨e, -, he⟩ := List.mem_map.mp hv
        rw [← he]
        exact h }

def sampleEdge : Edge := ⟨"service:api", "depends_on", "service:db"⟩

def sampleGraph : KuzuGraphStore := KuzuGraphStore.empty.addRelation sampleEdge (1 / 2) 0 none

/-- A confidence that goes up is written back. -/
theorem writtenBack_up : ∃ g' n,
    (constantEngine (3 / 4) (by norm_num)).recalibrate (fun _ => 1) sampleGraph
      (some "service:api") 2 = some (.ok [(sampleEdge, 3 / 4)] n, g') ∧
      WrittenBack g' [(sampleEdge, 3 / 4)] := by
  have hfinal : (((constantEngine (3 / 4) (by norm_num)).recalibrate (fun _ => 1) sampleGraph
      (some "service:api") 2).map fun r => r.1.annealed) = some [(sampleEdge, 3 / 4)] := by
    decide +kernel
  obtain ⟨g', n, hrun⟩ := eq_ok_of_annealed hfinal
  refine ⟨g', n, hrun, (writtenBack_iff hrun).mpr ?_⟩
  decide +kernel

/-- A confidence that goes down is not. -/
theorem not_writtenBack_down : ∃ g' n,
    (constantEngine (1 / 4) (by norm_num)).recalibrate (fun _ => 1) sampleGraph
      (some "service:api") 2 = some (.ok [(sampleEdge, 1 / 4)] n, g') ∧
      ¬ WrittenBack g' [(sampleEdge, 1 / 4)] := by
  have hfinal : (((constantEngine (1 / 4) (by norm_num)).recalibrate (fun _ => 1) sampleGraph
      (some "service:api") 2).map fun r => r.1.annealed) = some [(sampleEdge, 1 / 4)] := by
    decide +kernel
  have hstored : (((constantEngine (1 / 4) (by norm_num)).recalibrate (fun _ => 1) sampleGraph
      (some "service:api") 2).map fun r => r.2.edgeConfidence sampleEdge) = some (some (1 / 2)) := by
    decide +kernel
  obtain ⟨g', n, hrun⟩ := eq_ok_of_annealed hfinal
  refine ⟨g', n, hrun, fun h => ?_⟩
  have hannealed : g'.edgeConfidence sampleEdge = some (1 / 4) := (h _ List.mem_cons_self).1
  rw [hrun, Option.map_some, hannealed] at hstored
  norm_num at hstored

end RetroCausalEngine

end AtlasMemory
