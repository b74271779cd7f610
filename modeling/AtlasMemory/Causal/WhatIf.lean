import AtlasMemory.Causal.CriticalPoints
import AtlasMemory.Foundations.Walks
import Mathlib.Algebra.BigOperators.Group.List.Basic
import Mathlib.Algebra.Order.Ring.Rat
import Mathlib.Algebra.Order.Ring.Star
import Mathlib.Data.Prod.Lex
import Mathlib.Data.Rat.Star

/-!
# The paths of a what-if analysis

The model of `causal_what_if`: the paths of bounded length from the roots, found depth first with
one set of visited nodes, to which a node is added before its own search and from which it is taken
afterwards.  A path is kept only if its signature is new, a text in which the steps are joined by
`->` and the names of a step by `-[` and `]->`.

The names are not escaped, so two paths may have one signature, and then the later one is lost.  The
report has every simple path exactly once if and only if this does not happen and no constructor
refuses a step, a path or a critical point: `causalWhatIf_exact_iff`.

Rounding is left out, and so are the divergence and the description of a path, which are computed
from it.  The assessment of the risk is arbitrary.
-/

namespace AtlasMemory

open Walks

/-- `CausalPath`. -/
structure CausalPath where
  sourceEntity : String
  simulatedAction : String
  steps : List CausalEdge
  affectedTarget : String
  cumulativeConfidence : ℚ
  riskLevel : String

namespace RetroCausalEngine

variable {ρ : Type} (engine : RetroCausalEngine ρ)

/-! ## The adjacency -/

/-- The predicates that `_build_adjacency` leaves out. -/
def textPredicates : List String :=
  ["stated_memory", "raw_content", "documentation", "source_doc"]

def admits (r : Edge × ℚ) : Bool :=
  decide (r.1.predicate ∉ textPredicates) && !engine.env.isPiiEntity r.1.subject &&
    !engine.env.isPiiEntity r.1.object

/-- `_build_adjacency(relations).get(u, [])`. -/
def adjacency (relations : List (Edge × ℚ)) (u : String) : List (Edge × ℚ) :=
  relations.filter fun r => engine.admits r && decide (r.1.subject = u)

def objectOf (r : Edge × ℚ) : String := r.1.object

/-! ## The search -/

def edgeOf (r : Edge × ℚ) : CausalEdge where
  relation := r.1
  confidence := r.2
  impactType := if r.1.predicate ∈ engine.criticalPredicates then "critical_dependency"
    else "general_dependency"

/-- The constructor of `CausalEdge` takes the relation. -/
def ValidStep (r : Edge × ℚ) : Prop :=
  r.1.subject ≠ "" ∧ r.1.predicate ≠ "" ∧ r.1.object ≠ "" ∧ 0 ≤ r.2 ∧ r.2 ≤ 1

instance (r : Edge × ℚ) : Decidable (ValidStep r) := by
  unfold ValidStep
  infer_instance

/-- The constructor of `CausalEdge`. -/
def causalStep (r : Edge × ℚ) : Option CausalEdge :=
  if ValidStep r then some (engine.edgeOf r) else none

def stepText (s : CausalEdge) : String :=
  s.relation.subject ++ "-[" ++ s.relation.predicate ++ "]->" ++ s.relation.object

/-- `sig`. -/
def signature (steps : List CausalEdge) : String := "->".intercalate (steps.map stepText)

/-- What the search has found: `seen_path_signatures` and `paths`. -/
structure PathLog where
  seen : List String
  paths : List CausalPath

/-- The search with its set of visited nodes. -/
structure SearchState where
  visited : List String
  log : PathLog

/-- `_assess_path_risk` after the critical points: a function of the steps, the target and the
confidence. -/
abbrev RiskAssessment := String → List CPoFNode → List CausalEdge → String → ℚ → String

variable (assess : List CausalEdge → String → ℚ → String) (action : String)

/-- The constructor of `CausalPath`. -/
def causalPath (root target : String) (steps : List CausalEdge) (conf : ℚ) : Option CausalPath :=
  if root ≠ "" ∧ action ≠ "" ∧ target ≠ "" ∧ 0 ≤ conf ∧ conf ≤ 1 then
    some ⟨root, action, steps, target, conf, assess steps target conf⟩
  else none

/-- The path is appended if its signature is new. -/
def recordPath (root target : String) (steps : List CausalEdge) (conf : ℚ) (log : PathLog) :
    Option PathLog :=
  if signature steps ∈ log.seen then some log
  else (causalPath assess action root target steps conf).map fun p =>
    ⟨log.seen ++ [signature steps], log.paths ++ [p]⟩

/-- One round of the loop of `dfs_traverse` over the neighbours. -/
def tryEdge (search : String → List CausalEdge → ℚ → SearchState → Option SearchState)
    (root : String) (steps : List CausalEdge) (conf : ℚ) (s : SearchState) (r : Edge × ℚ) :
    Option SearchState :=
  if engine.env.isPiiEntity r.1.object then some s
  else if r.1.object ∈ s.visited then some s
  else do
    let step ← engine.causalStep r
    let newSteps := steps ++ [step]
    let newConf := conf * r.2
    let log ← recordPath assess action root r.1.object newSteps newConf s.log
    let s ← search r.1.object newSteps newConf ⟨r.1.object :: s.visited, log⟩
    some ⟨s.visited.erase r.1.object, s.log⟩

/-- `dfs_traverse`, with the number of steps that are left. -/
def dfsTraverse (relations : List (Edge × ℚ)) (root : String) :
    ℕ → String → List CausalEdge → ℚ → SearchState → Option SearchState
  | 0, _, _, _, s => some s
  | n + 1, current, steps, conf, s =>
    (engine.adjacency relations current).foldlM
      (engine.tryEdge assess action (dfsTraverse relations root n) root steps conf) s

def pathRank (p : CausalPath) : Bool ×ₗ Bool ×ₗ ℚ :=
  toLex (p.riskLevel = "CRITICAL", toLex (decide (p.riskLevel = "HIGH"), p.cumulativeConfidence))

/-- `causal_what_if`, given the relations around the entity within the depth and within ten steps,
and the roots; `none` when a constructor refuses its arguments. -/
def causalWhatIf (risk : RiskAssessment) (relations wide : List (Edge × ℚ)) (roots : List String)
    (entity action : String) (depth : ℤ) : Option (List CausalPath) :=
  if relations = [] then some []
  else do
    let cpof ← detectCpof wide entity
    let starts := if roots = [] then [entity] else roots
    let log ← starts.foldlM (fun log root =>
      (engine.dfsTraverse (risk action cpof) action relations root depth.toNat root [] 1
        ⟨[root], log⟩).map SearchState.log) ⟨[], []⟩
    some (StableSort.sortBy pathRank log.paths)

/-! ## The search follows the enumeration of the simple walks -/

/-- The product of the confidences of a walk. -/
def confidenceOf (p : List (Edge × ℚ)) : ℚ := (p.map Prod.snd).prod

def endOf (p : List (Edge × ℚ)) : String := (p.map objectOf).getLastD ""

/-- What the search does with a walk from the root. -/
def visitPath (root : String) (log : PathLog) (p : List (Edge × ℚ)) : Option PathLog :=
  if ∀ r ∈ p, ValidStep r then
    recordPath assess action root (endOf p) (p.map engine.edgeOf) (confidenceOf p) log
  else none

def walksFrom (relations : List (Edge × ℚ)) (n : ℕ) (root : String) : List (List (Edge × ℚ)) :=
  extensions (engine.adjacency relations) objectOf n root [root]

variable {engine assess action} {relations : List (Edge × ℚ)} {root : String}

lemma not_pii_of_mem_adjacency {u : String} {r : Edge × ℚ}
    (h : r ∈ engine.adjacency relations u) : engine.env.isPiiEntity r.1.object = false := by
  have hadmits := (Bool.and_eq_true_iff.mp (List.mem_filter.mp h).2).1
  have hobject := (Bool.and_eq_true_iff.mp hadmits).2
  simpa using hobject

/-- Folds that agree up to a map agree on what is folded in pieces. -/
lemma foldlM_flatMap {ι τ σ υ : Type} {f : σ → ι → Option σ} {g : τ → υ → Option τ} {mk : τ → σ}
    {pieces : ι → List υ} {l : List ι}
    (h : ∀ e ∈ l, ∀ t, f (mk t) e = ((pieces e).foldlM g t).map mk) (t : τ) :
    l.foldlM f (mk t) = ((l.flatMap pieces).foldlM g t).map mk := by
  induction l generalizing t with
  | nil => rfl
  | cons e l ih =>
      obtain ⟨he, hl⟩ := List.forall_mem_cons.mp h
      rw [List.foldlM_cons, List.flatMap_cons, List.foldlM_append, he]
      cases (pieces e).foldlM g t with
      | none => rfl
      | some t' => exact ih hl t'

lemma visitPath_concat {q : List (Edge × ℚ)} {r : Edge × ℚ} (hq : ∀ x ∈ q, ValidStep x)
    (log : PathLog) :
    engine.visitPath assess action root log (q ++ [r]) = (engine.causalStep r).bind fun step =>
      recordPath assess action root r.1.object (q.map engine.edgeOf ++ [step])
        (confidenceOf q * r.2) log := by
  by_cases hr : ValidStep r
  · have hall : ∀ x ∈ q ++ [r], ValidStep x :=
      List.forall_mem_append.mpr ⟨hq, List.forall_mem_singleton.mpr hr⟩
    rw [visitPath, if_pos hall, causalStep, if_pos hr]
    simp [endOf, confidenceOf, objectOf]
  · rw [visitPath, if_neg fun h => hr (h r (by simp)), causalStep, if_neg hr]
    rfl

/-- A neighbour: nothing if it was visited, and else the walk to it and the extensions of that. -/
lemma tryEdge_eq {search : String → List CausalEdge → ℚ → SearchState → Option SearchState}
    {q : List (Edge × ℚ)} {r : Edge × ℚ} {visited : List String} {later : List (List (Edge × ℚ))}
    (hq : ∀ x ∈ q, ValidStep x) (hr : engine.env.isPiiEntity r.1.object = false)
    (hsearch : ValidStep r → ∀ log, search r.1.object ((q ++ [r]).map engine.edgeOf)
      (confidenceOf (q ++ [r])) ⟨r.1.object :: visited, log⟩ =
        ((later.map (q ++ [r] ++ ·)).foldlM (engine.visitPath assess action root) log).map
          (SearchState.mk (r.1.object :: visited))) (log : PathLog) :
    engine.tryEdge assess action search root (q.map engine.edgeOf) (confidenceOf q)
        ⟨visited, log⟩ r =
      (((if objectOf r ∈ visited then [] else [r] :: later.map (r :: ·)).map (q ++ ·)).foldlM
        (engine.visitPath assess action root) log).map (SearchState.mk visited) := by
  rw [tryEdge, hr, if_neg Bool.false_ne_true]
  by_cases hv : r.1.object ∈ visited
  · rw [if_pos hv, if_pos (show objectOf r ∈ visited from hv)]
    rfl
  · have hmap : (later.map (r :: ·)).map (q ++ ·) = later.map (q ++ [r] ++ ·) := by
      rw [List.map_map]
      exact List.map_congr_left fun w _ => by simp
    rw [if_neg hv, if_neg (show objectOf r ∉ visited from hv), List.map_cons, List.foldlM_cons,
      hmap, visitPath_concat hq]
    by_cases hvalid : ValidStep r
    · have hlater := hsearch hvalid
      have hconf : confidenceOf (q ++ [r]) = confidenceOf q * r.2 := by simp [confidenceOf]
      rw [hconf, List.map_append, List.map_singleton] at hlater
      rw [causalStep, if_pos hvalid]
      show (recordPath assess action root r.1.object (q.map engine.edgeOf ++ [engine.edgeOf r])
        (confidenceOf q * r.2) log).bind _ = ((recordPath assess action root r.1.object
          (q.map engine.edgeOf ++ [engine.edgeOf r]) (confidenceOf q * r.2) log).bind _).map _
      cases recordPath assess action root r.1.object (q.map engine.edgeOf ++ [engine.edgeOf r])
          (confidenceOf q * r.2) log with
      | none => rfl
      | some log' =>
          show (search _ _ _ _).bind _ = Option.map _ _
          rw [hlater log', Option.bind_some]
          cases (later.map (q ++ [r] ++ ·)).foldlM (engine.visitPath assess action root) log' with
          | none => rfl
          | some log'' =>
              show some (SearchState.mk ((r.1.object :: visited).erase r.1.object) log'') = _
              rw [List.erase_cons_head]
              rfl
    · rw [causalStep, if_neg hvalid]
      rfl

/-- The search from a node that a valid walk leads to: it does with every extension of the walk what
`visitPath` does, and leaves the visited nodes as they were. -/
lemma dfsTraverse_eq (n : ℕ) (current : String) {q : List (Edge × ℚ)}
    (hq : ∀ r ∈ q, ValidStep r) (visited : List String) (log : PathLog) :
    engine.dfsTraverse assess action relations root n current (q.map engine.edgeOf)
        (confidenceOf q) ⟨visited, log⟩ =
      (((extensions (engine.adjacency relations) objectOf n current visited).map (q ++ ·)).foldlM
        (engine.visitPath assess action root) log).map (SearchState.mk visited) := by
  induction n generalizing current q visited log with
  | zero => rfl
  | succ n ih =>
      rw [dfsTraverse, extensions, List.map_flatMap]
      refine foldlM_flatMap (fun r hr log => ?_) log
      refine tryEdge_eq hq (not_pii_of_mem_adjacency hr) (fun hvalid log => ?_) log
      exact ih _ (List.forall_mem_append.mpr ⟨hq, List.forall_mem_singleton.mpr hvalid⟩) _ log

/-! ## What is kept of the walks -/

variable (engine) in
def signatureOf (p : List (Edge × ℚ)) : String := signature (p.map engine.edgeOf)

variable (engine assess action) in
def newPath (x : String × List (Edge × ℚ)) : CausalPath where
  sourceEntity := x.1
  simulatedAction := action
  steps := x.2.map engine.edgeOf
  affectedTarget := endOf x.2
  cumulativeConfidence := confidenceOf x.2
  riskLevel := assess (x.2.map engine.edgeOf) (endOf x.2) (confidenceOf x.2)

variable (engine assess action) in
/-- The path of a walk is appended if its signature is new. -/
def addPath (log : PathLog) (x : String × List (Edge × ℚ)) : PathLog :=
  if engine.signatureOf x.2 ∈ log.seen then log
  else ⟨log.seen ++ [engine.signatureOf x.2], log.paths ++ [engine.newPath assess action x]⟩

/-- What is kept of the walks of a list. -/
structure Kept (engine : RetroCausalEngine ρ) (assess : List CausalEdge → String → ℚ → String)
    (action : String) (walks : List (String × List (Edge × ℚ))) (log : PathLog) : Prop where
  seen_eq : log.seen = log.paths.map fun p => signature p.steps
  nodup : log.seen.Nodup
  sound : ∀ p ∈ log.paths, ∃ x ∈ walks, p = engine.newPath assess action x
  complete : ∀ x ∈ walks, engine.signatureOf x.2 ∈ log.seen

lemma Kept.addPath {walks : List (String × List (Edge × ℚ))} {log : PathLog}
    (h : Kept engine assess action walks log) (x : String × List (Edge × ℚ)) :
    Kept engine assess action (walks ++ [x]) (engine.addPath assess action log x) := by
  unfold RetroCausalEngine.addPath
  split_ifs with hseen
  · refine ⟨h.seen_eq, h.nodup, fun p hp => ?_, fun y hy => ?_⟩
    · obtain ⟨y, hy, heq⟩ := h.sound p hp
      exact ⟨y, List.mem_append_left _ hy, heq⟩
    · rcases List.mem_append.mp hy with hy | hy
      · exact h.complete y hy
      · rw [List.mem_singleton.mp hy]
        exact hseen
  · refine ⟨?_, ?_, fun p hp => ?_, fun y hy => ?_⟩
    · rw [List.map_append, ← h.seen_eq]
      rfl
    · exact List.nodup_append.mpr ⟨h.nodup, List.nodup_singleton _, fun s hs t ht hst =>
        hseen (List.mem_singleton.mp ht ▸ hst ▸ hs)⟩
    · rcases List.mem_append.mp hp with hp | hp
      · obtain ⟨y, hy, heq⟩ := h.sound p hp
        exact ⟨y, List.mem_append_left _ hy, heq⟩
      · exact ⟨x, List.mem_append_right _ (List.mem_singleton.mpr rfl), List.mem_singleton.mp hp⟩
    · rcases List.mem_append.mp hy with hy | hy
      · exact List.mem_append_left _ (h.complete y hy)
      · rw [List.mem_singleton.mp hy]
        exact List.mem_append_right _ (List.mem_singleton.mpr rfl)

lemma kept_foldl (walks : List (String × List (Edge × ℚ))) :
    Kept engine assess action walks (walks.foldl (engine.addPath assess action) ⟨[], []⟩) := by
  induction walks using List.reverseRecOn with
  | nil => exact ⟨rfl, List.nodup_nil, by nofun, by nofun⟩
  | append_singleton walks x ih =>
      rw [List.foldl_append]
      exact ih.addPath x

/-! ## The walks are valid -/

lemma confidenceOf_unit {p : List (Edge × ℚ)} (h : ∀ r ∈ p, ValidStep r) :
    0 ≤ confidenceOf p ∧ confidenceOf p ≤ 1 := by
  induction p with
  | nil => exact ⟨zero_le_one, le_refl 1⟩
  | cons r p ih =>
      obtain ⟨⟨-, -, -, hnonneg, hle⟩, hp⟩ := List.forall_mem_cons.mp h
      obtain ⟨ihnonneg, ihle⟩ := ih hp
      exact ⟨mul_nonneg hnonneg ihnonneg, mul_le_one₀ hle ihnonneg ihle⟩

lemma subject_of_mem_adjacency {u : String} {r : Edge × ℚ}
    (h : r ∈ engine.adjacency relations u) : r.1.subject = u :=
  decide_eq_true_iff.mp (Bool.and_eq_true_iff.mp (List.mem_filter.mp h).2).2

/-- The walk of a root and its edges. -/
def StartsAt (engine : RetroCausalEngine ρ) (relations : List (Edge × ℚ))
    (x : String × List (Edge × ℚ)) : Prop :=
  x.2 ≠ [] ∧ ∃ b, IsWalk (engine.adjacency relations) objectOf x.1 x.2 b

/-- A valid walk is turned into a path, unless the action has no name. -/
lemma causalPath_eq {x : String × List (Edge × ℚ)} (hwalk : engine.StartsAt relations x)
    (hvalid : ∀ r ∈ x.2, ValidStep r) :
    causalPath assess action x.1 (endOf x.2) (x.2.map engine.edgeOf) (confidenceOf x.2) =
      if action ≠ "" then some (engine.newPath assess action x) else none := by
  obtain ⟨hne, b, hb⟩ := hwalk
  have hroot : x.1 ≠ "" := by
    obtain ⟨r, q, hrq⟩ := List.exists_cons_of_ne_nil hne
    rw [hrq] at hb hvalid
    rw [← subject_of_mem_adjacency hb.1]
    exact (hvalid r List.mem_cons_self).1
  have hend : endOf x.2 ≠ "" := by
    obtain ⟨q, r, hqr⟩ := (List.eq_nil_or_concat x.2).resolve_left hne
    rw [List.concat_eq_append] at hqr
    have hlast : endOf x.2 = r.1.object := by simp [endOf, objectOf, hqr]
    rw [hlast]
    exact (hvalid r (by simp [hqr])).2.2.1
  obtain ⟨hnonneg, hle⟩ := confidenceOf_unit hvalid
  unfold causalPath
  by_cases haction : action ≠ ""
  · rw [if_pos ⟨hroot, haction, hend, hnonneg, hle⟩, if_pos haction]
    rfl
  · rw [if_neg fun h => haction h.2.1, if_neg haction]

lemma visitPath_eq {x : String × List (Edge × ℚ)} (hwalk : engine.StartsAt relations x)
    (hvalid : ∀ r ∈ x.2, ValidStep r) (log : PathLog) :
    engine.visitPath assess action x.1 log x.2 =
      if engine.signatureOf x.2 ∈ log.seen then some log
      else if action ≠ "" then some (engine.addPath assess action log x) else none := by
  rw [visitPath, if_pos hvalid, recordPath, causalPath_eq hwalk hvalid]
  by_cases hseen : engine.signatureOf x.2 ∈ log.seen
  · rw [if_pos hseen]
    exact if_pos hseen
  · rw [if_neg hseen, addPath, if_neg hseen]
    refine (if_neg hseen).trans ?_
    split_ifs <;> rfl

/-- A search that raises nothing has visited valid walks only. -/
lemma foldlM_visitPath {walks : List (String × List (Edge × ℚ))} {log log' : PathLog}
    (hwalks : ∀ x ∈ walks, engine.StartsAt relations x)
    (h : walks.foldlM (fun log x => engine.visitPath assess action x.1 log x.2) log = some log') :
    (∀ x ∈ walks, ∀ r ∈ x.2, ValidStep r) ∧
      log' = walks.foldl (engine.addPath assess action) log := by
  induction walks generalizing log with
  | nil => exact ⟨by nofun, (Option.some.inj h).symm⟩
  | cons x walks ih =>
      obtain ⟨hx, hwalks⟩ := List.forall_mem_cons.mp hwalks
      obtain ⟨log₁, hfirst, hrest⟩ := Option.bind_eq_some_iff.mp h
      have hlog₁ : engine.visitPath assess action x.1 log x.2 = some log₁ := hfirst
      have hvalid : ∀ r ∈ x.2, ValidStep r := by
        by_contra hinvalid
        rw [visitPath, if_neg hinvalid] at hlog₁
        cases hlog₁
      have hadd : log₁ = engine.addPath assess action log x := by
        rw [visitPath_eq hx hvalid] at hlog₁
        split_ifs at hlog₁ with hseen
        · rw [addPath, if_pos hseen]
          exact (Option.some.inj hlog₁).symm
        · exact (Option.some.inj hlog₁).symm
      obtain ⟨hall, heq⟩ := ih hwalks hrest
      refine ⟨List.forall_mem_cons.mpr ⟨hvalid, hall⟩, ?_⟩
      rw [heq, hadd, List.foldl_cons]

/-- A search of valid walks raises nothing, unless a path would have an action without a name. -/
lemma foldlM_visitPath_of_valid {walks : List (String × List (Edge × ℚ))}
    (hwalks : ∀ x ∈ walks, engine.StartsAt relations x)
    (hvalid : ∀ x ∈ walks, action ≠ "" ∧ ∀ r ∈ x.2, ValidStep r) (log : PathLog) :
    walks.foldlM (fun log x => engine.visitPath assess action x.1 log x.2) log =
      some (walks.foldl (engine.addPath assess action) log) := by
  induction walks generalizing log with
  | nil => rfl
  | cons x walks ih =>
      obtain ⟨hx, hwalks⟩ := List.forall_mem_cons.mp hwalks
      obtain ⟨⟨haction, hx'⟩, hvalid⟩ := List.forall_mem_cons.mp hvalid
      have hvisit : engine.visitPath assess action x.1 log x.2 =
          some (engine.addPath assess action log x) := by
        rw [visitPath_eq hx hx', if_pos haction, addPath]
        split_ifs <;> rfl
      rw [List.foldlM_cons, hvisit, List.foldl_cons]
      exact ih hwalks hvalid _

/-! ## The report -/

def startsOf (roots : List String) (entity : String) : List String :=
  if roots = [] then [entity] else roots

variable (engine relations) in
/-- A simple path of at least one relation and at most `depth` from one of the starts. -/
def SimplePath (starts : List String) (depth : ℤ) (p : List (Edge × ℚ)) : Prop :=
  p ≠ [] ∧ (p.length : ℤ) ≤ depth ∧ ∃ root ∈ starts, ∃ b,
    IsSimpleWalk (engine.adjacency relations) objectOf root p b

variable (engine relations) in
/-- The paths are the simple ones, each once, with the product of their confidences. -/
structure ReportsExactly (starts : List String) (depth : ℤ) (paths : List CausalPath) : Prop where
  once : (paths.map CausalPath.steps).Nodup
  mem_iff : ∀ steps, steps ∈ paths.map CausalPath.steps ↔
    ∃ p, engine.SimplePath relations starts depth p ∧ steps = p.map engine.edgeOf
  product : ∀ path ∈ paths, path.cumulativeConfidence = (path.steps.map CausalEdge.confidence).prod

variable (engine relations) in
/-- The walks that the search visits, with their roots. -/
def visits (starts : List String) (depth : ℤ) : List (String × List (Edge × ℚ)) :=
  starts.flatMap fun root => (engine.walksFrom relations depth.toNat root).map fun p => (root, p)

variable {starts : List String} {depth : ℤ}

lemma mem_visits {x : String × List (Edge × ℚ)} : x ∈ engine.visits relations starts depth ↔
    x.1 ∈ starts ∧ x.2 ≠ [] ∧ (x.2.length : ℤ) ≤ depth ∧
      ∃ b, IsSimpleWalk (engine.adjacency relations) objectOf x.1 x.2 b := by
  have hlen : x.2 ≠ [] → (x.2.length ≤ depth.toNat ↔ (x.2.length : ℤ) ≤ depth) := by
    intro hne
    have hpos := List.length_pos_iff.mpr hne
    omega
  simp only [visits, walksFrom, List.mem_flatMap, List.mem_map, mem_extensions_self]
  constructor
  · rintro ⟨root, hroot, p, ⟨hne, hle, hwalk⟩, rfl⟩
    exact ⟨hroot, hne, (hlen hne).mp hle, hwalk⟩
  · rintro ⟨hroot, hne, hle, hwalk⟩
    exact ⟨x.1, hroot, x.2, ⟨hne, (hlen hne).mpr hle, hwalk⟩, rfl⟩

lemma simplePath_iff {p : List (Edge × ℚ)} : engine.SimplePath relations starts depth p ↔
    ∃ root, (root, p) ∈ engine.visits relations starts depth := by
  simp only [mem_visits]
  constructor
  · rintro ⟨hne, hle, root, hroot, hwalk⟩
    exact ⟨root, hroot, hne, hle, hwalk⟩
  · rintro ⟨root, hroot, hne, hle, hwalk⟩
    exact ⟨hne, hle, root, hroot, hwalk⟩

lemma startsAt_of_mem_visits {x : String × List (Edge × ℚ)}
    (h : x ∈ engine.visits relations starts depth) : engine.StartsAt relations x := by
  obtain ⟨-, hne, -, b, hb⟩ := mem_visits.mp h
  exact ⟨hne, b, hb.1⟩

/-- The search over the roots visits the walks one after the other. -/
lemma foldlM_dfsTraverse (log : PathLog) :
    starts.foldlM (fun log root => (engine.dfsTraverse assess action relations root depth.toNat root
      [] 1 ⟨[root], log⟩).map SearchState.log) log =
    (engine.visits relations starts depth).foldlM
      (fun log x => engine.visitPath assess action x.1 log x.2) log := by
  have hroot : ∀ root ∈ starts, ∀ log : PathLog,
      (engine.dfsTraverse assess action relations root depth.toNat root [] 1
        ⟨[root], log⟩).map SearchState.log =
      (((engine.walksFrom relations depth.toNat root).map fun p => (root, p)).foldlM
        (fun log x => engine.visitPath assess action x.1 log x.2) log).map id := by
    intro root _ log
    have hdfs : engine.dfsTraverse assess action relations root depth.toNat root [] 1
        ⟨[root], log⟩ = _ :=
      dfsTraverse_eq depth.toNat root (List.forall_mem_nil ValidStep) [root] log
    have hmap : ∀ l : List (List (Edge × ℚ)), l.map ([] ++ ·) = l := fun l => by simp
    rw [hmap] at hdfs
    rw [hdfs, List.foldlM_map, Option.map_map, walksFrom]
    rfl
  have hfold := foldlM_flatMap (f := fun log root => (engine.dfsTraverse assess action relations
    root depth.toNat root [] 1 ⟨[root], log⟩).map SearchState.log) hroot log
  exact hfold.trans (congrFun Option.map_id _)

variable (engine relations) in
/-- No two of the simple paths have the same signature. -/
def Distinguished (starts : List String) (depth : ℤ) : Prop :=
  ∀ p q, engine.SimplePath relations starts depth p → engine.SimplePath relations starts depth q →
    engine.signatureOf p = engine.signatureOf q → p = q

lemma edgeOf_injective : Function.Injective engine.edgeOf := by
  intro r s h
  exact Prod.ext (congrArg CausalEdge.relation h) (congrArg CausalEdge.confidence h)

lemma Kept.reportsExactly {log : PathLog} {paths : List CausalPath}
    (h : Kept engine assess action (engine.visits relations starts depth) log)
    (hperm : paths.Perm log.paths) (hdist : engine.Distinguished relations starts depth) :
    engine.ReportsExactly relations starts depth paths := by
  refine ⟨(hperm.map _).nodup_iff.mpr ?_, fun steps => ?_, fun path hpath => ?_⟩
  · have hseen := h.nodup
    rw [h.seen_eq] at hseen
    refine List.Nodup.of_map signature ?_
    rw [List.map_map]
    exact hseen
  · rw [(hperm.map _).mem_iff, List.mem_map]
    constructor
    · rintro ⟨path, hpath, rfl⟩
      obtain ⟨x, hx, rfl⟩ := h.sound path hpath
      exact ⟨x.2, simplePath_iff.mpr ⟨x.1, hx⟩, rfl⟩
    · rintro ⟨p, hp, rfl⟩
      obtain ⟨root, hvisit⟩ := simplePath_iff.mp hp
      have hmem : engine.signatureOf p ∈ log.seen := h.complete _ hvisit
      rw [h.seen_eq] at hmem
      obtain ⟨path, hpath, hsig⟩ := List.mem_map.mp hmem
      obtain ⟨y, hy, rfl⟩ := h.sound path hpath
      have heq : y.2 = p := hdist y.2 p (simplePath_iff.mpr ⟨y.1, hy⟩) hp hsig
      exact ⟨_, hpath, congrArg (List.map engine.edgeOf) heq⟩
  · obtain ⟨x, -, rfl⟩ := h.sound path (hperm.mem_iff.mp hpath)
    show (x.2.map Prod.snd).prod = ((x.2.map engine.edgeOf).map CausalEdge.confidence).prod
    rw [List.map_map]
    rfl

lemma Kept.distinguished {log : PathLog} {paths : List CausalPath}
    (h : Kept engine assess action (engine.visits relations starts depth) log)
    (hperm : paths.Perm log.paths)
    (hexact : engine.ReportsExactly relations starts depth paths) :
    engine.Distinguished relations starts depth := by
  have hpath : ∀ p, engine.SimplePath relations starts depth p →
      ∃ path ∈ log.paths, path.steps = p.map engine.edgeOf := by
    intro p hp
    obtain ⟨path, hmem, hsteps⟩ := List.mem_map.mp ((hexact.mem_iff _).mpr ⟨p, hp, rfl⟩)
    exact ⟨path, hperm.mem_iff.mp hmem, hsteps⟩
  intro p q hp hq hsig
  obtain ⟨path, hmem, hsteps⟩ := hpath p hp
  obtain ⟨path', hmem', hsteps'⟩ := hpath q hq
  have hseen := h.nodup
  rw [h.seen_eq] at hseen
  have heq : path = path' := by
    refine List.inj_on_of_nodup_map hseen hmem hmem' ?_
    rw [hsteps, hsteps']
    exact hsig
  subst heq
  exact List.map_injective_iff.mpr edgeOf_injective (hsteps.symm.trans hsteps')

/-- The analysis: the critical points, the visits, and the sort. -/
lemma causalWhatIf_eq (risk : RiskAssessment) (hrel : relations ≠ []) (wide : List (Edge × ℚ))
    (roots : List String) (entity action : String) (depth : ℤ) :
    engine.causalWhatIf risk relations wide roots entity action depth =
      (detectCpof wide entity).bind fun cpof =>
        ((engine.visits relations (startsOf roots entity) depth).foldlM
          (fun log x => engine.visitPath (risk action cpof) action x.1 log x.2) ⟨[], []⟩).map
            fun log => StableSort.sortBy pathRank log.paths := by
  rw [causalWhatIf, if_neg hrel]
  refine congrArg (Option.bind (detectCpof wide entity)) (funext fun cpof => ?_)
  rw [← foldlM_dfsTraverse, Option.map_eq_bind]
  rfl

lemma not_simplePath_nil (p : List (Edge × ℚ)) : ¬engine.SimplePath [] starts depth p := by
  rintro ⟨hne, -, root, -, b, hwalk, -⟩
  obtain ⟨r, q, rfl⟩ := List.exists_cons_of_ne_nil hne
  exact List.not_mem_nil hwalk.1

/-- What an exact report tells about the walks and the constructors. -/
lemma conditions_of_exact {risk : RiskAssessment} {wide : List (Edge × ℚ)} {roots : List String}
    {entity action : String} (hrel : relations ≠ [])
    (h : ∃ paths, engine.causalWhatIf risk relations wide roots entity action depth = some paths ∧
      engine.ReportsExactly relations (startsOf roots entity) depth paths) :
    engine.Distinguished relations (startsOf roots entity) depth ∧ (detectCpof wide entity).isSome ∧
      ∀ p, engine.SimplePath relations (startsOf roots entity) depth p →
        action ≠ "" ∧ ∀ r ∈ p, ValidStep r := by
  obtain ⟨paths, hpaths, hexact⟩ := h
  rw [causalWhatIf_eq risk hrel] at hpaths
  obtain ⟨cpof, hcpof, hlog⟩ := Option.bind_eq_some_iff.mp hpaths
  obtain ⟨log, hfold, rfl⟩ := Option.map_eq_some_iff.mp hlog
  have hvisits : ∀ x ∈ engine.visits relations (startsOf roots entity) depth,
      engine.StartsAt relations x := fun x hx => startsAt_of_mem_visits hx
  obtain ⟨hvalid, rfl⟩ := foldlM_visitPath hvisits hfold
  have hdist := (kept_foldl _).distinguished (StableSort.perm_sortBy pathRank _) hexact
  refine ⟨hdist, by rw [hcpof]; rfl, fun p hp => ?_⟩
  obtain ⟨root, hvisit⟩ := simplePath_iff.mp hp
  refine ⟨fun haction => ?_, hvalid _ hvisit⟩
  -- the path of the first visit would have had no action
  obtain ⟨x, rest, hlist⟩ := List.exists_cons_of_ne_nil (List.ne_nil_of_mem hvisit)
  have hx : x ∈ engine.visits relations (startsOf roots entity) depth :=
    hlist ▸ List.mem_cons_self
  rw [hlist, List.foldlM_cons, visitPath_eq (hvisits x hx) (hvalid x hx),
    if_neg List.not_mem_nil, if_neg (not_not.mpr haction)] at hfold
  cases hfold

/-- **The report has every simple path exactly once if and only if no two of them have the same
signature and nothing is refused**: no critical point, no step of a path, and no path for an action
without a name. -/
theorem causalWhatIf_exact_iff (engine : RetroCausalEngine ρ) (risk : RiskAssessment)
    (relations wide : List (Edge × ℚ)) (roots : List String) (entity action : String) (depth : ℤ) :
    (∃ paths, engine.causalWhatIf risk relations wide roots entity action depth = some paths ∧
        engine.ReportsExactly relations (startsOf roots entity) depth paths) ↔
      engine.Distinguished relations (startsOf roots entity) depth ∧
        (relations ≠ [] → (detectCpof wide entity).isSome ∧
          ∀ p, engine.SimplePath relations (startsOf roots entity) depth p →
            action ≠ "" ∧ ∀ r ∈ p, ValidStep r) := by
  by_cases hrel : relations = []
  · -- there are no paths, and the analysis stops before it looks for any
    subst hrel
    refine iff_of_true ⟨[], rfl, List.nodup_nil, fun steps => ?_, by nofun⟩
      ⟨fun p q hp => absurd hp (not_simplePath_nil p), fun h => absurd rfl h⟩
    exact iff_of_false List.not_mem_nil fun ⟨p, hp, _⟩ => not_simplePath_nil p hp
  · constructor
    · intro h
      obtain ⟨hdist, hvalid⟩ := conditions_of_exact hrel h
      exact ⟨hdist, fun _ => hvalid⟩
    · rintro ⟨hdist, hvalid⟩
      obtain ⟨hcpof, hvalid⟩ := hvalid hrel
      obtain ⟨cpof, hcpof⟩ := Option.isSome_iff_exists.mp hcpof
      have hkept : Kept engine (risk action cpof) action
          (engine.visits relations (startsOf roots entity) depth) _ := kept_foldl _
      refine ⟨_, ?_, hkept.reportsExactly (StableSort.perm_sortBy pathRank _) hdist⟩
      rw [causalWhatIf_eq risk hrel, hcpof, Option.bind_some, foldlM_visitPath_of_valid
        (fun x hx => startsAt_of_mem_visits hx) fun x hx =>
          hvalid x.2 (simplePath_iff.mpr ⟨x.1, hx⟩)]
      rfl

/-- A node whose name contains the text between two steps. -/
def joinedRelations : List (Edge × ℚ) :=
  [(⟨"hub", "hosts", "nas"⟩, 1), (⟨"nas", "mounts", "volume"⟩, 1),
    (⟨"hub", "hosts", "nas->nas-[mounts]->volume"⟩, 1)]

/-- The step to this node has the signature of the path of two steps, and is lost. -/
theorem joined_signature_lost :
    (joinedRelations.map Prod.fst).Nodup ∧ (∀ r ∈ joinedRelations, ValidStep r) ∧
      ¬∃ paths, (constantEngine 1 (by norm_num)).causalWhatIf (fun _ _ _ _ _ => "LOW")
          joinedRelations joinedRelations ["hub"] "hub" "restart" 2 = some paths ∧
        (constantEngine 1 (by norm_num)).ReportsExactly joinedRelations ["hub"] 2 paths := by
  refine ⟨by decide, by decide, fun h => ?_⟩
  have hdist := (conditions_of_exact (by decide) h).1
  have hlong : (constantEngine 1 (by norm_num)).SimplePath joinedRelations ["hub"] 2
      [(⟨"hub", "hosts", "nas"⟩, 1), (⟨"nas", "mounts", "volume"⟩, 1)] :=
    ⟨by simp, by decide, "hub", by simp, "volume", ⟨by decide, by decide, rfl⟩, by decide⟩
  have hshort : (constantEngine 1 (by norm_num)).SimplePath joinedRelations ["hub"] 2
      [(⟨"hub", "hosts", "nas->nas-[mounts]->volume"⟩, 1)] :=
    ⟨by simp, by decide, "hub", by simp, _, ⟨by decide, rfl⟩, by decide⟩
  have heq := hdist _ _ hlong hshort (by decide)
  exact absurd (congrArg List.length heq) (by decide)

end RetroCausalEngine

end AtlasMemory
