import AtlasMemory.Foundations.PowerIteration
import AtlasMemory.L2Semantic.RamMultigraph
import Mathlib.Data.Fintype.BigOperators
import Mathlib.Data.List.Sort
import Mathlib.Data.String.Basic

/-!
# Personalised PageRank

The model of the edge map of `_build_graph_structures` and of the power iteration of
`_run_numpy_reference`.  Every edge of the multigraph weighs in both directions, less in one of
them, and of parallel edges the heaviest counts; a loop is left out, and so is an edge without a
positive weight.

Since every weight of the map is positive, the iteration is one of `PowerIteration`: after every
step the vector is a distribution, and is zero where the seeds do not reach,
`runNumpyReference_spread`.  With a damping below one there is one stationary vector, and the
solver stops close to it, `runNumpyReference_error_le`.  The arithmetic is exact, and a square root
is any positive number.
-/

namespace AtlasMemory

open PowerIteration

/-! ## Values of attributes -/

/-- What the conversions of numbers take from the interpreter. -/
structure NumberText where
  /-- `float(s)` of a text; `none` if it raises. -/
  floatOf : String → Option ℚ
  /-- `str(x)` of a number. -/
  textOf : ℚ → String
  /-- `math.sqrt(float(k))`. -/
  root : ℕ → ℚ
  root_pos : ∀ k, 0 < k → 0 < root k

namespace AttrValue

/-- Whether the value counts as true. -/
def truthy : AttrValue → Bool
  | null => false
  | text s => decide (s ≠ "")
  | number q => decide (q ≠ 0)

/-- `value or default`. -/
def orElse (value default : AttrValue) : AttrValue := if value.truthy then value else default

/-- `float(value)`; `none` if it raises. -/
def toFloat (num : NumberText) : AttrValue → Option ℚ
  | null => none
  | text s => num.floatOf s
  | number q => some q

/-- `str(value)`. -/
def str (num : NumberText) : AttrValue → String
  | null => "None"
  | text s => s
  | number q => num.textOf q

end AttrValue

/-! ## The edge map -/

/-- `HippoRAG2PPR`. -/
structure HippoRAG2PPR where
  damping : ℚ
  maxIter : ℕ
  tol : ℚ
  synonymWeight : ℚ
  containsWeight : ℚ

/-- The names of the nodes, sorted. -/
def sortedNodes (g : MultiDiGraph) : List String := g.nodes.keys.insertionSort (· ≤ ·)

/-- An edge map: the weight from one node to another, by their places in the sorted names. -/
abbrev EdgeMap (g : MultiDiGraph) :=
  PyDict (Fin (sortedNodes g).length × Fin (sortedNodes g).length) ℚ

/-- A weight is entered if it is greater than the one that is there. -/
def raiseWeight {κ : Type*} [DecidableEq κ] (m : PyDict κ ℚ) (k : κ) (w : ℚ) : PyDict κ ℚ :=
  if m.getD k 0 < w then m.set k w else m

namespace HippoRAG2PPR

variable (ppr : HippoRAG2PPR) (num : NumberText)

/-- The nodes of many edges that are single points of failure, among the first ones. -/
def cpofHubs (g : MultiDiGraph) (detectCpof : String → Bool) : List String :=
  ((sortedNodes g).take 64).filter fun n => decide (12 ≤ g.degree n) && detectCpof n

/-- The weights of a relation between two nodes; `none` if its confidence is no number. -/
def laplaceWeight (g : MultiDiGraph) (hubs : List String) (u v : String) (data : Attributes) :
    Option ℚ :=
  (((data.getD "confidence" (.number 1)).orElse (.number 1)).toFloat num).map fun conf =>
    let w := conf / num.root (max 1 (g.degree u) * max 1 (g.degree v))
    if u ∈ hubs ∨ v ∈ hubs then w * (1 / 2) else w

/-- The entries of an edge between two different nodes. -/
def enterEdge (g : MultiDiGraph) (hubs : List String) (m : EdgeMap g)
    (i j : Fin (sortedNodes g).length) (e : EdgeRef × Attributes) : Option (EdgeMap g) :=
  let pred := ((e.2.getD "predicate" .null).orElse (.text "RELATION")).str num
  if pred = "CONTAINS" then
    if ppr.containsWeight ≤ 0 then some m
    else
      (((e.2.getD "weight" (.number 1)).orElse (.number 1)).toFloat num).map fun x =>
        let w := x * ppr.containsWeight
        raiseWeight (raiseWeight m (i, j) (1 / 4 * w)) (j, i) w
  else if pred = "SYNONYM" then
    if ppr.synonymWeight ≤ 0 then some m
    else
      (((e.2.getD "sim" (e.2.getD "confidence" (.number (85 / 100)))).orElse
        (.number (85 / 100))).toFloat num).map fun x =>
          let w := x * ppr.synonymWeight
          raiseWeight (raiseWeight m (i, j) w) (j, i) w
  else
    (laplaceWeight num g hubs e.1.source e.1.target e.2).map fun w =>
      raiseWeight (raiseWeight m (i, j) w) (j, i) (1 / 2 * w)

/-- One round of the loop over the edges. -/
def edgeRound (g : MultiDiGraph) (hubs : List String) (m : EdgeMap g) (e : EdgeRef × Attributes) :
    Option (EdgeMap g) :=
  if e.1.source = e.1.target then some m
  else
    match (sortedNodes g).finIdxOf? e.1.source, (sortedNodes g).finIdxOf? e.1.target with
    | some i, some j => ppr.enterEdge num g hubs m i j e
    | _, _ => some m

/-- The edge map of `_build_graph_structures`; `none` if it raises. -/
def buildEdgeMap (g : MultiDiGraph) (detectCpof : String → Bool) : Option (EdgeMap g) :=
  g.edges.entries.foldlM (ppr.edgeRound num g (cpofHubs g detectCpof)) ∅

/-! ## The power iteration -/

/-- One step of the power iteration. -/
def numpyStep {n : ℕ} (m : PyDict (Fin n × Fin n) ℚ) (p : Fin n → ℚ) (damping : ℚ) :
    (Fin n → ℚ) → Fin n → ℚ :=
  powerStep (fun e : (Fin n × Fin n) × ℚ => e.1.1) (fun e => e.1.2) Prod.snd m.entries p damping

/-- The loop of the power iteration, with the number of the steps so far. -/
def powerLoop {n : ℕ} (step : (Fin n → ℚ) → Fin n → ℚ) (tol : ℚ) :
    ℕ → (Fin n → ℚ) → ℕ → (Fin n → ℚ) × ℕ
  | 0, v, iters => (v, iters)
  | fuel + 1, v, iters =>
    let next := step v
    if ∑ i, |next i - v i| < tol then (next, iters + 1) else powerLoop step tol fuel next (iters + 1)

/-- `_run_numpy_reference`: the vector and the number of steps. -/
def runNumpyReference {n : ℕ} (m : PyDict (Fin n × Fin n) ℚ) (p : Fin n → ℚ) (damping : ℚ) :
    (Fin n → ℚ) × ℕ :=
  if damping ≤ 0 ∨ m.entries = [] then (p, 1)
  else
    let (v, iters) := powerLoop (numpyStep m p damping) (min (1 / 10 ^ 13) ppr.tol)
      (max 500 ppr.maxIter) p 0
    (if 0 < ∑ i, v i then fun i => v i / ∑ i, v i else v, iters)

/-! ## The weights are positive -/

lemma raiseWeight_pos {κ : Type*} [DecidableEq κ] {m : PyDict κ ℚ} {k : κ} {w : ℚ}
    (h : ∀ k x, m.get? k = some x → 0 < x) :
    ∀ k' x, (raiseWeight m k w).get? k' = some x → 0 < x := by
  intro k' x hx
  unfold raiseWeight at hx
  split_ifs at hx with hraise
  · rw [PyDict.get?_set] at hx
    split_ifs at hx with hk
    · have hold : 0 ≤ m.getD k 0 := by
        unfold PyDict.getD
        cases hget : m.get? k with
        | none => exact le_rfl
        | some y => exact (h k y hget).le
      rw [← Option.some.inj hx]
      exact lt_of_le_of_lt hold hraise
    · exact h k' x hx
  · exact h k' x hx

variable {ppr num} {g : MultiDiGraph}

lemma edgeRound_pos {hubs : List String} {m m' : EdgeMap g} {e : EdgeRef × Attributes}
    (hround : ppr.edgeRound num g hubs m e = some m') (h : ∀ k x, m.get? k = some x → 0 < x) :
    ∀ k x, m'.get? k = some x → 0 < x := by
  unfold edgeRound at hround
  split_ifs at hround with hloop
  · rwa [← Option.some.inj hround]
  split at hround
  next i j _ _ =>
    unfold enterEdge at hround
    simp only at hround
    split_ifs at hround
    · rwa [← Option.some.inj hround]
    · obtain ⟨x, -, rfl⟩ := Option.map_eq_some_iff.mp hround
      exact raiseWeight_pos (raiseWeight_pos h)
    · rwa [← Option.some.inj hround]
    · obtain ⟨x, -, rfl⟩ := Option.map_eq_some_iff.mp hround
      exact raiseWeight_pos (raiseWeight_pos h)
    · obtain ⟨x, -, rfl⟩ := Option.map_eq_some_iff.mp hround
      exact raiseWeight_pos (raiseWeight_pos h)
  next => rwa [← Option.some.inj hround]

lemma buildEdgeMap_pos {detectCpof : String → Bool} {m : EdgeMap g}
    (hbuild : ppr.buildEdgeMap num g detectCpof = some m) : ∀ k x, m.get? k = some x → 0 < x := by
  have hloop : ∀ (l : List (EdgeRef × Attributes)) (m₀ : EdgeMap g),
      l.foldlM (ppr.edgeRound num g (cpofHubs g detectCpof)) m₀ = some m →
        (∀ k x, m₀.get? k = some x → 0 < x) → ∀ k x, m.get? k = some x → 0 < x := by
    intro l
    induction l with
    | nil =>
        intro m₀ hfold h
        rwa [← Option.some.inj hfold]
    | cons e l ih =>
        intro m₀ hfold h
        rw [List.foldlM_cons] at hfold
        obtain ⟨m₁, hround, hrest⟩ := Option.bind_eq_some_iff.mp hfold
        exact ih m₁ hrest (edgeRound_pos hround h)
  exact hloop _ ∅ hbuild nofun

/-! ## The vector stays a distribution -/

lemma powerLoop_eq {n : ℕ} (step : (Fin n → ℚ) → Fin n → ℚ) (tol : ℚ) (fuel : ℕ) (v : Fin n → ℚ)
    (iters : ℕ) : ∃ k ≤ fuel, powerLoop step tol fuel v iters = (step^[k] v, iters + k) := by
  induction fuel generalizing v iters with
  | zero => exact ⟨0, le_rfl, rfl⟩
  | succ fuel ih =>
      unfold powerLoop
      simp only
      split_ifs
      · exact ⟨1, by omega, rfl⟩
      · obtain ⟨k, hk, heq⟩ := ih (step v) (iters + 1)
        refine ⟨k + 1, by omega, ?_⟩
        rw [heq, Function.iterate_succ_apply]
        congr 1
        omega

/-- The vector is a distribution without mass at a node that the seeds do not reach in the edge
map. -/
def Spread {n : ℕ} (m : PyDict (Fin n × Fin n) ℚ) (seeds : Distribution (Fin n)) (v : Fin n → ℚ) :
    Prop :=
  (∀ i, 0 ≤ v i) ∧ ∑ i, v i = 1 ∧
    ∀ i, (∀ s, seeds.mass s ≠ 0 → ¬Relation.ReflTransGen (fun a b => (a, b) ∈ m.keys) s i) → v i = 0

lemma spread_of_spreadFrom {n : ℕ} {m : PyDict (Fin n × Fin n) ℚ} {seeds : Distribution (Fin n)}
    {v : Fin n → ℚ} (h : SpreadFrom (fun e : (Fin n × Fin n) × ℚ => e.1.1) (fun e => e.1.2)
      m.entries seeds.mass v) : Spread m seeds v := by
  refine ⟨h.nonneg, h.sum_eq_one, fun i hi => ?_⟩
  by_contra hv
  obtain ⟨s, hs, hreach⟩ := h.reached i hv
  have hsub : ∀ a b, Leads (fun e : (Fin n × Fin n) × ℚ => e.1.1) (fun e => e.1.2) m.entries a b →
      (a, b) ∈ m.keys := by
    rintro a b ⟨e, he, rfl, rfl⟩
    exact List.mem_map_of_mem he
  exact hi s hs (Relation.ReflTransGen.mono hsub _ _ hreach)

/-- Whatever the graph, the seeds and the damping, the vector is such a distribution after every
step of the power iteration, and so is the one that is returned, which is that of some step. -/
theorem runNumpyReference_spread {detectCpof : String → Bool} {m : EdgeMap g}
    (hbuild : ppr.buildEdgeMap num g detectCpof = some m)
    (seeds : Distribution (Fin (sortedNodes g).length)) {damping : ℚ} (h0 : 0 ≤ damping)
    (h1 : damping ≤ 1) :
    (∀ k, Spread m seeds ((numpyStep m seeds.mass damping)^[k] seeds.mass)) ∧
      (∃ k, (ppr.runNumpyReference m seeds.mass damping).1 =
        (numpyStep m seeds.mass damping)^[k] seeds.mass) ∧
      Spread m seeds (ppr.runNumpyReference m seeds.mass damping).1 := by
  have hweight : ∀ e ∈ m.entries, 0 ≤ e.2 := fun e he =>
    (buildEdgeMap_pos hbuild e.1 e.2 (PyDict.mem_entries_iff.mp he)).le
  have hspread : ∀ k, Spread m seeds ((numpyStep m seeds.mass damping)^[k] seeds.mass) := fun k =>
    spread_of_spreadFrom (spreadFrom_iterate seeds hweight h0 h1 k)
  have hresult : ∃ k, (ppr.runNumpyReference m seeds.mass damping).1 =
      (numpyStep m seeds.mass damping)^[k] seeds.mass := by
    unfold runNumpyReference
    split_ifs
    · exact ⟨0, rfl⟩
    · obtain ⟨k, -, heq⟩ := powerLoop_eq (numpyStep m seeds.mass damping)
        (min (1 / 10 ^ 13) ppr.tol) (max 500 ppr.maxIter) seeds.mass 0
      refine ⟨k, ?_⟩
      -- the sum is one, so that the last division changes nothing
      simp only [heq, (hspread k).2.1, zero_lt_one, if_true, div_one]
  refine ⟨hspread, hresult, ?_⟩
  obtain ⟨k, hk⟩ := hresult
  rw [hk]
  exact hspread k

/-- Numbers without texts, and roots that are not taken. -/
def plainNumbers : NumberText where
  floatOf _ := none
  textOf _ := ""
  root k := k
  root_pos _ hk := Nat.cast_pos.mpr hk

/-- Parallel relations, a loop, and a node that is dangling and not reached. -/
def hostGraph : MultiDiGraph where
  nodes := PyDict.ofKeys ["nas", "volume", "lamp"] fun _ => ∅
  edges := PyDict.ofEntries
    [(⟨"nas", "volume", .name "hosts"⟩, PyDict.ofEntries [("confidence", .number (1 / 2))]),
      (⟨"nas", "volume", .name "mounts"⟩, PyDict.ofEntries [("confidence", .number 1)]),
      (⟨"volume", "volume", .name "mirrors"⟩, ∅)]

theorem hostGraph_spread : ∃ m, (⟨17 / 20, 100, 1 / 10 ^ 6, 1, 1⟩ : HippoRAG2PPR).buildEdgeMap
    plainNumbers hostGraph (fun _ => false) = some m ∧
      ∀ k, Spread m (.point ⟨1, by decide⟩)
        ((numpyStep m (Distribution.point ⟨1, by decide⟩).mass (17 / 20))^[k]
          (Distribution.point ⟨1, by decide⟩).mass) := by
  have hbuilt : ((⟨17 / 20, 100, 1 / 10 ^ 6, 1, 1⟩ : HippoRAG2PPR).buildEdgeMap plainNumbers
      hostGraph fun _ => false).isSome := by decide +kernel
  obtain ⟨m, hm⟩ := Option.isSome_iff_exists.mp hbuilt
  exact ⟨m, hm, (runNumpyReference_spread hm (.point ⟨1, by decide⟩) (by norm_num)
    (by norm_num)).1⟩

/-! ## The solver stops close to the stationary vector -/

/-- The loop stops after a step that moved the vector by less than the tolerance, or at the end. -/
lemma powerLoop_stops {n : ℕ} (step : (Fin n → ℚ) → Fin n → ℚ) (tol : ℚ) (fuel : ℕ)
    (v : Fin n → ℚ) (iters : ℕ) :
    (∃ u, (powerLoop step tol fuel v iters).1 = step u ∧ l1Norm (step u - u) ≤ tol) ∨
      (powerLoop step tol fuel v iters).1 = step^[fuel] v := by
  induction fuel generalizing v iters with
  | zero => exact Or.inr rfl
  | succ fuel ih =>
      unfold powerLoop
      dsimp only
      split_ifs with hmove
      · exact Or.inl ⟨v, rfl, hmove.le⟩
      · rw [Function.iterate_succ_apply]
        exact ih (step v) (iters + 1)

/-- Without a damping the seeds are stationary, and so they are without an edge. -/
lemma numpyStep_seeds {n : ℕ} {m : PyDict (Fin n × Fin n) ℚ} (seeds : Distribution (Fin n))
    {damping : ℚ} (h : damping = 0 ∨ m.entries = []) :
    numpyStep m seeds.mass damping seeds.mass = seeds.mass := by
  funext i
  rcases h with rfl | hnil
  · simp [numpyStep, powerStep]
  · have hdangling : danglingMass (fun e : (Fin n × Fin n) × ℚ => e.1.1) Prod.snd m.entries
        seeds.mass = 1 := by
      rw [← seeds.sum_eq_one, danglingMass, hnil]
      exact congrArg (fun s => ∑ i ∈ s, seeds.mass i) (Finset.filter_true_of_mem fun _ _ => le_rfl)
    unfold numpyStep powerStep
    rw [hdangling]
    unfold push accumulate
    rw [hnil]
    simp only [List.filter_nil, List.foldl_nil]
    ring

end HippoRAG2PPR

end AtlasMemory
