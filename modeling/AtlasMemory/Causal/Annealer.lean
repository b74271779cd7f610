import AtlasMemory.Causal.EnergyModule

/-!
# The two annealing kernels

The model of `annealer.py`: the reference path, which keeps the working edges and an index of them
by their sources, and the incremental path, which keeps arrays of weights, degrees and sums by the
ids of the nodes.  The loops of the two are the same code over different states.

An edge of the reference path is an object: the index holds the same objects as the list.  The place
of an edge in the list stands for the identity of its object, and a copy that replaces the object
takes its place in both.
-/

namespace AtlasMemory
namespace Annealing

variable {K : Type} [Field K] [LinearOrder K]

/-- `AnnealingResult`. -/
structure AnnealingResult (K : Type) [Field K] [LinearOrder K] where
  finalEdges : List (CausalEdge K)
  energyTrace : List K
  iterations : ℕ
  converged : Bool
  finalTemperature : K

attribute [local instance] atLeastTwo_ten in
/-- `ENERGY_CONVERGENCE_EPS`. -/
def energyConvergenceEps : K := 1 / 10 ^ 6

/-- The result of a run; `none` where the final temperature is not valid. -/
def AnnealingResult.ofOutcome [FloorRing K] {S : Type} (finalEdges : S → List (CausalEdge K))
    (o : AnnealingOutcome K S) : Option (AnnealingResult K) :=
  let finalTemperature := round6 o.temperature
  if 0 ≤ finalTemperature ∧ finalTemperature ≤ 1 then
    some ⟨finalEdges o.state, o.trace, o.iterations, o.converged, finalTemperature⟩
  else none

/-- The precision of the channel that an edge came from; `none` where there is no tensor. -/
def channelPrecision (precisionTensor : Option (String → K)) (e : CausalEdge K) : K :=
  match precisionTensor with
  | some getPrecision => max (1 / 20) (getPrecision (e.sourceType.getD "agent_inference"))
  | none => 1

/-- `edge.model_copy(update={"confidence": w})`. -/
def CausalEdge.withConfidence (e : CausalEdge K) (w : UnitWeight K) : CausalEdge K :=
  { e with confidence := w }

variable (m : EnergyModule K) (precisionTensor : Option (String → K)) (lambdaReg : K)

/-! ## The reference path -/

section Reference

variable {n : ℕ}

/-- `working` and `edge_index`. -/
structure ReferenceState (K : Type) [Field K] [LinearOrder K] (n : ℕ) where
  working : Fin n → CausalEdge K
  edgeIndex : PyDict String (List (Fin n × CausalEdge K))

def buildIndex (edges : List (Fin n × CausalEdge K)) :
    PyDict String (List (Fin n × CausalEdge K)) :=
  edges.foldl (fun d e => d.set e.2.source (d.getD e.2.source [] ++ [e])) ∅

/-- The copies the reference path starts from. -/
def referenceStart (graph : List (CausalEdge K)) : ReferenceState K graph.length where
  working := graph.get
  edgeIndex := buildIndex ((List.finRange graph.length).map fun i => (i, graph.get i))

/-- The object at a place gives way to a copy. -/
def replaceEdge (i : Fin n) (candEdge : CausalEdge K) :
    List (Fin n × CausalEdge K) → List (Fin n × CausalEdge K)
  | [] => []
  | e :: es => if e.1 = i then (i, candEdge) :: es else e :: replaceEdge i candEdge es

/-- The accepted copy replaces the edge in the list and in the index. -/
def ReferenceState.store (s : ReferenceState K n) (i : Fin n) (w : UnitWeight K) :
    ReferenceState K n :=
  let candEdge := (s.working i).withConfidence w
  { working := Function.update s.working i candEdge
    edgeIndex := match s.edgeIndex.get? candEdge.source with
      | some sourceList => s.edgeIndex.set candEdge.source (replaceEdge i candEdge sourceList)
      | none => s.edgeIndex }

variable [IsStrictOrderedRing K] [FloorRing K]

/-- `_run_reference_scalar`: what its loop does with its state. -/
def referenceKernel : AnnealingKernel K n (ReferenceState K n) where
  weight s i := (s.working i).confidence
  precision s i := channelPrecision precisionTensor (s.working i)
  energyAndGrad s i w :=
    m.computeEdgeEnergyAndGradient ((s.working i).withConfidence w) s.edgeIndex lambdaReg
  store s i w := s.store i w

/-- `_run_reference_scalar`. -/
def runReferenceScalar {σ : Type} (math : ExactMath K) (rng : Rng K σ) (seed : σ)
    (schedule : AnnealingSchedule K) (maxIter : ℕ) (graph : List (CausalEdge K)) :
    Option (AnnealingResult K) :=
  AnnealingResult.ofOutcome (fun s => List.ofFn s.working)
    ((referenceKernel m precisionTensor lambdaReg).anneal math rng energyConvergenceEps schedule
      maxIter (referenceStart graph) seed)

end Reference

/-! ## The incremental path -/

section Incremental

/-- `w_arr`, `total_conf_sum` and `crit_conf_sum`. -/
structure IncrementalState (K : Type) [Field K] [LinearOrder K] (n : ℕ) where
  wArr : Fin n → UnitWeight K
  totalConfSum : ℕ → K
  critConfSum : ℕ → K

def addName (names : List String) (name : String) : List String :=
  if name ∈ names then names else names ++ [name]

/-- The keys of `node_to_id`, in the order of their ids. -/
def nodeNames (graph : List (CausalEdge K)) : List String :=
  graph.foldl (fun names e => addName (addName names e.source) e.target) []

/-- `node_to_id`. -/
def nodeToId (graph : List (CausalEdge K)) (name : String) : ℕ := (nodeNames graph).idxOf name

/-- `np.add.at`. -/
def addAt (a : ℕ → K) (updates : List (ℕ × K)) : ℕ → K :=
  updates.foldl (fun a p => Function.update a p.1 (a p.1 + p.2)) a

variable (graph : List (CausalEdge K))

/-- `out_degree`. -/
def outDegree : ℕ → K := addAt (fun _ => 0) (graph.map fun e => (nodeToId graph e.source, 1))

/-- `is_crit`. -/
def isCrit (e : CausalEdge K) : K := if m.isCritical e then 1 else 0

variable {graph} in
/-- An accepted weight moves the sums of its source. -/
def IncrementalState.store (s : IncrementalState K graph.length) (i : Fin graph.length)
    (w : UnitWeight K) : IncrementalState K graph.length :=
  let sId := nodeToId graph (graph.get i).source
  let deltaW : K := w - s.wArr i
  { wArr := Function.update s.wArr i w
    totalConfSum := Function.update s.totalConfSum sId (s.totalConfSum sId + deltaW)
    critConfSum := if 0 < isCrit m (graph.get i) then
        Function.update s.critConfSum sId (s.critConfSum sId + deltaW)
      else s.critConfSum }

variable [IsStrictOrderedRing K]

/-- The arrays the incremental path starts from. -/
def incrementalStart : IncrementalState K graph.length where
  wArr i := clampUnit ((graph.get i).confidence : K)
  totalConfSum := addAt (fun _ => 0)
    (graph.map fun e => (nodeToId graph e.source, (clampUnit (e.confidence : K) : K)))
  critConfSum := addAt (fun _ => 0)
    (graph.map fun e =>
      (nodeToId graph e.source, (clampUnit (e.confidence : K) : K) * isCrit m e))

variable [FloorRing K]

/-- `_critic_for_node`. -/
def criticForNode {n : ℕ} (s : IncrementalState K n) (nid : ℕ) : K :=
  risk (outDegree graph nid) (nodeNames graph).length (s.totalConfSum nid) (s.critConfSum nid)

/-- `_edge_energy_and_grad`. -/
def edgeEnergyAndGrad (s : IncrementalState K graph.length) (i : Fin graph.length)
    (w : UnitWeight K) : K × K :=
  energyAndGrad lambdaReg (m.intrinsicCost (graph.get i).source (graph.get i).predicate)
    (criticForNode graph s (nodeToId graph (graph.get i).target)) w

/-- `_run_vectorized_numpy`: what its loop does with its arrays. -/
def incrementalKernel : AnnealingKernel K graph.length (IncrementalState K graph.length) where
  weight s i := s.wArr i
  precision _ i := channelPrecision precisionTensor (graph.get i)
  energyAndGrad s i w := edgeEnergyAndGrad m lambdaReg graph s i w
  store s i w := s.store m i w

/-- `_run_vectorized_numpy`. -/
def runVectorizedNumpy {σ : Type} (math : ExactMath K) (rng : Rng K σ) (seed : σ)
    (schedule : AnnealingSchedule K) (maxIter : ℕ) : Option (AnnealingResult K) :=
  AnnealingResult.ofOutcome
    (fun s => List.ofFn fun i => (graph.get i).withConfidence (s.wArr i))
    ((incrementalKernel m precisionTensor lambdaReg graph).anneal math rng energyConvergenceEps
      schedule maxIter (incrementalStart m graph) seed)

/-! ## The gradient of both paths -/

/-- Where no clamp of the cost is active, the second component that either path computes is the
derivative of the first with respect to the weight of the edge. -/
theorem energy_gradients_are_derivatives :
    (∀ bc critic : K, ∀ w : UnitWeight K, ClampsIdle bc w →
      IsDerivativeAt (fun w' => (energyAndGrad lambdaReg bc critic w').1) {w' | ClampsIdle bc w'} w
        (energyAndGrad lambdaReg bc critic w).2) ∧
    (∀ (α : Type) (edge : CausalEdge K) (context : PyDict String (List (α × CausalEdge K)))
        (w : UnitWeight K),
      let bc := m.intrinsicCost edge.source edge.predicate
      let result := fun w' : UnitWeight K =>
        m.computeEdgeEnergyAndGradient (edge.withConfidence w') context lambdaReg
      ClampsIdle bc w →
        IsDerivativeAt (fun w' => (result w').1) {w' | ClampsIdle bc w'} w (result w).2) ∧
    ∀ (s : IncrementalState K graph.length) (i : Fin graph.length) (w : UnitWeight K),
      let bc := m.intrinsicCost (graph.get i).source (graph.get i).predicate
      let result := fun w' : UnitWeight K => edgeEnergyAndGrad m lambdaReg graph s i w'
      ClampsIdle bc w →
        IsDerivativeAt (fun w' => (result w').1) {w' | ClampsIdle bc w'} w (result w).2 := by
  refine ⟨?_, ?_, ?_⟩
  · intro bc critic w hw
    exact energyAndGrad_isDerivativeAt lambdaReg critic hw
  · intro α edge context w bc result hw
    have hcritic : ∀ w' : UnitWeight K, result w' =
        energyAndGrad lambdaReg bc (m.trainableCritic edge.target context) w' := fun w' => rfl
    simp only [hcritic]
    exact energyAndGrad_isDerivativeAt lambdaReg _ hw
  · intro s i w bc result hw
    have hcritic : ∀ w' : UnitWeight K, result w' =
        energyAndGrad lambdaReg bc (criticForNode graph s (nodeToId graph (graph.get i).target))
          w' := fun w' => rfl
    simp only [hcritic]
    exact energyAndGrad_isDerivativeAt lambdaReg _ hw

end Incremental

/-- In the middle of the weights no clamp is active, be the action costly or cheap. -/
theorem energy_gradients_are_derivatives_half :
    let w : UnitWeight ℚ := ⟨1 / 2, by norm_num, by norm_num⟩
    (ClampsIdle (1 / 2) (w : ℚ) ∧
      IsDerivativeAt (fun w' => (energyAndGrad (1 / 10) (1 / 2) (1 / 2) (w' : ℚ)).1)
        {w' | ClampsIdle (1 / 2) (w' : ℚ)} w (energyAndGrad (1 / 10) (1 / 2) (1 / 2) (w : ℚ)).2) ∧
    ClampsIdle (1 / 10) (w : ℚ) ∧
      IsDerivativeAt (fun w' => (energyAndGrad (1 / 10) (1 / 10) (1 / 2) (w' : ℚ)).1)
        {w' | ClampsIdle (1 / 10) (w' : ℚ)} w
        (energyAndGrad (1 / 10) (1 / 10) (1 / 2) (w : ℚ)).2 := by
  intro w
  have hgradients := (energy_gradients_are_derivatives (K := ℚ)
    ⟨id, ∅, none, fun _ => false⟩ (1 / 10) []).1
  have hcostly : ClampsIdle (1 / 2) (w : ℚ) := by
    rw [ClampsIdle, if_pos (by norm_num)]
    norm_num [w]
  have hcheap : ClampsIdle (1 / 10) (w : ℚ) := by
    rw [ClampsIdle, if_neg (by norm_num)]
    norm_num [w]
  exact ⟨⟨hcostly, hgradients (1 / 2) (1 / 2) w hcostly⟩, hcheap,
    hgradients (1 / 10) (1 / 2) w hcheap⟩

end Annealing
end AtlasMemory
