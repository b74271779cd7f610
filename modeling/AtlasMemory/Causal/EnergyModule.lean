import AtlasMemory.Cognitive.Lexicon
import AtlasMemory.Foundations.AnnealingKernels
import AtlasMemory.Foundations.PyDict
import Mathlib.Algebra.Order.BigOperators.Group.List
import Mathlib.Algebra.Polynomial.Eval.Defs
import Mathlib.Tactic.LinearCombination

/-!
# The energy of a causal edge

The model of `energy_module.py`: the cost of an action, the critic that rates how much depends on a
node, and the energy of an edge with its gradient.  The arithmetic is exact, so the guards against
numbers that are not finite are left out.

The critic rounds to six places, and rounding keeps the order, so two critics that know different
numbers of nodes agree as soon as the rounded shares of the node in them agree.

The gradient is coded by hand through a cost that depends on the weight itself.  While no clamp of
the cost is active, the energy is a quadratic polynomial in the step from a weight, and the gradient
is its linear coefficient.
-/

namespace AtlasMemory
namespace Annealing

attribute [local instance] atLeastTwo_two atLeastTwo_four atLeastTwo_ten

variable {K : Type} [Field K] [LinearOrder K]

/-- `CausalEdge`. -/
structure CausalEdge (K : Type) [Field K] [LinearOrder K] where
  source : String
  predicate : String
  target : String
  confidence : UnitWeight K
  impactType : String
  /-- `metadata["source_type"]`. -/
  sourceType : Option String

/-- `EnergyModule`, with what it looks up. -/
structure EnergyModule (K : Type) where
  /-- `str.lower`. -/
  lower : String → String
  /-- `_error_penalties`. -/
  errorPenalties : PyDict String K
  /-- The entities and scores of `active_sensing.error_history`. -/
  errorHistory : Option (List (String × K))
  /-- `SemanticRiskAssessor.is_volatile`. -/
  isVolatile : String → Bool

/-- `CRITICAL_PREDICATES`. -/
def criticalPredicates : List String :=
  ["depends_on", "relies_on", "hosted_on", "hosts", "powers", "routes_to", "critical_for",
    "requires", "authenticates", "mounts", "databases"]

/-- `VOLATILE_ACTIONS`. -/
def volatileActions : List String :=
  ["restart", "reboot", "delete", "drop", "modify", "stop", "kill", "terminate", "alter",
    "truncate", "poweroff", "flush", "destroy"]

/-- `COMMON_NON_VOLATILE`. -/
def commonNonVolatile : List String :=
  ["triggers", "depends_on", "relies_on", "hosts", "hosted_on", "powers", "routes_to",
    "critical_for", "requires", "authenticates", "mounts", "databases", "causes", "specifies",
    "leads_to", "stated_memory", "read", "query", "observe", "inspect", "get", "view", "check",
    "status"]

/-! ## Costs -/

section Costs

variable [FloorRing K] (m : EnergyModule K)

/-- Whether the action is taken for a destructive one. -/
def EnergyModule.actsVolatile (action : String) : Bool :=
  let actLower := m.lower action
  volatileActions.any (fun va => PyString.hasInfix va actLower) ||
    (decide (actLower ∉ commonNonVolatile) && m.isVolatile actLower)

/-- `intrinsic_cost` without a current confidence. -/
def EnergyModule.intrinsicCost (state action : String) : K :=
  let baseCost := match m.errorPenalties.get? (state ++ "::" ++ action), m.errorHistory with
    | some penalty, _ => penalty
    | none, some errors =>
      (((errors.filter fun e => e.1 = state).map Prod.snd).max?).getD (1 / 10)
    | none, none => if m.actsVolatile action then 1 / 2 else 1 / 10
  round6 (max 0 (min 1 baseCost))

/-- The edge is one that other things depend on. -/
def EnergyModule.isCritical (e : CausalEdge K) : Bool :=
  decide (m.lower e.predicate ∈ criticalPredicates) || e.impactType == "critical_dependency"

lemma EnergyModule.intrinsicCost_mem [IsStrictOrderedRing K] (state action : String) :
    0 ≤ m.intrinsicCost state action ∧ m.intrinsicCost state action ≤ 1 :=
  round6_mem_unit (le_max_left _ _) (max_le zero_le_one (min_le_left _ _))

end Costs

/-! ## The critic -/

section Critic

/-- The share of a node's edges in the known nodes, at most one. -/
def reachabilityImpact (deg known : K) : K := min 1 (deg / max 1 known)

/-- The share of the critical edges in the confidence of all. -/
def criticalRatio (total crit : K) : K :=
  if 0 < total then min 1 (max 0 (crit / max (1 / 10 ^ 5) total)) else 0

variable [FloorRing K]

/-- The rating of a node from its degree, the number of known nodes and the two sums of confidences;
both kernels compute it. -/
def risk (deg known total crit : K) : K :=
  if deg ≤ 0 then 0
  else
    let rawRisk := max (reachabilityImpact deg known) (criticalRatio total crit * min 1 (deg / 2))
    round6 (max 0 (min 1 rawRisk))

/-- `trainable_critic` with the edges by their sources. -/
def EnergyModule.trainableCritic {α : Type} (m : EnergyModule K) (state : String)
    (edges : PyDict String (List (α × CausalEdge K))) : K :=
  let relevantEdges := (edges.getD state []).map Prod.snd
  if relevantEdges.isEmpty then 0
  else
    let criticalEdges := relevantEdges.filter m.isCritical
    risk relevantEdges.length edges.size
      (relevantEdges.map fun e => (e.confidence : K)).sum
      (criticalEdges.map fun e => (e.confidence : K)).sum

variable [IsStrictOrderedRing K] {deg known known' total crit : K}

lemma reachabilityImpact_mem (known : K) (hdeg : 0 ≤ deg) :
    0 ≤ reachabilityImpact deg known ∧ reachabilityImpact deg known ≤ 1 :=
  ⟨le_min zero_le_one (div_nonneg hdeg (zero_le_one.trans (le_max_left _ _))), min_le_left _ _⟩

lemma reachabilityImpact_anti (hdeg : 0 ≤ deg) (hknown : known ≤ known') :
    reachabilityImpact deg known' ≤ reachabilityImpact deg known := by
  have hpos : 0 < max 1 known := lt_of_lt_of_le zero_lt_one (le_max_left _ _)
  exact min_le_min_left 1 (div_le_div_of_nonneg_left hdeg hpos (max_le_max_left 1 hknown))

omit [IsStrictOrderedRing K] in
lemma criticalRatio_mem (total crit : K) : 0 ≤ criticalRatio total crit ∧ criticalRatio total crit ≤ 1 := by
  unfold criticalRatio
  split_ifs
  · exact ⟨le_min zero_le_one (le_max_left _ _), min_le_left _ _⟩
  · exact ⟨le_rfl, zero_le_one⟩

/-- The rounding of the larger rating is the larger of the rounded ones. -/
lemma risk_of_pos (hdeg : 0 < deg) :
    risk deg known total crit =
      max (round6 (reachabilityImpact deg known))
        (round6 (criticalRatio total crit * min 1 (deg / 2))) := by
  obtain ⟨hreach0, hreach1⟩ := reachabilityImpact_mem known hdeg.le
  obtain ⟨hratio0, hratio1⟩ := criticalRatio_mem total crit
  have hhalf0 : 0 ≤ min 1 (deg / 2) := le_min zero_le_one (by linarith)
  have hcrit : criticalRatio total crit * min 1 (deg / 2) ≤ 1 :=
    mul_le_one₀ hratio1 hhalf0 (min_le_left _ _)
  rw [risk, if_neg (not_le.mpr hdeg)]
  dsimp only
  rw [min_eq_right (max_le hreach1 hcrit), max_eq_right (hreach0.trans (le_max_left _ _)),
    round6_mono.map_max]

lemma risk_mem : 0 ≤ risk deg known total crit ∧ risk deg known total crit ≤ 1 := by
  unfold risk
  split_ifs
  · exact ⟨le_rfl, zero_le_one⟩
  · exact round6_mem_unit (le_max_left _ _) (max_le zero_le_one (min_le_left _ _))

lemma risk_congr
    (h : 0 < deg → round6 (reachabilityImpact deg known) = round6 (reachabilityImpact deg known')) :
    risk deg known total crit = risk deg known' total crit := by
  rcases le_or_gt deg 0 with hdeg | hdeg
  · rw [risk, risk, if_pos hdeg, if_pos hdeg]
  · rw [risk_of_pos hdeg, risk_of_pos hdeg, h hdeg]

/-- Where all confidences are zero, the share alone is rated. -/
lemma risk_zero_sums (hdeg : 0 < deg) :
    risk deg known 0 crit = round6 (reachabilityImpact deg known) := by
  have hreach := round6_mem_unit (reachabilityImpact_mem known hdeg.le).1
    (reachabilityImpact_mem known hdeg.le).2
  rw [risk_of_pos hdeg, criticalRatio, if_neg (lt_irrefl 0), zero_mul, round6_zero,
    max_eq_left hreach.1]

end Critic

/-! ## Energy and gradient -/

section Energy

variable [IsStrictOrderedRing K]

/-- The cost at a confidence, and its derivative. -/
def costAndSlope (bc conf : K) : K × K :=
  if 2 / 5 < bc then
    let rawCost := bc * (4 / 5 + 2 / 5 * conf)
    (max 0 (min 1 (min 1 rawCost)), if rawCost < 1 then 2 / 5 * bc else 0)
  else
    let rawCost := bc * (6 / 5 - 2 / 5 * conf)
    (max 0 (min 1 (max 0 rawCost)), if 0 < rawCost then -(2 / 5) * bc else 0)

/-- The energy of an edge and its gradient; both kernels compute them. -/
def energyAndGrad (lambdaReg bc critic w : K) : K × K :=
  let conf : K := clampUnit w
  let cost := (costAndSlope bc conf).1
  let slope := (costAndSlope bc conf).2
  let k := 1 - critic
  (conf * cost + (1 - conf) * (1 - cost) * k + lambdaReg * (conf - 1 / 2) ^ 2,
    cost - (1 - cost) * k + 2 * lambdaReg * (conf - 1 / 2) + slope * (conf - (1 - conf) * k))

/-- `compute_edge_energy_and_gradient`. -/
def EnergyModule.computeEdgeEnergyAndGradient [FloorRing K] {α : Type} (m : EnergyModule K)
    (edge : CausalEdge K) (edgesContext : PyDict String (List (α × CausalEdge K)))
    (lambdaReg : K) : K × K :=
  energyAndGrad lambdaReg (m.intrinsicCost edge.source edge.predicate)
    (m.trainableCritic edge.target edgesContext) edge.confidence

lemma costAndSlope_mem (bc conf : K) :
    0 ≤ (costAndSlope bc conf).1 ∧ (costAndSlope bc conf).1 ≤ 1 := by
  unfold costAndSlope
  split_ifs <;> exact ⟨le_max_left _ _, max_le zero_le_one (min_le_left _ _)⟩

variable {bc : K} (h0 : 0 ≤ bc) (h1 : bc ≤ 1)

include h0 h1

lemma costAndSlope_slope_mem (conf : K) :
    -(2 / 5) ≤ (costAndSlope bc conf).2 ∧ (costAndSlope bc conf).2 ≤ 2 / 5 := by
  unfold costAndSlope
  split_ifs <;> dsimp only <;> split_ifs <;> constructor <;> linarith

omit h0 in
lemma costAndSlope_zero_lt : (costAndSlope bc 0).1 < 1 := by
  unfold costAndSlope
  split_ifs with hbc <;> dsimp only
  · exact max_lt zero_lt_one (min_lt_of_right_lt (min_lt_of_right_lt (by linarith)))
  · exact max_lt zero_lt_one (min_lt_of_right_lt (max_lt zero_lt_one (by linarith)))

omit h0 h1

variable {critic : K} (hc0 : 0 ≤ critic) (hc1 : critic ≤ 1)

include hc0 hc1

/-- Without regularisation the energy is a mean of two costs. -/
lemma energy_mem (w : K) :
    0 ≤ (energyAndGrad 0 bc critic w).1 ∧ (energyAndGrad 0 bc critic w).1 ≤ 1 := by
  obtain ⟨hconf0, hconf1⟩ := (clampUnit w).2
  obtain ⟨hcost0, hcost1⟩ := costAndSlope_mem bc (clampUnit w : K)
  have hrest0 : 0 ≤ (1 - (costAndSlope bc (clampUnit w : K)).1) * (1 - critic) :=
    mul_nonneg (by linarith) (by linarith)
  have hrest1 : (1 - (costAndSlope bc (clampUnit w : K)).1) * (1 - critic) ≤ 1 :=
    mul_le_one₀ (by linarith) (by linarith) (by linarith)
  simp only [energyAndGrad, zero_mul, add_zero, mul_assoc]
  constructor
  · exact add_nonneg (mul_nonneg hconf0 hcost0) (mul_nonneg (by linarith) hrest0)
  · nlinarith

include h0 h1

lemma grad_ge (w : K) : -2 ≤ (energyAndGrad 0 bc critic w).2 := by
  obtain ⟨hconf0, hconf1⟩ := (clampUnit w).2
  obtain ⟨hcost0, hcost1⟩ := costAndSlope_mem bc (clampUnit w : K)
  obtain ⟨hslope0, hslope1⟩ := costAndSlope_slope_mem h0 h1 (clampUnit w : K)
  have hpull : (1 - (costAndSlope bc (clampUnit w : K)).1) * (1 - critic) ≤ 1 :=
    mul_le_one₀ (by linarith) (by linarith) (by linarith)
  have hspare : (1 - (clampUnit w : K)) * (1 - critic) ≤ 1 :=
    mul_le_one₀ (by linarith) (by linarith) (by linarith)
  have hspare0 : 0 ≤ (1 - (clampUnit w : K)) * (1 - critic) :=
    mul_nonneg (by linarith) (by linarith)
  simp only [energyAndGrad, mul_zero, zero_mul, add_zero]
  nlinarith

omit h0 h1 hc0 hc1

/-- The energy at weight zero falls with the rating of the critic. -/
lemma energy_zero (critic : K) :
    (energyAndGrad 0 bc critic 0).1 = (1 - (costAndSlope bc 0).1) * (1 - critic) := by
  have hclamp : ((clampUnit (0 : K) : UnitWeight K) : K) = 0 :=
    congrArg Subtype.val (clampUnit_of_mem (0 : UnitWeight K))
  simp only [energyAndGrad, hclamp]
  ring

end Energy

/-! ## The gradient as a derivative -/

section Gradient

open Polynomial

/-- As a polynomial in the step from `w` the function is its value, the step times the slope, and a
multiple of the square of the step, wherever the set has a weight to step to. -/
def IsDerivativeAt (E : UnitWeight K → K) (D : Set (UnitWeight K)) (w : UnitWeight K)
    (slope : K) : Prop :=
  ∃ p : K[X], (∀ w' ∈ D, E w' = p.eval ((w' : K) - w)) ∧
    X ^ 2 ∣ p - (C (E w) + C slope * X)

/-- Neither clamp of the cost is active at the confidence. -/
def ClampsIdle (bc conf : K) : Prop :=
  if 2 / 5 < bc then bc * (4 / 5 + 2 / 5 * conf) < 1 else 0 < bc * (6 / 5 - 2 / 5 * conf)

instance (bc conf : K) : Decidable (ClampsIdle bc conf) :=
  inferInstanceAs (Decidable (if 2 / 5 < bc then bc * (4 / 5 + 2 / 5 * conf) < 1
    else 0 < bc * (6 / 5 - 2 / 5 * conf)))

lemma isDerivativeAt_of_quadratic {E : UnitWeight K → K} {D : Set (UnitWeight K)}
    {w : UnitWeight K} {slope c : K}
    (h : ∀ w' ∈ D, E w' = E w + slope * (w' - w) + c * (w' - w) ^ 2) :
    IsDerivativeAt E D w slope := by
  refine ⟨C (E w) + C slope * X + C c * X ^ 2, ?_, C c, by ring⟩
  intro w' hw'
  rw [h w' hw']
  simp only [eval_add, eval_mul, eval_pow, eval_C, eval_X]

variable [IsStrictOrderedRing K] {bc : K}

/-- In either regime the slope of an unclamped cost is the same for all weights, and the cost is
linear. -/
lemma exists_linear_cost (bc : K) :
    ∃ a b : K, ∀ w : UnitWeight K, ClampsIdle bc w → costAndSlope bc w = (a + b * w, b) := by
  by_cases hbc : 2 / 5 < bc
  · refine ⟨bc * (4 / 5), 2 / 5 * bc, fun w hw => ?_⟩
    rw [ClampsIdle, if_pos hbc] at hw
    have hw0 : (0 : K) ≤ w := w.2.1
    have hpos : 0 ≤ bc * (4 / 5 + 2 / 5 * (w : K)) :=
      mul_nonneg (by linarith) (by linarith)
    rw [costAndSlope, if_pos hbc]
    dsimp only
    rw [if_pos hw, min_eq_right hw.le, min_eq_right hw.le, max_eq_right hpos]
    congr 1
    ring
  · refine ⟨bc * (6 / 5), -(2 / 5) * bc, fun w hw => ?_⟩
    rw [ClampsIdle, if_neg hbc] at hw
    have hw0 : (0 : K) ≤ w := w.2.1
    have hw1 : (w : K) ≤ 1 := w.2.2
    have hle : bc * (6 / 5 - 2 / 5 * (w : K)) ≤ 2 / 5 * (6 / 5) :=
      mul_le_mul (not_lt.mp hbc) (by linarith) (by linarith) (by norm_num)
    have hone : bc * (6 / 5 - 2 / 5 * (w : K)) ≤ 1 := hle.trans (by norm_num)
    rw [costAndSlope, if_neg hbc]
    dsimp only
    rw [if_pos hw, max_eq_right hw.le, min_eq_right hone, max_eq_right hw.le]
    congr 1
    ring

/-- The product rule of the energy, with the cost and both shares of the weight depending on it. -/
lemma energyAndGrad_isDerivativeAt (lambdaReg critic : K) {w : UnitWeight K}
    (hw : ClampsIdle bc w) :
    IsDerivativeAt (fun w' => (energyAndGrad lambdaReg bc critic w').1)
      {w' | ClampsIdle bc w'} w (energyAndGrad lambdaReg bc critic w).2 := by
  obtain ⟨a, b, hcost⟩ := exists_linear_cost bc
  have hvalue : ∀ w' : UnitWeight K, ClampsIdle bc w' →
      energyAndGrad lambdaReg bc critic w' =
        (w' * (a + b * w') + (1 - w') * (1 - (a + b * w')) * (1 - critic) +
            lambdaReg * (w' - 1 / 2) ^ 2,
          (a + b * w') - (1 - (a + b * w')) * (1 - critic) + 2 * lambdaReg * (w' - 1 / 2) +
            b * (w' - (1 - w') * (1 - critic))) := by
    intro w' hw'
    simp only [energyAndGrad, clampUnit_of_mem, hcost w' hw']
  -- The second difference: the cost moves both shares, and the regulariser is a square.
  apply isDerivativeAt_of_quadratic (c := b + b * (1 - critic) + lambdaReg)
  intro w' hw'
  rw [hvalue w' hw', hvalue w hw]
  ring

end Gradient

end Annealing
end AtlasMemory
