import AtlasMemory.Foundations.ExactMath
import Mathlib.Algebra.BigOperators.Fin
import Mathlib.Algebra.Order.Interval.Set.Instances
import Mathlib.Order.Interval.Set.ProjIcc

/-!
# Simulated annealing over a kernel

A vector of weights between zero and one is annealed by sweeps: each weight in turn gets a noisy
gradient step as a proposal, which is accepted by the Metropolis rule, and after each sweep the
temperature falls.  How the weights are held, and how the energy of one of them is found, is the
matter of a kernel.

Two kernels whose states can be related so that related states have the same weights, the same
energies and related updates run alike on every schedule and every stream of random numbers.
-/

/-- A weight between zero and one. -/
abbrev UnitWeight (K : Type*) [Field K] [LinearOrder K] : Type _ := ↥(Set.Icc (0 : K) 1)

/-- A source of random numbers with its state. -/
structure Rng (K σ : Type*) where
  gauss : σ → K × σ
  random : σ → K × σ

/-- A representation of `n` weights with the energy and the gradient of each. -/
structure AnnealingKernel (K : Type*) [Field K] [LinearOrder K] (n : ℕ) (S : Type*) where
  weight : S → Fin n → UnitWeight K
  precision : S → Fin n → K
  energyAndGrad : S → Fin n → UnitWeight K → K × K
  store : S → Fin n → UnitWeight K → S

/-- How the temperature falls; it is never negative. -/
structure AnnealingSchedule (K : Type*) [Field K] [LinearOrder K] where
  tInit : K
  tMin : K
  decay : K
  tMin_nonneg : 0 ≤ tMin
  decay_nonneg : 0 ≤ decay

/-- The state of a kernel within a sweep, with the energy summed so far. -/
structure SweepState (K S σ : Type*) where
  state : S
  seed : σ
  total : K

/-- What a run leaves behind. -/
structure AnnealingOutcome (K S : Type*) where
  state : S
  trace : List K
  iterations : ℕ
  converged : Bool
  temperature : K

variable {K : Type*} [Field K] [LinearOrder K] [IsStrictOrderedRing K]

def clampUnit (x : K) : UnitWeight K := Set.projIcc 0 1 zero_le_one x

lemma clampUnit_of_mem (w : UnitWeight K) : clampUnit (w : K) = w := Set.projIcc_val _ w

lemma clampUnit_of_nonpos {x : K} (hx : x ≤ 0) : clampUnit x = 0 := Set.projIcc_of_le_left _ hx

attribute [local instance] atLeastTwo_ten in
/-- The Metropolis rule for a change of the energy; a random number is drawn only where the energy
rises and there is a temperature. -/
def metropolis {σ : Type*} (math : ExactMath K) (rng : Rng K σ) (temperature dE : K) (seed : σ) :
    Bool × σ :=
  if dE ≤ 0 then (true, seed)
  else if temperature < 1 / 10 ^ 8 then (false, seed)
  else
    let exponent := -dE / temperature
    let pAccept := if exponent < -700 then 0 else if 700 < exponent then 1 else math.exp exponent
    let draw := rng.random seed
    (decide (draw.1 < pAccept), draw.2)

/-- The sweep moved by less than the bound since the one before. -/
def settledWithin (eps : K) (prev : Option K) (total : K) : Bool :=
  prev.any fun p => decide (|total - p| < eps)

namespace AnnealingKernel

variable {n : ℕ} {S T σ : Type*} (k : AnnealingKernel K n S) (k' : AnnealingKernel K n T)
  (math : ExactMath K) (rng : Rng K σ)

attribute [local instance] atLeastTwo_two in
/-- A gradient step with noise. -/
def proposal (temperature noise : K) (s : S) (i : Fin n) : UnitWeight K :=
  clampUnit ((k.weight s i : K) - temperature * (k.energyAndGrad s i (k.weight s i)).2 +
    math.sqrt (2 * temperature / k.precision s i) * noise)

def visit (temperature : K) (c : SweepState K S σ) (i : Fin n) : SweepState K S σ :=
  let noise := rng.gauss c.seed
  let proposed := k.proposal math temperature noise.1 c.state i
  let energy := (k.energyAndGrad c.state i (k.weight c.state i)).1
  let candEnergy := (k.energyAndGrad c.state i proposed).1
  let verdict := metropolis math rng temperature (candEnergy - energy) noise.2
  if verdict.1 then ⟨k.store c.state i proposed, verdict.2, c.total + candEnergy⟩
  else ⟨c.state, verdict.2, c.total + energy⟩

def sweep (temperature : K) (s : S) (seed : σ) : SweepState K S σ :=
  (List.finRange n).foldl (k.visit math rng temperature) ⟨s, seed, 0⟩

def loop (eps tMin decay : K) : ℕ → S → σ → K → Option K → ℕ → List K → AnnealingOutcome K S
  | 0, s, _, temperature, _, iterations, trace => ⟨s, trace, iterations, false, temperature⟩
  | left + 1, s, seed, temperature, prev, iterations, trace =>
    let c := k.sweep math rng temperature s seed
    if settledWithin eps prev c.total then
      ⟨c.state, trace ++ [c.total], iterations + 1, true, temperature⟩
    else if temperature ≤ tMin then
      ⟨c.state, trace ++ [c.total], iterations + 1, false, tMin⟩
    else
      loop eps tMin decay left c.state c.seed (temperature * decay) (some c.total)
        (iterations + 1) (trace ++ [c.total])

def anneal (eps : K) (schedule : AnnealingSchedule K) (maxIter : ℕ) (s : S) (seed : σ) :
    AnnealingOutcome K S :=
  k.loop math rng eps schedule.tMin schedule.decay maxIter s seed
    (max schedule.tMin schedule.tInit) none 0 []

/-! ## Kernels that run alike -/

/-- Related states have the same weights and stay related. -/
structure Coupled (R : S → T → Prop) : Prop where
  weight : ∀ {s t}, R s t → ∀ i, k.weight s i = k'.weight t i
  precision : ∀ {s t}, R s t → ∀ i, k.precision s i = k'.precision t i
  store : ∀ {s t}, R s t → ∀ i w, R (k.store s i w) (k'.store t i w)

variable {k k'} {R : S → T → Prop}

def SweepState.Alike (R : S → T → Prop) (c : SweepState K S σ) (d : SweepState K T σ) : Prop :=
  R c.state d.state ∧ c.seed = d.seed ∧ c.total = d.total

variable (hR : k.Coupled k' R)
  (henergy : ∀ {s t}, R s t → ∀ i w, k.energyAndGrad s i w = k'.energyAndGrad t i w)

include hR henergy

lemma proposal_eq {s : S} {t : T} (hst : R s t) (temperature noise : K) (i : Fin n) :
    k.proposal math temperature noise s i = k'.proposal math temperature noise t i := by
  rw [proposal, proposal, hR.weight hst, hR.precision hst, henergy hst]

lemma visit_alike (temperature : K) {c : SweepState K S σ} {d : SweepState K T σ}
    (hcd : SweepState.Alike R c d) (i : Fin n) :
    SweepState.Alike R (k.visit math rng temperature c i) (k'.visit math rng temperature d i) := by
  obtain ⟨hst, hseed, htotal⟩ := hcd
  have hproposal := proposal_eq math hR henergy hst temperature (rng.gauss d.seed).1 i
  rw [visit, visit, hseed, htotal, hproposal, hR.weight hst, henergy hst, henergy hst]
  split_ifs
  · exact ⟨hR.store hst i _, rfl, rfl⟩
  · exact ⟨hst, rfl, rfl⟩

lemma sweep_alike (temperature : K) {s : S} {t : T} (hst : R s t) (seed : σ) :
    SweepState.Alike R (k.sweep math rng temperature s seed)
      (k'.sweep math rng temperature t seed) := by
  have hfold : ∀ (is : List (Fin n)) {c : SweepState K S σ} {d : SweepState K T σ},
      SweepState.Alike R c d → SweepState.Alike R (is.foldl (k.visit math rng temperature) c)
        (is.foldl (k'.visit math rng temperature) d) := by
    intro is
    induction is with
    | nil => exact fun hcd => hcd
    | cons i is ih => exact fun hcd => ih (visit_alike math rng hR henergy temperature hcd i)
  exact hfold _ ⟨hst, rfl, rfl⟩

def OutcomesAlike (R : S → T → Prop) (o : AnnealingOutcome K S) (p : AnnealingOutcome K T) :
    Prop :=
  R o.state p.state ∧ o.trace = p.trace ∧ o.iterations = p.iterations ∧
    o.converged = p.converged ∧ o.temperature = p.temperature

lemma loop_alike (eps tMin decay : K) (left : ℕ) {s : S} {t : T} (hst : R s t) (seed : σ)
    (temperature : K) (prev : Option K) (iterations : ℕ) (trace : List K) :
    OutcomesAlike R (k.loop math rng eps tMin decay left s seed temperature prev iterations trace)
      (k'.loop math rng eps tMin decay left t seed temperature prev iterations trace) := by
  induction left generalizing s t seed temperature prev iterations trace with
  | zero => exact ⟨hst, rfl, rfl, rfl, rfl⟩
  | succ left ih =>
    obtain ⟨hst', hseed, htotal⟩ := sweep_alike math rng hR henergy
      temperature hst seed
    rw [loop, loop]
    rw [hseed, htotal]
    split_ifs
    · exact ⟨hst', rfl, rfl, rfl, rfl⟩
    · exact ⟨hst', rfl, rfl, rfl, rfl⟩
    · exact ih hst' _ _ _ _ _

/-- Coupled kernels with the same energies run alike. -/
theorem anneal_alike (eps : K) (schedule : AnnealingSchedule K) (maxIter : ℕ) {s : S} {t : T}
    (hst : R s t) (seed : σ) :
    OutcomesAlike R (k.anneal math rng eps schedule maxIter s seed)
      (k'.anneal math rng eps schedule maxIter t seed) :=
  loop_alike math rng hR henergy _ _ _ _ hst _ _ _ _ _

omit hR henergy

/-! ## Runs that freeze

Noise that is low enough makes zero the proposal for each weight, and a random number of zero
accepts it, so after one sweep all weights are zero and a second sweep adds up the energies there. -/

/-- The noise is minus four throughout, the random numbers are zero. -/
def frozenRng : Rng K Unit := ⟨fun _ => (-4, ()), fun _ => (0, ())⟩

def frozenSchedule : AnnealingSchedule K where
  tInit := 1
  tMin := 1 / 100
  decay := 1
  tMin_nonneg := by positivity
  decay_nonneg := zero_le_one

/-- A kernel with bounded energies and gradients that keeps what is stored. -/
structure Tame (k : AnnealingKernel K n S) : Prop where
  precision : ∀ s i, k.precision s i = 1
  energy : ∀ s i w, 0 ≤ (k.energyAndGrad s i w).1 ∧ (k.energyAndGrad s i w).1 ≤ 1
  grad : ∀ s i w, -2 ≤ (k.energyAndGrad s i w).2
  weight_store : ∀ s i w j, k.weight (k.store s i w) j = if j = i then w else k.weight s j

lemma metropolis_frozen {dE : K} (hdE : dE ≤ 1) :
    metropolis math (frozenRng (K := K)) 1 dE () = (true, ()) := by
  unfold metropolis
  by_cases hfalls : dE ≤ 0
  · rw [if_pos hfalls]
  · have hwarm : ¬ (1 : K) < 1 / 10 ^ 8 := by norm_num
    have hlow : ¬ -dE / 1 < -700 := by linarith [div_one (-dE)]
    have hhigh : ¬ 700 < -dE / 1 := by linarith [div_one (-dE)]
    rw [if_neg hfalls, if_neg hwarm]
    simp only [if_neg hlow, if_neg hhigh, frozenRng, decide_eq_true (math.exp_pos _)]

namespace Tame

variable (hk : k.Tame)

include hk

lemma proposal_frozen (s : S) (i : Fin n) : k.proposal math 1 (-4) s i = 0 := by
  apply clampUnit_of_nonpos
  have hweight : (k.weight s i : K) ≤ 1 := (k.weight s i).2.2
  have hgrad := hk.grad s i (k.weight s i)
  have hsqrt : 1 ≤ math.sqrt (2 * 1 / k.precision s i) := by
    rw [hk.precision]
    exact math.one_le_sqrt _ (by norm_num)
  linarith

lemma visit_frozen (c : SweepState K S Unit) (i : Fin n) :
    k.visit math frozenRng 1 c i =
      ⟨k.store c.state i 0, (), c.total + (k.energyAndGrad c.state i 0).1⟩ := by
  have hproposal : k.proposal math 1 (frozenRng.gauss c.seed).1 c.state i = 0 :=
    hk.proposal_frozen math c.state i
  have hrise : (k.energyAndGrad c.state i 0).1 -
      (k.energyAndGrad c.state i (k.weight c.state i)).1 ≤ 1 := by
    have hupper := (hk.energy c.state i 0).2
    have hlower := (hk.energy c.state i (k.weight c.state i)).1
    linarith
  have hverdict := metropolis_frozen math hrise
  rw [visit, hproposal]
  simp only [hverdict, if_true]

lemma visits_keep {J : S → Prop} (hJ : ∀ {s} i w, J s → J (k.store s i w)) (is : List (Fin n))
    (c : SweepState K S Unit) (hc : J c.state) :
    J (is.foldl (k.visit math frozenRng 1) c).state := by
  induction is generalizing c with
  | nil => exact hc
  | cons i is ih =>
    rw [List.foldl_cons, hk.visit_frozen math]
    exact ih _ (hJ i 0 hc)

lemma weight_visits (is : List (Fin n)) (c : SweepState K S Unit) {i : Fin n}
    (hi : i ∈ is ∨ k.weight c.state i = 0) :
    k.weight (is.foldl (k.visit math frozenRng 1) c).state i = 0 := by
  induction is generalizing c with
  | nil => exact hi.resolve_left List.not_mem_nil
  | cons j is ih =>
    rw [List.foldl_cons, hk.visit_frozen math]
    apply ih
    rw [hk.weight_store]
    by_cases hij : i = j
    · exact Or.inr (if_pos hij)
    · rw [if_neg hij]
      exact hi.imp_left fun h => (List.mem_cons.mp h).resolve_left hij

lemma weight_sweep_frozen (s : S) (i : Fin n) :
    k.weight (k.sweep math frozenRng 1 s ()).state i = 0 :=
  hk.weight_visits math _ _ (Or.inl (List.mem_finRange i))

variable {J : S → Prop} (hJ : ∀ {s} i w, J s → J (k.store s i w)) {E : Fin n → K}
  (hE : ∀ {s}, J s → (∀ j, k.weight s j = 0) → ∀ i, (k.energyAndGrad s i 0).1 = E i)

include hJ hE

lemma total_visits (is : List (Fin n)) (c : SweepState K S Unit) (hc : J c.state)
    (hzero : ∀ j, k.weight c.state j = 0) :
    (is.foldl (k.visit math frozenRng 1) c).total = c.total + (is.map E).sum := by
  induction is generalizing c with
  | nil => simp
  | cons i is ih =>
    have hzero' : ∀ j, k.weight (k.store c.state i 0) j = 0 := by
      intro j
      rw [hk.weight_store]
      split_ifs
      · rfl
      · exact hzero j
    rw [List.foldl_cons, hk.visit_frozen math, ih _ (hJ i 0 hc) hzero', hE hc hzero, List.map_cons,
      List.sum_cons, add_assoc]

/-- A sweep over weights that are zero adds up the energies. -/
lemma total_sweep_frozen {s : S} (hs : J s) (hzero : ∀ j, k.weight s j = 0) :
    (k.sweep math frozenRng 1 s ()).total = ∑ i, E i := by
  rw [sweep, hk.total_visits math hJ hE _ _ hs hzero, zero_add, Fin.sum_univ_def]

/-- The second entry of the trace of a run that freezes, and its last temperature. -/
theorem anneal_frozen (eps : K) {s : S} (hs : J s) :
    let o := k.anneal math frozenRng eps frozenSchedule 2 s ()
    o.trace[1]? = some (∑ i, E i) ∧ o.temperature = 1 := by
  have hkept : J (k.sweep math frozenRng 1 s ()).state := hk.visits_keep math hJ _ _ hs
  have hsecond := hk.total_sweep_frozen math hJ hE hkept (hk.weight_sweep_frozen math s)
  have hwarm : ¬ (1 : K) ≤ 1 / 100 := by norm_num
  have hstart : max (1 / 100 : K) 1 = 1 := max_eq_right (by norm_num)
  have hopen : ∀ total : K, settledWithin eps none total = false := fun _ => rfl
  simp only [anneal, frozenSchedule, hstart, loop, hopen, Bool.false_eq_true, if_false,
    if_neg hwarm, mul_one]
  split_ifs
  · exact ⟨congrArg some hsecond, rfl⟩
  · exact ⟨congrArg some hsecond, rfl⟩

end Tame

end AnnealingKernel
