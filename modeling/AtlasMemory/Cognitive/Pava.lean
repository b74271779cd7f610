import AtlasMemory.Foundations.IsotonicRegression
import Mathlib.Data.Rat.Cast.Order

/-!
# The pool adjacent violators algorithm

The model of `pava` of `calibration_engine.py`.  The values are read from left to right; each one is
a block of its own, and as long as the last block but one has a greater value than the last one the
two are pooled at their weighted mean.  The stack of blocks is a list with the last block first.

The blocks of the stack are pooled blocks of the points that have been read, in the order of their
values, so that the fit they give is the isotonic regression.
-/

namespace AtlasMemory

namespace Pava

open IsotonicRegression

/-- One entry of `weights`, `values` and `counts`. -/
structure Block where
  weight : ℚ
  value : ℚ
  count : ℕ
  deriving DecidableEq

def Block.pool (a b : Block) : Block where
  weight := a.weight + b.weight
  value := (a.weight * a.value + b.weight * b.value) / max (1 / 10 ^ 12) (a.weight + b.weight)
  count := a.count + b.count

/-- The `while` loop, for the last block and the blocks before it. -/
def poolBack (b : Block) : List Block → List Block
  | [] => [b]
  | a :: rest => if b.value < a.value then poolBack (a.pool b) rest else b :: a :: rest

/-- The blocks after all points, the last one first. -/
def blocks (points : List (ℚ × ℚ)) : List Block :=
  points.foldl (fun stack p => poolBack ⟨p.1, p.2, 1⟩ stack) []

def pointsOf (ys : List ℚ) (ws : Option (List ℚ)) : List (ℚ × ℚ) :=
  (ws.getD (List.replicate ys.length 1)).zip ys

/-- `pava`. -/
def pava (ys : List ℚ) (ws : Option (List ℚ)) : List ℚ :=
  (blocks (pointsOf ys ws)).reverse.flatMap fun b => List.replicate b.count b.value

example : pava [1, 3, 2, 2, 5] none = [1, 7 / 3, 7 / 3, 7 / 3, 5] := by decide +kernel

/-! ## The blocks of the stack -/

/-- A weight that is not lost in the division. -/
def Usable (w : ℚ) : Prop := w = 0 ∨ 1 / 10 ^ 12 ≤ w

lemma Usable.nonneg {w : ℚ} (h : Usable w) : 0 ≤ w := by
  rcases h with h | h
  · exact le_of_eq h.symm
  · exact le_trans (by norm_num) h

lemma Usable.add {v w : ℚ} (hv : Usable v) (hw : Usable w) : Usable (v + w) := by
  rcases hv with rfl | h
  · rwa [zero_add]
  · exact Or.inr (by linarith [hw.nonneg])

/-- The block stands for the points. -/
structure Stands (b : Block) (points : List (ℚ × ℚ)) : Prop where
  weight_eq : b.weight = IsotonicRegression.weight points
  count_eq : b.count = points.length
  pooled : Pooled b.value points
  usable : Usable b.weight
  nonneg : ∀ p ∈ points, 0 ≤ p.1

/-- A block that has a greater value than the next one is pooled with it. -/
lemma Stands.pool {a b : Block} {l l' : List (ℚ × ℚ)} (ha : Stands a l) (hb : Stands b l')
    (hlt : b.value < a.value) : Stands (a.pool b) (l ++ l') where
  weight_eq := by
    rw [weight_append, ← ha.weight_eq, ← hb.weight_eq]
    rfl
  count_eq := by
    rw [List.length_append, ← ha.count_eq, ← hb.count_eq]
    rfl
  usable := ha.usable.add hb.usable
  nonneg p hp := by
    rcases List.mem_append.mp hp with hp | hp
    · exact ha.nonneg p hp
    · exact hb.nonneg p hp
  pooled := by
    have haw := ha.usable.nonneg
    have hbw := hb.usable.nonneg
    rcases ha.usable.add hb.usable with hzero | hpos
    · -- without weight any value will do
      have hnonneg : ∀ p ∈ l ++ l', 0 ≤ p.1 := by
        intro p hp
        rcases List.mem_append.mp hp with hp | hp
        · exact ha.nonneg p hp
        · exact hb.nonneg p hp
      refine pooled_of_weight_zero (eq_zero_of_weight_zero hnonneg ?_) _
      rw [weight_append, ← ha.weight_eq, ← hb.weight_eq, hzero]
    · have hw : 0 < a.weight + b.weight := lt_of_lt_of_le (by norm_num) hpos
      have hvalue : (a.pool b).value * (a.weight + b.weight) =
          a.weight * a.value + b.weight * b.value := by
        show (a.weight * a.value + b.weight * b.value) / max (1 / 10 ^ 12) (a.weight + b.weight) *
          (a.weight + b.weight) = _
        rw [max_eq_right hpos, div_mul_cancel₀ _ hw.ne']
      have hle : (a.pool b).value ≤ a.value := by
        have hstep := mul_nonneg hbw (sub_nonneg.mpr hlt.le)
        refine le_of_mul_le_mul_right ?_ hw
        linarith
      have hge : b.value ≤ (a.pool b).value := by
        have hstep := mul_nonneg haw (sub_nonneg.mpr hlt.le)
        refine le_of_mul_le_mul_right ?_ hw
        linarith
      refine ha.pooled.append hb.pooled ha.nonneg hb.nonneg hle hge ?_
      rw [← ha.weight_eq, ← hb.weight_eq]
      linarith

/-- The stack stands for the points that have been read, each block for its own. -/
def StackOf (points : List (ℚ × ℚ)) (stack : List Block) : Prop :=
  ∃ parts : List (List (ℚ × ℚ)), List.Forall₂ Stands stack parts ∧ parts.reverse.flatten = points

lemma stackOf_poolBack {points l : List (ℚ × ℚ)} {stack : List Block} {b : Block}
    (h : StackOf points stack) (hb : Stands b l) : StackOf (points ++ l) (poolBack b stack) := by
  induction stack generalizing points l b with
  | nil =>
    obtain ⟨parts, hparts, rfl⟩ := h
    obtain rfl := List.forall₂_nil_left_iff.mp hparts
    exact ⟨[l], .cons hb .nil, by simp⟩
  | cons a rest ih =>
    obtain ⟨parts, hparts, rfl⟩ := h
    obtain ⟨part, parts, ha, hrest, rfl⟩ := List.forall₂_cons_left_iff.mp hparts
    unfold poolBack
    split_ifs with hlt
    · have hstack := ih ⟨parts, hrest, rfl⟩ (ha.pool hb hlt)
      rwa [List.reverse_cons, List.flatten_append, List.flatten_singleton, List.append_assoc]
    · exact ⟨l :: part :: parts, .cons hb (.cons ha hrest), by simp⟩

lemma stackOf_blocks {points : List (ℚ × ℚ)} (h : ∀ p ∈ points, Usable p.1) :
    StackOf points (blocks points) := by
  have hrun : ∀ (rest seen : List (ℚ × ℚ)) (stack : List Block), StackOf seen stack →
      (∀ p ∈ rest, Usable p.1) →
        StackOf (seen ++ rest) (rest.foldl (fun stack p => poolBack ⟨p.1, p.2, 1⟩ stack) stack) := by
    intro rest
    induction rest with
    | nil =>
      intro seen stack hstack _
      rwa [List.append_nil]
    | cons p rest ih =>
      intro seen stack hstack husable
      have hp := husable p List.mem_cons_self
      have hone : Stands ⟨p.1, p.2, 1⟩ [p] := by
        refine ⟨by simp, rfl, pooled_singleton p, hp, fun q hq => ?_⟩
        rw [List.mem_singleton.mp hq]
        exact hp.nonneg
      have hnext := ih (seen ++ [p]) _ (stackOf_poolBack hstack hone)
        fun q hq => husable q (List.mem_cons_of_mem p hq)
      rwa [List.append_assoc] at hnext
  exact hrun points [] [] ⟨[], .nil, rfl⟩ h

/-! ## Order and number, whatever the weights -/

/-- The blocks are in the order of their values and as many points as were read are in them. -/
structure Shaped (n : ℕ) (stack : List Block) : Prop where
  sorted : stack.Pairwise fun b a => a.value ≤ b.value
  total : (stack.map Block.count).sum = n

lemma shaped_poolBack {n : ℕ} {stack : List Block} (h : Shaped n stack) (b : Block) :
    Shaped (n + b.count) (poolBack b stack) := by
  induction stack generalizing n b with
  | nil =>
    obtain rfl : 0 = n := h.total
    exact ⟨List.pairwise_singleton _ _, by simp [poolBack]⟩
  | cons a rest ih =>
    obtain ⟨hfirst, hsorted⟩ := List.pairwise_cons.mp h.sorted
    have htotal : a.count + (rest.map Block.count).sum = n := h.total
    unfold poolBack
    split_ifs with hlt
    · have hpooled := ih ⟨hsorted, rfl⟩ (a.pool b)
      have hcount : (a.pool b).count = a.count + b.count := rfl
      rwa [hcount, ← add_assoc, add_comm _ a.count, htotal] at hpooled
    · refine ⟨List.pairwise_cons.mpr ⟨fun c hc => ?_, h.sorted⟩, ?_⟩
      · rcases List.mem_cons.mp hc with rfl | hc
        · exact not_lt.mp hlt
        · exact (hfirst c hc).trans (not_lt.mp hlt)
      · rw [List.map_cons, List.sum_cons, h.total, add_comm]

lemma shaped_blocks (points : List (ℚ × ℚ)) : Shaped points.length (blocks points) := by
  have hrun : ∀ (rest : List (ℚ × ℚ)) (n : ℕ) (stack : List Block), Shaped n stack →
      Shaped (n + rest.length)
        (rest.foldl (fun stack p => poolBack ⟨p.1, p.2, 1⟩ stack) stack) := by
    intro rest
    induction rest with
    | nil =>
      intro n stack hstack
      exact hstack
    | cons p rest ih =>
      intro n stack hstack
      have hnext := ih (n + 1) _ (shaped_poolBack hstack ⟨p.1, p.2, 1⟩)
      rwa [List.length_cons, add_comm rest.length, ← add_assoc]
  have hshaped := hrun points 0 [] ⟨List.Pairwise.nil, rfl⟩
  rwa [Nat.zero_add] at hshaped

/-- Blocks in the order of their values give values that do not decrease. -/
lemma pairwise_flatMap_replicate {stack : List Block}
    (h : stack.Pairwise fun a b => a.value ≤ b.value) :
    (stack.flatMap fun b => List.replicate b.count b.value).Pairwise (· ≤ ·) := by
  rw [List.pairwise_flatMap]
  refine ⟨fun b _ => List.pairwise_replicate.mpr (Or.inr le_rfl), h.imp fun hab x hx y hy => ?_⟩
  rw [List.eq_of_mem_replicate hx, List.eq_of_mem_replicate hy]
  exact hab

lemma pairwise_pava (ys : List ℚ) (ws : Option (List ℚ)) : (pava ys ws).Pairwise (· ≤ ·) :=
  pairwise_flatMap_replicate (List.pairwise_reverse.mpr (shaped_blocks _).sorted)

lemma length_pava (ys : List ℚ) (ws : Option (List ℚ)) :
    (pava ys ws).length = (pointsOf ys ws).length := by
  have hlength : ∀ b : Block, (List.replicate b.count b.value).length = b.count :=
    fun b => List.length_replicate
  rw [← (shaped_blocks (pointsOf ys ws)).total, pava, List.length_flatMap]
  simp only [hlength, List.map_reverse, List.sum_reverse]

/-! ## The isotonic regression -/

lemma fit_of_stackOf {points : List (ℚ × ℚ)} {stack : List Block} (h : StackOf points stack) :
    ∃ parts : List (ℚ × List (ℚ × ℚ)), (∀ p ∈ parts, Pooled p.1 p.2) ∧
      (∀ p ∈ parts, ∀ q ∈ p.2, 0 ≤ q.1) ∧ parts.flatMap Prod.snd = points ∧
        (stack.reverse.flatMap fun b => List.replicate b.count b.value) = blockFit parts := by
  obtain ⟨parts, hparts, rfl⟩ := h
  have hzip : ∀ (stack : List Block) (parts : List (List (ℚ × ℚ))),
      List.Forall₂ Stands stack parts →
        ∃ pairs : List (ℚ × List (ℚ × ℚ)), (∀ p ∈ pairs, Pooled p.1 p.2) ∧
          (∀ p ∈ pairs, ∀ q ∈ p.2, 0 ≤ q.1) ∧ pairs.map Prod.snd = parts ∧
            (stack.map fun b => List.replicate b.count b.value) =
              pairs.map fun p => List.replicate p.2.length p.1 := by
    intro stack parts hparts
    induction hparts with
    | nil => exact ⟨[], by simp, by simp, rfl, rfl⟩
    | @cons b l stack parts hb _ ih =>
      obtain ⟨pairs, hpooled, hnonneg, hsnd, hfit⟩ := ih
      refine ⟨(b.value, l) :: pairs, ?_, ?_, ?_, ?_⟩
      · exact List.forall_mem_cons.mpr ⟨hb.pooled, hpooled⟩
      · exact List.forall_mem_cons.mpr ⟨hb.nonneg, hnonneg⟩
      · rw [List.map_cons, hsnd]
      · rw [List.map_cons, List.map_cons, hfit, hb.count_eq]
  obtain ⟨pairs, hpooled, hnonneg, hsnd, hfit⟩ := hzip stack parts hparts
  refine ⟨pairs.reverse, fun p hp => hpooled p (List.mem_reverse.mp hp),
    fun p hp => hnonneg p (List.mem_reverse.mp hp), ?_, ?_⟩
  · rw [← hsnd, List.flatMap_def, List.map_reverse]
  · unfold blockFit
    rw [List.flatMap_def, List.map_reverse, hfit, List.flatMap_def, List.map_reverse]

/-- **Isotonic regression.**  The algorithm returns as many values as it was given, which do not
decrease and have the least weighted squared error among all such lists. -/
theorem pava_isotonic {ys ws : List ℚ} (hlen : ys.length = ws.length)
    (hws : ∀ w ∈ ws, w = 0 ∨ 1 / 10 ^ 12 ≤ w) :
    (pava ys (some ws)).length = ys.length ∧ (pava ys (some ws)).Pairwise (· ≤ ·) ∧
      ∀ zs : List ℚ, zs.length = ys.length → zs.Pairwise (· ≤ ·) →
        squaredError (ws.zip ys) (pava ys (some ws)) ≤ squaredError (ws.zip ys) zs := by
  have hpoints : ∀ p ∈ ws.zip ys, Usable p.1 := fun p hp => hws p.1 (List.of_mem_zip hp).1
  have hlength : (ws.zip ys).length = ys.length := by
    rw [List.length_zip, hlen, min_self]
  have hstack := stackOf_blocks hpoints
  obtain ⟨parts, hpooled, hnonneg, hpoints, hfit⟩ := fit_of_stackOf hstack
  have hpava : pava ys (some ws) = blockFit parts := hfit
  refine ⟨?_, ?_, fun zs hzs hsorted => ?_⟩
  · rw [hpava, length_blockFit, hpoints, hlength]
  · exact pairwise_pava ys (some ws)
  · rw [hpava, ← hpoints]
    exact squaredError_blockFit_le hpooled hnonneg (by rw [hpoints, hlength, hzs]) hsorted

/-- Points without weight beside others. -/
theorem pava_isotonic_weights :
    pava [3, 1, 2, 0] (some [1, 0, 2, 0]) = [7 / 3, 7 / 3, 7 / 3, 7 / 3] ∧
      ∀ zs : List ℚ, zs.length = 4 → zs.Pairwise (· ≤ ·) →
        squaredError [(1, 3), (0, 1), (2, 2), (0, 0)] [7 / 3, 7 / 3, 7 / 3, 7 / 3] ≤
          squaredError [(1, 3), (0, 1), (2, 2), (0, 0)] zs := by
  have hrun : pava [3, 1, 2, 0] (some [1, 0, 2, 0]) = [7 / 3, 7 / 3, 7 / 3, 7 / 3] := by
    decide +kernel
  have hleast := (@pava_isotonic [3, 1, 2, 0] [1, 0, 2, 0] rfl (by decide +kernel)).2.2
  rw [hrun] at hleast
  exact ⟨hrun, hleast⟩

end Pava

end AtlasMemory
