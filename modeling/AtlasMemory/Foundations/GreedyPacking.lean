import Mathlib.Algebra.BigOperators.Group.List.Basic
import Mathlib.Algebra.Order.BigOperators.Group.List
import Mathlib.Algebra.Order.Field.Rat
import Mathlib.Algebra.Order.Ring.Rat
import Mathlib.Data.List.Perm.Subperm
import Mathlib.Tactic.FieldSimp
import Mathlib.Tactic.Linarith
import Mathlib.Tactic.Ring

/-!
# Packing greedily by density

Items are taken in a given order as long as they fit the room that is left; an item that does not
fit is skipped.  Nothing that was skipped fits at the end.  When the items come by decreasing
density, the value of the optimum exceeds that of the packing by at most the value of one skipped
item: `value_le_greedy`.
-/

namespace GreedyPacking

variable {ι : Type*} (weight : ι → ℕ) (value : ι → ℚ)

/-- The items that are taken into the room, and those that are skipped. -/
def greedy : ℤ → List ι → List ι × List ι
  | _, [] => ([], [])
  | room, x :: xs =>
    if (weight x : ℤ) ≤ room then
      (x :: (greedy (room - weight x) xs).1, (greedy (room - weight x) xs).2)
    else ((greedy room xs).1, x :: (greedy room xs).2)

def total (items : List ι) : ℕ := (items.map weight).sum

def worth (items : List ι) : ℚ := (items.map value).sum

variable {weight value} {room : ℤ} {l t : List ι} {x : ι}

lemma total_cons (x : ι) (items : List ι) :
    total weight (x :: items) = weight x + total weight items := rfl

lemma greedy_perm (weight : ι → ℕ) (room : ℤ) (l : List ι) :
    ((greedy weight room l).1 ++ (greedy weight room l).2).Perm l := by
  induction l generalizing room with
  | nil => exact List.Perm.refl _
  | cons x xs ih =>
      unfold greedy
      split_ifs
      · exact (ih _).cons x
      · exact List.perm_middle.trans ((ih _).cons x)

/-- A skipped item does not fit beside those that were taken. -/
lemma not_fits_of_skipped (h : x ∈ (greedy weight room l).2) :
    room < (total weight (greedy weight room l).1 : ℤ) + weight x := by
  induction l generalizing room with
  | nil => exact nomatch h
  | cons y ys ih =>
      unfold greedy at h ⊢
      split_ifs at h ⊢ with hfit
      · have hrest := ih h
        rw [total_cons]
        push_cast
        omega
      · rcases List.mem_cons.mp h with rfl | h
        · have hnonneg : (0 : ℤ) ≤ (total weight (greedy weight room ys).1 : ℤ) := by positivity
          dsimp only
          omega
        · exact ih h

/-- Either everything is taken, or the order has a first item that is skipped: what stands before
it is taken, and leaves no room for it. -/
lemma greedy_split (weight : ι → ℕ) (room : ℤ) (l : List ι) : (greedy weight room l).2 = [] ∨
    ∃ before x after, l = before ++ x :: after ∧ x ∈ (greedy weight room l).2 ∧
      (∃ more, (greedy weight room l).1 = before ++ more) ∧
      room < (total weight before : ℤ) + weight x := by
  induction l generalizing room with
  | nil => exact Or.inl rfl
  | cons y ys ih =>
      unfold greedy
      split_ifs with hfit
      · rcases ih (room - weight y) with hall | ⟨before, x, after, rfl, hskip, ⟨more, htaken⟩, hlt⟩
        · exact Or.inl hall
        · refine Or.inr ⟨y :: before, x, after, rfl, hskip, ⟨more, congrArg (y :: ·) htaken⟩, ?_⟩
          rw [total_cons]
          push_cast
          omega
      · refine Or.inr ⟨[], y, ys, rfl, List.mem_cons_self, ⟨_, rfl⟩, ?_⟩
        show room < ((0 : ℕ) : ℤ) + weight y
        omega

lemma worth_append (a b : List ι) : worth value (a ++ b) = worth value a + worth value b := by
  simp [worth]

lemma worth_nonneg (h : ∀ x ∈ l, 0 ≤ value x) : 0 ≤ worth value l := by
  refine List.sum_nonneg fun v hv => ?_
  obtain ⟨x, hx, rfl⟩ := List.mem_map.mp hv
  exact h x hx

lemma worth_perm (h : l.Perm t) : worth value l = worth value t := (h.map value).sum_eq

/-- The value of some items beyond a price for their weight. -/
lemma worth_sub (weight : ι → ℕ) (value : ι → ℚ) (d : ℚ) (items : List ι) : worth (fun x => value x - d * weight x) items =
    worth value items - d * total weight items := by
  induction items with
  | nil => simp [worth, total]
  | cons x xs ih =>
      simp only [worth, total, List.map_cons, List.sum_cons, Nat.cast_add] at ih ⊢
      rw [ih]
      ring

/-- At a price that the items before the cut are worth and the others are not, no selection gains
more than the items before the cut. -/
lemma worth_le_of_price {before after : List ι} {d : ℚ} (ht : t.Sublist (before ++ after))
    (hbefore : ∀ y ∈ before, d * weight y ≤ value y) (hafter : ∀ y ∈ after, value y ≤ d * weight y) :
    worth value t ≤ worth value before + d * (total weight t - total weight before) := by
  obtain ⟨t₁, t₂, rfl, h₁, h₂⟩ := List.sublist_append_iff.mp ht
  have hgain : worth (fun y => value y - d * weight y) t₁ ≤
      worth (fun y => value y - d * weight y) before := by
    refine (h₁.map _).sum_le_sum fun v hv => ?_
    obtain ⟨y, hy, rfl⟩ := List.mem_map.mp hv
    exact sub_nonneg.mpr (hbefore y hy)
  have hloss : worth (fun y => value y - d * weight y) t₂ ≤ 0 := by
    have hle := List.sum_le_sum (g := fun _ => (0 : ℚ)) fun y (hy : y ∈ t₂) =>
      sub_nonpos.mpr (hafter y (h₂.subset hy))
    rw [List.map_const', List.sum_replicate, nsmul_zero] at hle
    exact hle
  have hall := worth_sub weight value d (t₁ ++ t₂)
  have hcut := worth_sub weight value d before
  rw [worth_append] at hall
  linarith

/-- **Packing by density.**  A selection that fits the room is worth at most what was packed, or
what was packed with one skipped item. -/
theorem value_le_greedy (hpos : ∀ x ∈ l, 0 < weight x) (hval : ∀ x ∈ l, 0 ≤ value x)
    (hsorted : l.Pairwise fun x y => value y * weight x ≤ value x * weight y)
    (ht : t.Subperm l) (hfits : (total weight t : ℤ) ≤ room) :
    worth value t ≤ worth value (greedy weight room l).1 ∨
      ∃ x ∈ (greedy weight room l).2,
        worth value t ≤ worth value (greedy weight room l).1 + value x := by
  obtain ⟨s, hperm, hsub⟩ := ht
  rw [← worth_perm hperm]
  have hfits' : (total weight s : ℤ) ≤ room := by
    rw [total, (hperm.map weight).sum_eq]
    exact hfits
  rcases greedy_split weight room l with hall | ⟨before, x, after, hl, hskip, htaken, hlt⟩
  · left
    have hl := greedy_perm weight room l
    rw [hall, List.append_nil] at hl
    rw [worth_perm hl]
    refine (hsub.map value).sum_le_sum fun v hv => ?_
    obtain ⟨y, hy, rfl⟩ := List.mem_map.mp hv
    exact hval y hy
  · right
    refine ⟨x, hskip, ?_⟩
    obtain ⟨more, htaken⟩ := htaken
    have hx : x ∈ l := hl ▸ List.mem_append_right before List.mem_cons_self
    have hwpos : (0 : ℚ) < weight x := by exact_mod_cast hpos x hx
    -- the price is the density of the first skipped item
    have hd : value x / weight x * weight x = value x := by field_simp
    have hdnonneg : 0 ≤ value x / weight x := div_nonneg (hval x hx) hwpos.le
    have hpair := hl ▸ hsorted
    rw [List.pairwise_append, List.pairwise_cons] at hpair
    have hbound := @worth_le_of_price ι weight value s before (x :: after) (value x / weight x)
      (hl ▸ hsub) ?_ ?_
    · have hroom : (total weight s : ℚ) - total weight before ≤ weight x := by
        have hle : (total weight s : ℤ) - total weight before ≤ weight x := by omega
        exact_mod_cast hle
      have hprice := mul_le_mul_of_nonneg_left hroom hdnonneg
      rw [hd] at hprice
      have hmore : 0 ≤ worth value more := by
        refine worth_nonneg fun y hy => hval y ?_
        have htakenmem : y ∈ (greedy weight room l).1 := htaken ▸ List.mem_append_right before hy
        exact (greedy_perm weight room l).subset (List.mem_append_left _ htakenmem)
      rw [htaken, worth_append]
      linarith
    · intro y hy
      rw [div_mul_eq_mul_div, div_le_iff₀ hwpos]
      exact hpair.2.2 y hy x List.mem_cons_self
    · intro y hy
      rw [div_mul_eq_mul_div, le_div_iff₀ hwpos]
      rcases List.mem_cons.mp hy with rfl | hy
      · exact le_rfl
      · exact hpair.2.1.1 y hy

end GreedyPacking
