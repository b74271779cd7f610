import AtlasMemory.Cognitive.PackingBudget
import AtlasMemory.Foundations.GreedyPacking
import AtlasMemory.Foundations.PyFloat

/-!
# How good the packing is

The packer takes connected records together and values them by a utility of its own, so its result
is not the selection of greatest total rank.  `packKnapsack01_near_optimal` says how good it is: all
candidates are packed when they fit together, no candidate that is left out fits beside the others,
and where no two candidates are connected and none is critical, the packing is worth as much as any
selection within the budget, up to the rank of one candidate that was left out.
-/

namespace AtlasMemory

namespace Packing

open GreedyPacking

variable {env : PackEnv} {budget : ℤ}

def Item.value (it : Item) : ℚ := it.rank.toRat

/-- No two candidates are connected, and none has a severity. -/
structure Unrelated (env : PackEnv) (items : List Item) : Prop where
  apart : ∀ ends, (items.mapM fun it => endpoints env it.record) = some ends →
    ends.Pairwise fun a b => connected a b = false
  uncritical : ∀ it ∈ items, cpofSeverity env.rt it.record = some (.finite 0)

/-! ## What is left out does not fit -/

/-- The refill from a component is the greedy packing of its candidates. -/
lemma foldl_fillNode_eq (p : Packed) (l : List Item) :
    (l.foldl (fillNode budget) p).items = p.items ++ (greedy Item.cost (budget - p.cost) l).1 ∧
      (l.foldl (fillNode budget) p).cost =
        p.cost + total Item.cost (greedy Item.cost (budget - p.cost) l).1 := by
  induction l generalizing p with
  | nil => simp [greedy, total]
  | cons it l ih =>
      rw [List.foldl_cons, greedy]
      obtain ⟨hitems, hcost⟩ := ih (fillNode budget p it)
      by_cases hfit : (p.cost : ℤ) + it.cost ≤ budget
      · have hroom : (it.cost : ℤ) ≤ budget - p.cost := by omega
        have hstep : fillNode budget p it = ⟨p.items ++ [it], p.cost + it.cost⟩ := if_pos hfit
        have hrest : budget - ((p.cost + it.cost : ℕ) : ℤ) = budget - p.cost - it.cost := by
          push_cast
          omega
        rw [if_pos hroom]
        rw [hstep] at hitems hcost ⊢
        dsimp only at hitems hcost ⊢
        rw [hrest] at hitems hcost
        refine ⟨hitems.trans (List.append_assoc _ _ _), hcost.trans ?_⟩
        rw [total_cons]
        omega
      · have hroom : ¬(it.cost : ℤ) ≤ budget - p.cost := by omega
        have hstep : fillNode budget p it = p := if_neg hfit
        rw [if_neg hroom]
        rw [hstep] at hitems hcost ⊢
        exact ⟨hitems, hcost⟩

/-- Candidates that are not packed, and do not fit beside the packed ones. -/
def LeavesOut (budget : ℤ) (p : Packed) (all : List Item) : Prop :=
  ∃ left, (p.items ++ left).Perm all ∧ ∀ it ∈ left, budget < (p.cost : ℤ) + it.cost

lemma leavesOut_fillComponent {p : Packed} {all : List Item} (h : LeavesOut budget p all)
    (c : Component) : LeavesOut budget (fillComponent budget p c) (all ++ c.items) := by
  obtain ⟨left, hperm, hleft⟩ := h
  unfold fillComponent
  split_ifs with hfit
  · refine ⟨left, ?_, fun it hit => ?_⟩
    · refine List.Perm.trans ?_ (hperm.append_right c.items)
      rw [List.append_assoc, List.append_assoc]
      exact List.perm_append_comm.append_left p.items
    · have hlt := hleft it hit
      push_cast
      omega
  · obtain ⟨hitems, hcost⟩ := @foldl_fillNode_eq budget p (sortDesc nodeKey c.items)
    have hgreedy := greedy_perm Item.cost (budget - p.cost) (sortDesc nodeKey c.items)
    have hskip := fun it => @not_fits_of_skipped _ Item.cost (budget - p.cost)
      (sortDesc nodeKey c.items) it
    generalize (sortDesc nodeKey c.items).foldl (fillNode budget) p = packed at hitems hcost ⊢
    generalize greedy Item.cost (budget - p.cost) (sortDesc nodeKey c.items) = g at *
    refine ⟨left ++ g.2, ?_, fun it hit => ?_⟩
    · rw [hitems]
      have hswap : (p.items ++ g.1 ++ (left ++ g.2)).Perm (p.items ++ left ++ (g.1 ++ g.2)) := by
        simp only [List.append_assoc]
        refine List.Perm.append_left _ ?_
        rw [← List.append_assoc, ← List.append_assoc]
        exact List.perm_append_comm.append_right g.2
      exact hswap.trans (hperm.append (hgreedy.trans (sortDesc_perm nodeKey c.items)))
    · rw [hcost]
      push_cast
      rcases List.mem_append.mp hit with hit | hit
      · have hlt := hleft it hit
        omega
      · have hlt := hskip it hit
        omega

lemma leavesOut_foldl {p : Packed} {all : List Item} (h : LeavesOut budget p all)
    (comps : List Component) : LeavesOut budget (comps.foldl (fillComponent budget) p)
      (all ++ (comps.map Component.items).flatten) := by
  induction comps generalizing p all with
  | nil =>
      rw [List.map_nil, List.flatten_nil, List.append_nil]
      exact h
  | cons c comps ih =>
      rw [List.map_cons, List.flatten_cons, ← List.append_assoc]
      exact ih (leavesOut_fillComponent h c)

lemma packItems_leavesOut {items : List Item} {comps : List Component}
    (h : evaluated env items = some comps) :
    ∃ left, (packItems budget items comps ++ left).Perm items ∧
      ∀ it ∈ left, budget < (total Item.cost (packItems budget items comps) : ℤ) + it.cost := by
  obtain ⟨hperm, hcost⟩ := evaluated_spec h
  have hempty : Within budget ⟨[], 0⟩ := ⟨rfl, by simp⟩
  have hwithin := within_foldl hempty hcost
  have hstart : LeavesOut budget ⟨[], 0⟩ [] := ⟨[], List.Perm.refl _, by nofun⟩
  obtain ⟨left, hall, hleft⟩ := leavesOut_foldl hstart comps
  rw [List.nil_append] at hall
  unfold packItems
  generalize comps.foldl (fillComponent budget) ⟨[], 0⟩ = packed at *
  have htokens : packed.cost = total Item.cost packed.items := hwithin.1
  by_cases hnone : packed.items = []
  · have hzero : packed.cost = 0 := by
      rw [htokens, hnone]
      rfl
    have hbig : ∀ it ∈ items, budget < (it.cost : ℤ) := by
      intro it hit
      have hmem : it ∈ packed.items ++ left := (hall.trans hperm).symm.subset hit
      rw [hnone, List.nil_append] at hmem
      have hlt := hleft it hmem
      omega
    rw [if_pos (List.isEmpty_iff.mpr hnone)]
    have hfits : ∀ (chosen left : List Item), (chosen ++ left).Perm items →
        ∀ it ∈ left, budget < (total Item.cost chosen : ℤ) + it.cost := by
      intro chosen left hsplit it hit
      have hlt := hbig it (hsplit.subset (List.mem_append_right chosen hit))
      omega
    cases items with
    | nil => exact ⟨[], List.Perm.refl _, by nofun⟩
    | cons it rest =>
        unfold lastResort
        split_ifs with hb
        · have hbest := firstMax_mem nodeKey it rest
          obtain ⟨s, t, hst⟩ := List.append_of_mem hbest
          have hsplit : ([firstMax nodeKey it rest] ++ (s ++ t)).Perm (it :: rest) := by
            rw [hst]
            show (firstMax nodeKey it rest :: (s ++ t)).Perm _
            exact List.perm_middle.symm
          exact ⟨s ++ t, hsplit, hfits _ _ hsplit⟩
        · exact ⟨it :: rest, List.Perm.refl _, hfits [] _ (List.Perm.refl _)⟩
  · rw [if_neg fun hempty => hnone (List.isEmpty_iff.mp hempty)]
    refine ⟨left, hall.trans hperm, fun it hit => ?_⟩
    rw [← htokens]
    exact hleft it hit

/-! ## Unrelated candidates -/

/-- A list sorted by keys that are numbers is sorted by the first components. -/
lemma pairwise_sortDesc {α : Type*} {key : α → PyFloat × PyFloat} {l : List α}
    (h : ∀ a ∈ l, (key a).1.IsNumber ∧ (key a).2.IsNumber) :
    (sortDesc key l).Pairwise fun a b => (key b).1.toRat ≤ (key a).1.toRat := by
  have hmap := List.map_insertionSort (fun a b => PyFloat.pairLt (key a) (key b) = false)
    (fun x y : ℚ ×ₗ ℚ => y ≤ x) (fun a => toLex ((key a).1.toRat, (key a).2.toRat)) l
    fun a ha b hb => by
      rw [← Bool.not_eq_true, PyFloat.pairLt_iff_toRat (h a ha) (h b hb), not_lt]
  have hsorted := List.pairwise_insertionSort (fun x y : ℚ ×ₗ ℚ => y ≤ x)
    (l.map fun a => toLex ((key a).1.toRat, (key a).2.toRat))
  rw [← hmap, List.pairwise_map] at hsorted
  refine hsorted.imp fun hle => ?_
  rcases Prod.Lex.toLex_le_toLex.mp hle with hlt | ⟨heq, -⟩
  · exact hlt.le
  · exact heq.le

/-- Where no two candidates are connected, none has neighbours. -/
lemma adjacent_of_apart {ends : List Endpoints}
    (h : ends.Pairwise fun a b => connected a b = false) (i : ℕ) : adjacent env ends i = [] := by
  refine List.eq_nil_iff_forall_not_mem.mpr fun j hj => ?_
  obtain ⟨-, hcond⟩ := List.mem_filter.mp ((env.mem_iterate _ j).mp hj)
  rw [Bool.and_eq_true, decide_eq_true_eq] at hcond
  obtain ⟨hne, hconn⟩ := hcond
  split at hconn
  · next a b ha hb =>
      obtain ⟨hilt, ha⟩ := List.getElem?_eq_some_iff.mp ha
      obtain ⟨hjlt, hb⟩ := List.getElem?_eq_some_iff.mp hb
      have hapart := List.pairwise_iff_getElem.mp h (min i j) (max i j) hilt hjlt (by omega)
      rw [ha, hb, hconn] at hapart
      exact nomatch hapart
  · exact nomatch hconn

/-- The value of a component of one candidate. -/
structure IsSingle (c : Component) (it : Item) : Prop where
  items : c.items = [it]
  cost : c.cost = it.cost
  utility : c.utility.IsNumber
  density : c.density.IsNumber ∧ c.density.toRat = it.value * (1 / (max 1 it.cost : ℕ))

lemma number_perToken {x : PyFloat} (hx : x.IsNumber) (cost : ℕ) :
    (perToken x cost).IsNumber ∧ (perToken x cost).toRat = x.toRat * (1 / (max 1 cost : ℕ)) :=
  PyFloat.number_mul (y := .finite _) hx trivial

lemma isSingle_evaluate {items : List Item} {ends : List Endpoints} {i : ℕ} {it : Item}
    {c : Component} (h : evaluate env items ends [i] = some c) (hit : items[i]? = some it)
    (hrank : it.rank.IsNumber) (hadj : adjacent env ends i = [])
    (hsev : cpofSeverity env.rt it.record = some (.finite 0)) : IsSingle c it := by
  obtain ⟨severities, hsevs, h⟩ := Option.bind_eq_some_iff.mp h
  rw [Option.pure_def, Option.some.injEq] at h
  have hmembers : [i].filterMap (fun i => items[i]?) = [it] := by simp [hit]
  rw [hmembers] at hsevs h
  have hone : severities = [.finite 0] := by
    rw [List.mapM_cons, hsev, List.mapM_nil] at hsevs
    exact (Option.some.inj hsevs).symm
  have hedges : internalEdges env ends [i] = 0 := by simp [internalEdges, hadj]
  have hbase := PyFloat.number_add (x := .finite 0) (y := it.rank) trivial hrank
  -- without edges and severity the factor is one
  have hfactor : PyFloat.add (.finite (1 + 35 / 100 * (internalEdges env ends [i] : ℕ)))
      ((PyFloat.finite (1 / 2)).mul (severities.foldl PyFloat.add (.finite 0))) = .finite 1 := by
    rw [hone, hedges]
    decide +kernel
  have hutility := PyFloat.number_mul (y := .finite 1) hbase.1 trivial
  have hdensity := number_perToken hutility.1 it.cost
  rw [hfactor] at h
  rw [← h]
  refine ⟨rfl, Nat.add_zero _, hutility.1, ?_⟩
  show (perToken (((PyFloat.finite 0).add it.rank).mul (.finite 1)) (it.cost + 0)).IsNumber ∧ _
  rw [Nat.add_zero]
  refine ⟨hdensity.1, hdensity.2.trans ?_⟩
  rw [hutility.2, hbase.2]
  show (0 + it.value) * 1 * _ = _
  ring

/-- Unrelated candidates are components by themselves, the densest first. -/
lemma evaluated_of_unrelated {items : List Item} {comps : List Component}
    (h : evaluated env items = some comps) (hun : Unrelated env items)
    (hrank : ∀ it ∈ items, it.rank.IsNumber) (hcost : ∀ it ∈ items, 0 < it.cost) :
    (∀ c ∈ comps, ∃ it ∈ items, IsSingle c it) ∧
      ((comps.map Component.items).flatten).Pairwise
        fun x y : Item => y.value * (x.cost : ℚ) ≤ x.value * (y.cost : ℚ) := by
  obtain ⟨ends, hends, h⟩ := Option.bind_eq_some_iff.mp h
  obtain ⟨cs, hcs, h⟩ := Option.bind_eq_some_iff.mp h
  rw [Option.pure_def, Option.some.injEq] at h
  have hadj := fun i => @adjacent_of_apart env ends (hun.apart ends hends) i
  rw [BreadthFirst.components_of_isolated List.nodup_range fun i _ => hadj i] at hcs
  have hlen : ends.length = items.length := length_of_mapM hends
  have hsingle : ∀ c ∈ cs, ∃ it ∈ items, IsSingle c it := by
    intro c hc
    obtain ⟨i, hi⟩ := List.mem_iff_getElem?.mp hc
    rw [getElem?_of_mapM hcs, List.getElem?_map] at hi
    obtain ⟨comp, hcomp, heval⟩ := Option.bind_eq_some_iff.mp hi
    obtain ⟨j, hj, rfl⟩ := Option.map_eq_some_iff.mp hcomp
    have hjlt : j < items.length := by
      rw [← hlen]
      exact List.mem_range.mp (List.mem_of_getElem? hj)
    have hmem : items[j] ∈ items := List.getElem_mem hjlt
    exact ⟨_, hmem, isSingle_evaluate heval (List.getElem?_eq_getElem hjlt) (hrank _ hmem) (hadj j)
      (hun.uncritical _ hmem)⟩
  have hperm : comps.Perm cs := by
    rw [← h]
    exact sortDesc_perm _ cs
  have hall : ∀ c ∈ comps, ∃ it ∈ items, IsSingle c it := fun c hc =>
    hsingle c (hperm.subset hc)
  refine ⟨hall, ?_⟩
  have hsorted : comps.Pairwise fun a b => b.density.toRat ≤ a.density.toRat := by
    rw [← h]
    refine @pairwise_sortDesc Component (fun c => (c.density, c.utility)) cs fun c hc => ?_
    obtain ⟨it, -, hit⟩ := hsingle c hc
    exact ⟨hit.density.1, hit.utility⟩
  rw [List.pairwise_flatten]
  constructor
  · intro l hl
    obtain ⟨c, hc, rfl⟩ := List.mem_map.mp hl
    obtain ⟨it, -, hit⟩ := hall c hc
    rw [hit.items]
    exact List.pairwise_singleton _ it
  · rw [List.pairwise_map]
    refine hsorted.imp_of_mem fun {a b} ha hb hle x hx y hy => ?_
    obtain ⟨it, hmem, hit⟩ := hall a ha
    obtain ⟨it', hmem', hit'⟩ := hall b hb
    rw [hit.items] at hx
    rw [hit'.items] at hy
    obtain rfl := List.mem_singleton.mp hx
    obtain rfl := List.mem_singleton.mp hy
    have hxpos := hcost x hmem
    have hypos := hcost y hmem'
    rw [hit.density.2, hit'.density.2, max_eq_right hypos, max_eq_right hxpos] at hle
    have hx0 : (0 : ℚ) < x.cost := by exact_mod_cast hxpos
    have hy0 : (0 : ℚ) < y.cost := by exact_mod_cast hypos
    rw [mul_one_div, mul_one_div, div_le_div_iff₀ hy0 hx0] at hle
    exact hle

/-- The rounds over components of one candidate each are the greedy packing of the candidates. -/
lemma foldl_fillComponent_of_single {comps : List Component}
    (h : ∀ c ∈ comps, ∃ it, c.items = [it] ∧ c.cost = it.cost) (p : Packed) :
    (comps.foldl (fillComponent budget) p).items =
      p.items ++ (greedy Item.cost (budget - p.cost) (comps.map Component.items).flatten).1 := by
  have hround : ∀ c ∈ comps, ∀ p, fillComponent budget p c = c.items.foldl (fillNode budget) p := by
    intro c hc p
    obtain ⟨it, hitems, hcost⟩ := h c hc
    have hsort : sortDesc nodeKey [it] = [it] := rfl
    rw [fillComponent, hitems, hcost, hsort]
    split_ifs with hfit
    · exact (if_pos hfit).symm
    · rfl
  have hall : comps.foldl (fillComponent budget) p =
      (comps.map Component.items).flatten.foldl (fillNode budget) p := by
    clear h
    induction comps generalizing p with
    | nil => rfl
    | cons c comps ih =>
        rw [List.foldl_cons, hround c List.mem_cons_self, List.map_cons, List.flatten_cons,
          List.foldl_append]
        exact ih _ fun c' hc' => hround c' (List.mem_cons_of_mem c hc')
  rw [hall]
  exact (foldl_fillNode_eq p _).1

/-! ## The result -/

lemma rank_nonneg_of_validItems {records : List PackRecord} {items : List Item}
    (h : validItems env records = some items) : ∀ it ∈ items, it.rank.ge (.finite 0) = true := by
  obtain ⟨ranked, -, h⟩ := Option.bind_eq_some_iff.mp h
  rw [Option.pure_def, Option.some.injEq] at h
  intro it hit
  rw [← h] at hit
  exact (List.mem_filter.mp hit).2

lemma cost_pos_of_validItems {records : List PackRecord} {items : List Item}
    (h : validItems env records = some items) : ∀ it ∈ items, 0 < it.cost := by
  intro it hit
  rw [((validItems_spec h).2.1 it hit).2]
  exact lt_of_lt_of_le Nat.zero_lt_one (le_max_left _ _)

/-- Unrelated candidates are packed as well as by any selection, up to one that is left out. -/
lemma packItems_of_unrelated {items : List Item} {comps : List Component}
    (h : evaluated env items = some comps) (hun : Unrelated env items)
    (hrank : ∀ it ∈ items, it.rank.IsNumber) (hcost : ∀ it ∈ items, 0 < it.cost)
    (hval : ∀ it ∈ items, 0 ≤ it.value) {left t : List Item}
    (hleft : (packItems budget items comps ++ left).Perm items) (ht : t.Subperm items)
    (hfits : (total Item.cost t : ℤ) ≤ budget) :
    worth Item.value t ≤ worth Item.value (packItems budget items comps) ∨
      ∃ it ∈ left, worth Item.value t ≤
        worth Item.value (packItems budget items comps) + it.value := by
  obtain ⟨hsingle, hsorted⟩ := evaluated_of_unrelated h hun hrank hcost
  have hperm := (evaluated_spec h).1
  have hitems := @foldl_fillComponent_of_single budget comps
    (fun c hc => (hsingle c hc).imp fun it hit => ⟨hit.2.items, hit.2.cost⟩) ⟨[], 0⟩
  rw [List.nil_append, Nat.cast_zero, Int.sub_zero] at hitems
  have hbest := @value_le_greedy Item Item.cost Item.value budget
    ((comps.map Component.items).flatten) t (fun x hx => hcost x (hperm.subset hx))
    (fun x hx => hval x (hperm.subset hx)) hsorted (ht.trans hperm.symm.subperm) hfits
  have hall := greedy_perm Item.cost budget ((comps.map Component.items).flatten)
  have hskip := fun x => @not_fits_of_skipped Item Item.cost budget
    ((comps.map Component.items).flatten) x
  generalize greedy Item.cost budget ((comps.map Component.items).flatten) = g at *
  unfold packItems at hleft ⊢
  rw [hitems] at hleft ⊢
  by_cases hnone : g.1 = []
  · -- nothing fits, so nothing can be selected
    left
    rw [if_pos (List.isEmpty_iff.mpr hnone)] at hleft ⊢
    have hbig : ∀ it ∈ items, budget < (it.cost : ℤ) := by
      intro it hit
      have hmem : it ∈ g.1 ++ g.2 := (hall.trans hperm).symm.subset hit
      rw [hnone, List.nil_append] at hmem
      have hlt := hskip it hmem
      rw [hnone] at hlt
      exact hlt.trans_eq (Int.zero_add _)
    have hempty : t = [] := by
      cases t with
      | nil => rfl
      | cons it t =>
          have hlt := hbig it (ht.subset List.mem_cons_self)
          rw [total_cons] at hfits
          push_cast at hfits
          omega
    rw [hempty]
    refine worth_nonneg fun it hit => hval it ?_
    exact hleft.subset (List.mem_append_left left hit)
  · rw [if_neg fun hempty => hnone (List.isEmpty_iff.mp hempty)] at hleft ⊢
    have hsame : left.Perm g.2 :=
      (List.perm_append_left_iff g.1).mp (hleft.trans (hall.trans hperm).symm)
    refine hbest.imp_right fun hone => ?_
    obtain ⟨it, hit, hle⟩ := hone
    exact ⟨it, hsame.symm.subset hit, hle⟩

/-- **How good the packing is.**  The packed records are the candidates but for those left out.
Nothing is left out when all candidates fit together; what is left out does not fit beside the
others; and a selection of unrelated candidates within the budget has at most the total rank of the
packing, or that with the rank of one candidate that is left out. -/
theorem packKnapsack01_near_optimal {records packed : List PackRecord} {compact : Bool}
    (h : packKnapsack01 env records budget compact = some packed) :
    ∃ survivors items chosen left, semanticDedup env records = some survivors ∧
      validItems env (effRecords env.rt budget compact survivors) = some items ∧
      packed = chosen.map Item.record ∧ (chosen ++ left).Perm items ∧
      ((total Item.cost items : ℤ) ≤ budget → left = []) ∧
      (∀ it ∈ left, budget < (total Item.cost chosen : ℤ) + it.cost) ∧
      (Unrelated env items → (∀ it ∈ items, it.rank.IsNumber) → ∀ t : List Item,
        t.Subperm items → (total Item.cost t : ℤ) ≤ budget →
          worth Item.value t ≤ worth Item.value chosen ∨
            ∃ it ∈ left, worth Item.value t ≤ worth Item.value chosen + it.value) := by
  obtain ⟨survivors, hsurvivors, h⟩ := Option.bind_eq_some_iff.mp h
  obtain ⟨items, hitems, h⟩ := Option.bind_eq_some_iff.mp h
  obtain ⟨comps, hcomps, h⟩ := Option.bind_eq_some_iff.mp h
  rw [Option.pure_def, Option.some.injEq] at h
  obtain ⟨left, hall, hleft⟩ := @packItems_leavesOut env budget _ _ hcomps
  have hsorted := sortDesc_perm (fun it => (it.rank, .finite 0)) (packItems budget items comps)
  have hworth := fun f => @worth_perm Item f _ _ hsorted
  have htotal : total Item.cost (sortDesc (fun it => (it.rank, PyFloat.finite 0))
      (packItems budget items comps)) = total Item.cost (packItems budget items comps) :=
    (hsorted.map Item.cost).sum_eq
  refine ⟨survivors, items, _, left, hsurvivors, hitems, h.symm,
    (hsorted.append_right left).trans hall, fun hfits => ?_, fun it hit => ?_,
    fun hun hrank t ht htfits => ?_⟩
  · refine List.eq_nil_iff_forall_not_mem.mpr fun it hit => ?_
    have hlt := hleft it hit
    have hsum : total Item.cost (packItems budget items comps ++ left) = total Item.cost items :=
      (hall.map Item.cost).sum_eq
    have hle : it.cost ≤ total Item.cost left :=
      List.single_le_sum (fun _ _ => Nat.zero_le _) _ (List.mem_map_of_mem hit)
    have hsplit : total Item.cost (packItems budget items comps ++ left) =
        total Item.cost (packItems budget items comps) + total Item.cost left := by
      simp [total]
    omega
  · rw [htotal]
    exact hleft it hit
  · rw [hworth]
    have hval : ∀ it ∈ items, 0 ≤ it.value := fun it hit =>
      (PyFloat.ge_iff_toRat (hrank it hit) (y := .finite 0) trivial).mp
        (rank_nonneg_of_validItems hitems it hit)
    exact packItems_of_unrelated hcomps hun hrank (cost_pos_of_validItems hitems) hval hall ht htfits

/-! ## A selection of greater rank -/

lemma isNumber_one : Json.isNumber "1.0".toList = true := by decide

lemma isNumber_two : Json.isNumber "2.0".toList = true := by decide

/-- A record of three tokens and rank one. -/
def shortRecord : PackRecord where
  isDict := true
  isModel := false
  fields := .ofEntries [("subject", .str "a"), ("score", .number ⟨"1.0", isNumber_one⟩)]

def longRecord : PackRecord where
  isDict := true
  isModel := false
  fields := .ofEntries [("subject", .str "b"), ("object", .str "bbbbbbbbbbbbbbbbbbbb"),
    ("score", .number ⟨"2.0", isNumber_two⟩)]

/-- The total rank of some records; `none` when a rank cannot be computed. -/
def recordsRank (env : PackEnv) (records : List PackRecord) : Option ℚ :=
  (records.mapM (rank env)).map fun ranks => (ranks.map PyFloat.toRat).sum

/-- The short record is denser, and leaves no room for the long one. -/
theorem packKnapsack01_not_optimal : ¬ ∀ (env : PackEnv) (records packed : List PackRecord)
    (budget : ℤ), (∀ r ∈ records, (rank env r).any (·.ge (.finite 0))) →
    packKnapsack01 env records budget false = some packed →
    ∀ t : List PackRecord, t.Sublist records →
      ((t.map (estimateTokens env.rt)).sum : ℤ) ≤ budget →
      ∀ x y, recordsRank env t = some x → recordsRank env packed = some y → x ≤ y := by
  intro hall
  have hrun : (packKnapsack01 sampleEnv [shortRecord, longRecord] 9 false).map
      (recordsRank sampleEnv) = some (some 1) := by decide +kernel
  obtain ⟨packed, hpacked, hrank⟩ := Option.map_eq_some_iff.mp hrun
  have hle := hall sampleEnv [shortRecord, longRecord] packed 9 (by decide) hpacked
    [longRecord] (by simp) (by decide +kernel) 2 1 (by decide +kernel) hrank
  exact absurd hle (by decide)

/-- Of the two records the short one is packed. -/
theorem packKnapsack01_near_optimal_short : ∃ packed,
    packKnapsack01 sampleEnv [shortRecord, longRecord] 9 false = some packed ∧
    ∃ survivors items chosen left,
      semanticDedup sampleEnv [shortRecord, longRecord] = some survivors ∧
      validItems sampleEnv (effRecords sampleEnv.rt 9 false survivors) = some items ∧
      packed = chosen.map Item.record ∧ (chosen ++ left).Perm items ∧
      ((total Item.cost items : ℤ) ≤ 9 → left = []) ∧
      (∀ it ∈ left, 9 < (total Item.cost chosen : ℤ) + it.cost) ∧
      (Unrelated sampleEnv items → (∀ it ∈ items, it.rank.IsNumber) → ∀ t : List Item,
        t.Subperm items → (total Item.cost t : ℤ) ≤ 9 →
          worth Item.value t ≤ worth Item.value chosen ∨
            ∃ it ∈ left, worth Item.value t ≤ worth Item.value chosen + it.value) := by
  have hrun : (packKnapsack01 sampleEnv [shortRecord, longRecord] 9 false).isSome = true := by
    decide +kernel
  obtain ⟨packed, hpacked⟩ := Option.isSome_iff_exists.mp hrun
  exact ⟨packed, hpacked, packKnapsack01_near_optimal hpacked⟩

end Packing

end AtlasMemory
