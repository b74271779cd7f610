import AtlasMemory.Cognitive.Packing
import Mathlib.Data.List.Forall2
import Mathlib.Data.List.Perm.Subperm
import Mathlib.Data.List.Range

/-!
# The budget of the packer

What the packer returns costs no more than the budget, with one exception that the code makes on
purpose: when the budget is positive and no candidate fits it alone, the densest candidate is
returned nevertheless.  No candidate is returned twice, and each one is a record that was left
after the removal of variants, or its compacted form.

The argument follows the loop over the components.  One round keeps the cost within the budget
(`Within`), takes candidates of its component only (`fillComponent_subperm`), and leaves the result
empty only when nothing of the component fits (`fillComponent_eq_nil`).
-/

namespace AtlasMemory

namespace Packing

variable {env : PackEnv} {budget : ℤ}

/-! ## The candidates -/

lemma getElem?_of_mapM {α β : Type} {f : α → Option β} {l : List α} {l' : List β}
    (h : l.mapM f = some l') (i : ℕ) : l'[i]? = l[i]?.bind f := by
  induction l generalizing l' i with
  | nil =>
      rw [List.mapM_nil, Option.pure_def, Option.some.injEq] at h
      rw [← h]
      rfl
  | cons a l ih =>
      rw [List.mapM_cons] at h
      obtain ⟨b, hb, h⟩ := Option.bind_eq_some_iff.mp h
      obtain ⟨bs, hbs, h⟩ := Option.bind_eq_some_iff.mp h
      rw [Option.pure_def, Option.some.injEq] at h
      rw [← h]
      cases i with
      | zero => exact hb.symm
      | succ i => exact ih hbs i

lemma length_of_mapM {α β : Type} {f : α → Option β} {l : List α} {l' : List β}
    (h : l.mapM f = some l') : l'.length = l.length := by
  induction l generalizing l' with
  | nil =>
      rw [List.mapM_nil, Option.pure_def, Option.some.injEq] at h
      rw [← h]
      rfl
  | cons a l ih =>
      rw [List.mapM_cons] at h
      obtain ⟨b, -, h⟩ := Option.bind_eq_some_iff.mp h
      obtain ⟨bs, hbs, h⟩ := Option.bind_eq_some_iff.mp h
      rw [Option.pure_def, Option.some.injEq] at h
      rw [← h, List.length_cons, List.length_cons, ih hbs]

/-- The candidates are the records whose rank is not negative, each at its position. -/
lemma validItems_spec {records : List PackRecord} {items : List Item}
    (h : validItems env records = some items) :
    (items.map Item.index).Nodup ∧
    (∀ it ∈ items, records[it.index]? = some it.record ∧
      it.cost = estimateTokens env.rt it.record) ∧
    ∀ r ∈ records, ∀ x, rank env r = some x → x.ge (.finite 0) = true →
      ∃ it ∈ items, it.cost = estimateTokens env.rt r := by
  obtain ⟨ranked, hranked, h⟩ := Option.bind_eq_some_iff.mp h
  rw [Option.pure_def, Option.some.injEq] at h
  have hget : ∀ (i : ℕ) (it : Item), ranked[i]? = some it ↔ ∃ r x, records[i]? = some r ∧
      rank env r = some x ∧ Item.mk i r x (estimateTokens env.rt r) = it := by
    intro i it
    rw [getElem?_of_mapM hranked, List.getElem?_zipIdx, Nat.zero_add]
    cases hr : records[i]? with
    | none => simp
    | some r => simp [Option.bind_eq_some_iff]
  have hindex : ranked.map Item.index = List.range ranked.length := by
    refine List.ext_getElem (by simp) fun i hi hi' => ?_
    rw [List.getElem_map, List.getElem_range]
    have hlt : i < ranked.length := by simpa using hi
    obtain ⟨r, x, -, -, hit⟩ := (hget i ranked[i]).mp (List.getElem?_eq_getElem hlt)
    rw [← hit]
  refine ⟨?_, fun it hit => ?_, fun r hr x hx hge => ?_⟩
  · have hnodup : (ranked.map Item.index).Nodup := by
      rw [hindex]
      exact List.nodup_range
    rw [← h]
    exact hnodup.sublist (List.filter_sublist.map _)
  · rw [← h] at hit
    obtain ⟨i, hi⟩ := List.mem_iff_getElem?.mp (List.mem_of_mem_filter hit)
    obtain ⟨r, x, hr, -, rfl⟩ := (hget i it).mp hi
    exact ⟨hr, rfl⟩
  · obtain ⟨i, hi⟩ := List.mem_iff_getElem?.mp hr
    have hit : ranked[i]? = some ⟨i, r, x, estimateTokens env.rt r⟩ :=
      (hget i _).mpr ⟨r, x, hi, hx, rfl⟩
    have hmem : Item.mk i r x (estimateTokens env.rt r) ∈ items := by
      rw [← h]
      exact List.mem_filter.mpr ⟨List.mem_of_getElem? hit, hge⟩
    exact ⟨_, hmem, rfl⟩

/-! ## The components -/

lemma sortDesc_perm {α : Type*} (key : α → PyFloat × PyFloat) (l : List α) :
    (sortDesc key l).Perm l := List.perm_insertionSort _ l

lemma mem_of_mem_adjacent {ends : List Endpoints} {i j : ℕ} (h : j ∈ adjacent env ends i) :
    j ∈ List.range ends.length :=
  List.mem_of_mem_filter ((env.mem_iterate _ j).mp h)

lemma filterMap_getElem?_range {α : Type*} (l : List α) :
    (List.range l.length).filterMap (fun i => l[i]?) = l := by
  induction l with
  | nil => rfl
  | cons a l ih =>
      rw [List.length_cons, List.range_succ_eq_map, List.filterMap_cons, List.filterMap_map]
      exact congrArg (a :: ·) ih

lemma evaluate_spec {items : List Item} {ends : List Endpoints} {comp : List ℕ} {c : Component}
    (h : evaluate env items ends comp = some c) :
    c.items = comp.filterMap (fun i => items[i]?) ∧ c.cost = (c.items.map Item.cost).sum := by
  obtain ⟨severities, -, h⟩ := Option.bind_eq_some_iff.mp h
  rw [Option.pure_def, Option.some.injEq] at h
  rw [← h]
  exact ⟨rfl, rfl⟩

lemma evaluated_spec {items : List Item} {comps : List Component}
    (h : evaluated env items = some comps) :
    ((comps.map Component.items).flatten).Perm items ∧
    ∀ c ∈ comps, c.cost = (c.items.map Item.cost).sum := by
  obtain ⟨ends, hends, h⟩ := Option.bind_eq_some_iff.mp h
  obtain ⟨cs, hcs, h⟩ := Option.bind_eq_some_iff.mp h
  rw [Option.pure_def, Option.some.injEq] at h
  have hlen : ends.length = items.length := length_of_mapM hends
  have hsort : comps.Perm cs := by
    rw [← h]
    exact sortDesc_perm _ cs
  have hget : ∀ (i : ℕ) (c : Component), cs[i]? = some c → ∃ comp,
      (BreadthFirst.components (adjacent env ends) (List.range ends.length))[i]? = some comp ∧
      evaluate env items ends comp = some c := by
    intro i c hc
    rw [getElem?_of_mapM hcs] at hc
    exact Option.bind_eq_some_iff.mp hc
  have hmembers : cs.map Component.items =
      (BreadthFirst.components (adjacent env ends) (List.range ends.length)).map
        fun comp => comp.filterMap fun i => items[i]? := by
    refine List.ext_getElem? fun i => ?_
    rw [List.getElem?_map, List.getElem?_map, getElem?_of_mapM hcs]
    cases hcomp : (BreadthFirst.components (adjacent env ends)
        (List.range ends.length))[i]? with
    | none => rfl
    | some comp =>
        have hin : i < cs.length := by
          rw [length_of_mapM hcs]
          exact (List.getElem?_eq_some_iff.mp hcomp).1
        obtain ⟨comp', hcomp', heval⟩ := hget i cs[i] (List.getElem?_eq_getElem hin)
        rw [hcomp, Option.some.injEq] at hcomp'
        subst hcomp'
        rw [Option.bind_some, heval, Option.map_some, Option.map_some, (evaluate_spec heval).1]
  constructor
  · refine (List.Perm.flatten (hsort.map _)).trans ?_
    rw [hmembers, ← List.filterMap_flatten]
    obtain ⟨hnodup, hmem⟩ := @BreadthFirst.components_spec _ _ (adjacent env ends)
      (List.range ends.length) fun _ _ hy => mem_of_mem_adjacent hy
    have hall := ((List.perm_ext_iff_of_nodup hnodup List.nodup_range).mpr hmem).filterMap
      fun i => items[i]?
    rw [hlen, filterMap_getElem?_range] at hall
    rw [hlen]
    exact hall
  · intro c hc
    obtain ⟨i, hi⟩ := List.mem_iff_getElem?.mp (hsort.mem_iff.mp hc)
    obtain ⟨comp, -, heval⟩ := hget i c hi
    exact (evaluate_spec heval).2

/-! ## The loop -/

/-- The cost is that of the packed candidates, and within the budget. -/
def Within (budget : ℤ) (p : Packed) : Prop :=
  p.cost = (p.items.map Item.cost).sum ∧ (p.cost : ℤ) ≤ max budget 0

lemma within_fillNode {p : Packed} (h : Within budget p) (it : Item) :
    Within budget (fillNode budget p it) := by
  unfold fillNode
  split_ifs with hfit
  · refine ⟨by simp [h.1], ?_⟩
    have hle := le_max_left budget 0
    push_cast
    omega
  · exact h

lemma within_foldl_fillNode {p : Packed} (h : Within budget p) (l : List Item) :
    Within budget (l.foldl (fillNode budget) p) := by
  induction l generalizing p with
  | nil => exact h
  | cons it l ih => exact ih (within_fillNode h it)

lemma within_fillComponent {p : Packed} (h : Within budget p) {c : Component}
    (hc : c.cost = (c.items.map Item.cost).sum) : Within budget (fillComponent budget p c) := by
  unfold fillComponent
  split_ifs with hfit
  · refine ⟨by simp [h.1, hc], ?_⟩
    have hle := le_max_left budget 0
    push_cast
    omega
  · exact within_foldl_fillNode h _

lemma within_foldl {comps : List Component} {p : Packed} (h : Within budget p)
    (hcomps : ∀ c ∈ comps, c.cost = (c.items.map Item.cost).sum) :
    Within budget (comps.foldl (fillComponent budget) p) := by
  induction comps generalizing p with
  | nil => exact h
  | cons c comps ih =>
      refine ih (within_fillComponent h (hcomps c List.mem_cons_self)) fun c' hc' => ?_
      exact hcomps c' (List.mem_cons_of_mem c hc')

lemma foldl_fillNode_subperm (p : Packed) (l : List Item) :
    (l.foldl (fillNode budget) p).items.Subperm (p.items ++ l) := by
  induction l generalizing p with
  | nil => rw [List.append_nil]; exact List.Subperm.refl _
  | cons it l ih =>
      refine (ih (fillNode budget p it)).trans ?_
      unfold fillNode
      split_ifs with hfit
      · rw [List.append_assoc, List.singleton_append]
      · exact (List.Sublist.append_left (List.sublist_cons_self it l) p.items).subperm

/-- One round takes candidates of its component only, each once. -/
lemma fillComponent_subperm (p : Packed) (c : Component) :
    (fillComponent budget p c).items.Subperm (p.items ++ c.items) := by
  unfold fillComponent
  split_ifs with hfit
  · exact List.Subperm.refl _
  · refine (foldl_fillNode_subperm p _).trans ?_
    exact ((sortDesc_perm nodeKey c.items).append_left p.items).subperm

lemma foldl_fillComponent_subperm (p : Packed) (comps : List Component) :
    (comps.foldl (fillComponent budget) p).items.Subperm
      (p.items ++ (comps.map Component.items).flatten) := by
  induction comps generalizing p with
  | nil => simpa using List.Subperm.refl p.items
  | cons c comps ih =>
      refine (ih (fillComponent budget p c)).trans ?_
      rw [List.map_cons, List.flatten_cons, ← List.append_assoc]
      exact (fillComponent_subperm p c).append (List.Subperm.refl _)

/-- When the refill leaves the result empty, none of the candidates fits. -/
lemma foldl_fillNode_eq_nil {p : Packed} {l : List Item}
    (h : (l.foldl (fillNode budget) p).items = []) :
    p.items = [] ∧ ∀ it ∈ l, budget < (p.cost : ℤ) + it.cost := by
  induction l generalizing p with
  | nil => exact ⟨h, by nofun⟩
  | cons it l ih =>
      obtain ⟨hnil, hall⟩ := ih h
      by_cases hfit : (p.cost : ℤ) + it.cost ≤ budget
      · rw [fillNode, if_pos hfit] at hnil
        exact absurd hnil (by simp)
      · rw [fillNode, if_neg hfit] at hnil hall
        refine ⟨hnil, fun it' hit' => ?_⟩
        rcases List.mem_cons.mp hit' with rfl | hit'
        · omega
        · exact hall it' hit'

/-- When a round leaves the result empty, nothing of its component fits. -/
lemma fillComponent_eq_nil {p : Packed} {c : Component}
    (h : (fillComponent budget p c).items = []) :
    p.items = [] ∧ ∀ it ∈ c.items, budget < (p.cost : ℤ) + it.cost := by
  unfold fillComponent at h
  split_ifs at h with hfit
  · obtain ⟨hp, hc⟩ := List.append_eq_nil_iff.mp h
    refine ⟨hp, ?_⟩
    rw [hc]
    nofun
  · obtain ⟨hp, hall⟩ := foldl_fillNode_eq_nil h
    exact ⟨hp, fun it hit => hall it ((sortDesc_perm nodeKey c.items).mem_iff.mpr hit)⟩

lemma foldl_fillComponent_eq_nil {p : Packed} {comps : List Component} (hp : Within budget p)
    (hcomps : ∀ c ∈ comps, c.cost = (c.items.map Item.cost).sum)
    (h : (comps.foldl (fillComponent budget) p).items = []) :
    p.items = [] ∧ ∀ c ∈ comps, ∀ it ∈ c.items, budget < (it.cost : ℤ) := by
  induction comps generalizing p with
  | nil => exact ⟨h, by nofun⟩
  | cons c comps ih =>
      obtain ⟨hnil, hall⟩ := ih (within_fillComponent hp (hcomps c List.mem_cons_self))
        (fun c' hc' => hcomps c' (List.mem_cons_of_mem c hc')) h
      obtain ⟨hpnil, hthis⟩ := fillComponent_eq_nil hnil
      have hzero : p.cost = 0 := by
        rw [hp.1, hpnil]
        rfl
      refine ⟨hpnil, fun c' hc' it hit => ?_⟩
      rcases List.mem_cons.mp hc' with rfl | hc'
      · have hlt := hthis it hit
        omega
      · exact hall c' hc' it hit

lemma firstMax_mem {α : Type*} (key : α → PyFloat × PyFloat) (a : α) (l : List α) :
    firstMax key a l ∈ a :: l := by
  unfold firstMax
  induction l generalizing a with
  | nil => exact List.mem_singleton_self a
  | cons b l ih =>
      rw [List.foldl_cons]
      split_ifs with hlt
      · exact List.mem_cons_of_mem a (ih b)
      · rcases List.mem_cons.mp (ih a) with h | h
        · rw [h]
          exact List.mem_cons_self
        · exact List.mem_cons_of_mem a (List.mem_cons_of_mem b h)

/-- The packed candidates: each once, and within the budget unless the densest candidate stands
for a lack of any that fits. -/
lemma packItems_spec {items : List Item} {comps : List Component}
    (h : evaluated env items = some comps) :
    (packItems budget items comps).Subperm items ∧
    ((((packItems budget items comps).map Item.cost).sum : ℤ) ≤ max budget 0 ∨
      0 < budget ∧ (packItems budget items comps).length = 1 ∧
        ∀ it ∈ items, budget < (it.cost : ℤ)) := by
  obtain ⟨hperm, hcost⟩ := evaluated_spec h
  have hempty : Within budget ⟨[], 0⟩ := ⟨rfl, by simp⟩
  have hwithin := within_foldl hempty hcost
  have hsub := @foldl_fillComponent_subperm budget ⟨[], 0⟩ comps
  rw [List.nil_append] at hsub
  have hnil := fun hnil => (foldl_fillComponent_eq_nil hempty hcost hnil).2
  unfold packItems
  generalize comps.foldl (fillComponent budget) ⟨[], 0⟩ = packed at *
  have hpacked : (((packed.items).map Item.cost).sum : ℤ) ≤ max budget 0 := by
    have hle := hwithin.2
    rwa [hwithin.1] at hle
  by_cases hitems : packed.items = []
  · rw [if_pos (List.isEmpty_iff.mpr hitems)]
    cases items with
    | nil => exact ⟨List.Subperm.refl _, Or.inl (by simp [lastResort])⟩
    | cons it rest =>
        by_cases hb : 0 < budget
        · rw [lastResort, if_pos hb]
          refine ⟨List.singleton_subperm_iff.mpr (firstMax_mem nodeKey it rest), Or.inr ?_⟩
          refine ⟨hb, rfl, fun it' hit' => ?_⟩
          obtain ⟨l, hl, hmem⟩ := List.mem_flatten.mp (hperm.mem_iff.mpr hit')
          obtain ⟨c, hc, rfl⟩ := List.mem_map.mp hl
          exact hnil hitems c hc it' hmem
        · rw [lastResort, if_neg hb]
          exact ⟨List.nil_subperm, Or.inl (by simp)⟩
  · rw [if_neg (fun h => hitems (List.isEmpty_iff.mp h))]
    exact ⟨hsub.trans hperm.subperm, Or.inl hpacked⟩

/-! ## The result -/

lemma dedup_sublist {docs survivors : List PackRecord}
    (h : semanticDedup env docs = some survivors) : survivors.Sublist docs := by
  unfold semanticDedup at h
  split_ifs at h with hoff
  · rw [Option.some.injEq] at h
    rw [h]
  · obtain ⟨dropped, -, h⟩ := Option.bind_eq_some_iff.mp h
    rw [Option.pure_def, Option.some.injEq] at h
    rw [← h]
    refine (List.filter_sublist.map Prod.fst).trans ?_
    rw [List.zipIdx_map_fst]

lemma getElem?_effRecords {compact : Bool} {survivors : List PackRecord} {i : ℕ}
    {r : PackRecord} (h : (effRecords env.rt budget compact survivors)[i]? = some r) :
    ∃ s, survivors[i]? = some s ∧ (r = s ∨ compact = true ∧ r = compactRecord env.rt s) := by
  unfold effRecords at h
  split_ifs at h with hcompact
  · rw [List.getElem?_map] at h
    obtain ⟨s, hs, rfl⟩ := Option.map_eq_some_iff.mp h
    exact ⟨s, hs, Or.inr ⟨hcompact.1, rfl⟩⟩
  · exact ⟨r, h, Or.inl rfl⟩

/-- No candidate fits the budget alone. -/
def NothingFits (env : PackEnv) (budget : ℤ) (candidates : List PackRecord) : Prop :=
  ∀ r ∈ candidates, ∀ x, rank env r = some x → x.ge (.finite 0) = true →
    budget < (estimateTokens env.rt r : ℤ)

/-- The packed records stand at distinct positions of the records that were left after the removal
of variants, and their tokens are within the budget, unless nothing fits and one record is packed
in spite of it. -/
theorem packKnapsack01_budget {records packed : List PackRecord} {compact : Bool}
    (h : packKnapsack01 env records budget compact = some packed) :
    ∃ survivors, semanticDedup env records = some survivors ∧ survivors.Sublist records ∧
      (∃ chosen : List (ℕ × PackRecord), packed = chosen.map Prod.snd ∧
        (chosen.map Prod.fst).Nodup ∧
        ∀ c ∈ chosen, ∃ s, survivors[c.1]? = some s ∧
          (c.2 = s ∨ compact = true ∧ c.2 = compactRecord env.rt s)) ∧
      (((packed.map (estimateTokens env.rt)).sum : ℤ) ≤ max budget 0 ∨
        0 < budget ∧ packed.length = 1 ∧
          NothingFits env budget (effRecords env.rt budget compact survivors)) := by
  obtain ⟨survivors, hsurvivors, h⟩ := Option.bind_eq_some_iff.mp h
  obtain ⟨items, hitems, h⟩ := Option.bind_eq_some_iff.mp h
  obtain ⟨comps, hcomps, h⟩ := Option.bind_eq_some_iff.mp h
  rw [Option.pure_def, Option.some.injEq] at h
  obtain ⟨hindex, hrecord, hall⟩ := validItems_spec hitems
  obtain ⟨hsub, hbudget⟩ := @packItems_spec _ budget _ _ hcomps
  have hsorted := sortDesc_perm (fun it => (it.rank, .finite 0)) (packItems budget items comps)
  generalize sortDesc (fun it => (it.rank, PyFloat.finite 0))
    (packItems budget items comps) = sorted at h hsorted
  have hmem : ∀ it ∈ sorted, it ∈ items := fun it hit =>
    hsub.subset (hsorted.mem_iff.mp hit)
  have hcosts : packed.map (estimateTokens env.rt) = sorted.map Item.cost := by
    rw [← h, List.map_map]
    exact List.map_congr_left fun it hit => (hrecord it (hmem it hit)).2.symm
  refine ⟨survivors, hsurvivors, dedup_sublist hsurvivors,
    ⟨sorted.map fun it => (it.index, it.record), ?_, ?_, ?_⟩, ?_⟩
  · rw [← h, List.map_map]
    rfl
  · rw [List.map_map]
    obtain ⟨l, hl, hsublist⟩ := hsub
    have hnodup : (l.map Item.index).Nodup := hindex.sublist (hsublist.map Item.index)
    exact (((hl.trans hsorted.symm).map Item.index).nodup_iff).mp hnodup
  · intro c hc
    obtain ⟨it, hit, rfl⟩ := List.mem_map.mp hc
    exact getElem?_effRecords (hrecord it (hmem it hit)).1
  · rw [hcosts, (hsorted.map Item.cost).sum_eq]
    rcases hbudget with hle | ⟨hb, hlen, hnone⟩
    · exact Or.inl hle
    · refine Or.inr ⟨hb, ?_, fun r hr x hx hge => ?_⟩
      · rw [← h, List.length_map, hsorted.length_eq, hlen]
      · obtain ⟨it, hit, hcost⟩ := hall r hr x hx hge
        rw [← hcost]
        exact hnone it hit

/-! ## A budget that no record fits -/

/-- An environment that ranks all records alike and finds no variants. -/
def sampleEnv : PackEnv where
  rt := .sample
  lower := id
  entityRoot := id
  bagCosine := fun _ _ => .finite 0
  dedupSim := .finite (88 / 100)
  decay := fun _ => .finite 1
  recordRank := fun _ => .finite 1
  iterate := id
  mem_iterate := fun _ _ => Iff.rfl

def portRecord : PackRecord where
  isDict := true
  isModel := false
  fields := .ofEntries [("subject", .str "port"), ("object", .str "5432")]

/-- The record is packed into a budget of one token, though it takes five. -/
theorem packKnapsack01_exceeds_budget : ¬ ∀ (env : PackEnv) (records packed : List PackRecord)
    (budget : ℤ) (compact : Bool), packKnapsack01 env records budget compact = some packed →
    ((packed.map (estimateTokens env.rt)).sum : ℤ) ≤ max budget 0 := by
  intro hall
  have hrun : (packKnapsack01 sampleEnv [portRecord] 1 false).map (fun packed =>
      (packed.map (estimateTokens sampleEnv.rt)).sum) = some 5 := by decide +kernel
  obtain ⟨packed, hpacked, hsum⟩ := Option.map_eq_some_iff.mp hrun
  have hle := hall sampleEnv [portRecord] packed 1 false hpacked
  rw [hsum] at hle
  exact absurd hle (by decide)

/-- A budget of six tokens has room for the record. -/
theorem packKnapsack01_budget_portRecord : ∃ packed,
    packKnapsack01 sampleEnv [portRecord] 6 true = some packed ∧
    ∃ survivors, semanticDedup sampleEnv [portRecord] = some survivors ∧
      survivors.Sublist [portRecord] ∧
      (∃ chosen : List (ℕ × PackRecord), packed = chosen.map Prod.snd ∧
        (chosen.map Prod.fst).Nodup ∧
        ∀ c ∈ chosen, ∃ s, survivors[c.1]? = some s ∧
          (c.2 = s ∨ true = true ∧ c.2 = compactRecord sampleEnv.rt s)) ∧
      (((packed.map (estimateTokens sampleEnv.rt)).sum : ℤ) ≤ max 6 0 ∨
        (0 : ℤ) < 6 ∧ packed.length = 1 ∧
          NothingFits sampleEnv 6 (effRecords sampleEnv.rt 6 true survivors)) := by
  have hrun : (packKnapsack01 sampleEnv [portRecord] 6 true).isSome = true := by decide +kernel
  obtain ⟨packed, hpacked⟩ := Option.isSome_iff_exists.mp hrun
  exact ⟨packed, hpacked, packKnapsack01_budget hpacked⟩

end Packing

end AtlasMemory
