import AtlasMemory.Foundations.PyDict
import AtlasMemory.Foundations.Walks
import Mathlib.Algebra.BigOperators.Group.List.Basic
import Mathlib.Algebra.Order.BigOperators.Group.List
import Mathlib.Algebra.Order.Ring.Rat
import Mathlib.Tactic.Linarith

/-!
# The fronts of a wave in a weighted graph

A wave starts at a node with the strength one.  In each round it passes along every edge that leaves
its front, weakened by the weight of the edge, and what arrives at one node adds up, to one at most.

The front after `n` rounds are the ends of the walks of `n` edges.  Its strength at a node is at
least the product of the weights along each of these walks, and it is that product where there is
only one such walk: `IsFront.next`.
-/

namespace WaveFronts

open Walks

variable {α ε : Type*} [DecidableEq α] (out : α → List ε) (target : ε → α) (weight : ε → ℚ)

/-- What arrives in a round, in the order of the front and of the edges. -/
def arrivals (front : PyDict α ℚ) : List (α × ℚ) :=
  front.entries.flatMap fun x => (out x.1).map fun e => (target e, x.2 * weight e)

def arrivalsAt (front : PyDict α ℚ) (v : α) : List ℚ :=
  ((arrivals out target weight front).filter (·.1 = v)).map Prod.snd

/-- The strength at a node after one more arrival. -/
def gathered (strength : Option ℚ) (t : ℚ) : ℚ := min 1 (strength.getD 0 + t)

/-- A loop that sets the value of a key from its value before, for each item of a list. -/
def updateAll {ν : Type*} (f : Option ν → ℚ → ν) (items : List (α × ℚ)) (d : PyDict α ν) :
    PyDict α ν :=
  items.foldl (fun d c => d.set c.1 (f (d.get? c.1) c.2)) d

def nextFront (front : PyDict α ℚ) : PyDict α ℚ :=
  updateAll gathered (arrivals out target weight front) ∅

/-- The product of the weights along a walk. -/
def productOf (p : List ε) : ℚ := (p.map weight).prod

/-- The front after `n` rounds of a wave from `start`. -/
structure IsFront (start : α) (n : ℕ) (front : PyDict α ℚ) : Prop where
  mem_iff : ∀ v, v ∈ front.keys ↔ ∃ p, p.length = n ∧ IsWalk out target start p v
  unit : ∀ v x, front.get? v = some x → 0 ≤ x ∧ x ≤ 1
  lower : ∀ v x p, front.get? v = some x → p.length = n → IsWalk out target start p v →
    productOf weight p ≤ x
  exact : (∀ u, (out u).Nodup) → ∀ v x, front.get? v = some x →
    (∀ p q, p.length = n → q.length = n → IsWalk out target start p v →
      IsWalk out target start q v → p = q) →
    ∃ p, p.length = n ∧ IsWalk out target start p v ∧ productOf weight p = x

variable {out target weight} {front : PyDict α ℚ} {start : α} {n : ℕ}

/-! ## What arrives -/

lemma get?_updateAll {ν : Type*} (f : Option ν → ℚ → ν) (items : List (α × ℚ)) (d : PyDict α ν)
    (v : α) : (updateAll f items d).get? v =
      ((items.filter (·.1 = v)).map Prod.snd).foldl (fun o t => some (f o t)) (d.get? v) := by
  induction items generalizing d with
  | nil => rfl
  | cons c items ih =>
      have hstep := ih (d.set c.1 (f (d.get? c.1) c.2))
      rw [PyDict.get?_set] at hstep
      by_cases hc : c.1 = v
      · have hkeep : (c :: items).filter (·.1 = v) = c :: items.filter (·.1 = v) :=
          List.filter_cons_of_pos (by simpa using hc)
        rw [if_pos hc, hc] at hstep
        rw [hkeep, List.map_cons, List.foldl_cons, ← hstep, ← hc]
        rfl
      · have hdrop : (c :: items).filter (·.1 = v) = items.filter (·.1 = v) :=
          List.filter_cons_of_neg (by simpa using hc)
        rw [if_neg hc] at hstep
        rw [hdrop]
        exact hstep

lemma mem_arrivalsAt {v : α} {t : ℚ} : t ∈ arrivalsAt out target weight front v ↔
    ∃ u x, front.get? u = some x ∧ ∃ e ∈ out u, target e = v ∧ x * weight e = t := by
  simp only [arrivalsAt, arrivals, List.mem_map, List.mem_filter, List.mem_flatMap,
    decide_eq_true_eq]
  constructor
  · rintro ⟨c, ⟨⟨⟨u, x⟩, hx, e, he, rfl⟩, hv⟩, rfl⟩
    exact ⟨u, x, PyDict.mem_entries_iff.mp hx, e, he, hv, rfl⟩
  · rintro ⟨u, x, hx, e, he, rfl, rfl⟩
    exact ⟨_, ⟨⟨(u, x), PyDict.mem_entries_iff.mpr hx, e, he, rfl⟩, rfl⟩, rfl⟩

/-- The arrivals at a node as a list of pairs of a node of the front and an edge. -/
lemma arrivalsAt_eq (front : PyDict α ℚ) (v : α) : arrivalsAt out target weight front v =
    (front.entries.flatMap fun x => ((out x.1).filter (target · = v)).map fun e => (x, e)).map
      fun c => c.1.2 * weight c.2 := by
  unfold arrivalsAt arrivals
  rw [List.filter_flatMap, List.map_flatMap, List.map_flatMap]
  refine congrArg List.flatten (List.map_congr_left fun x _ => ?_)
  rw [List.filter_map, List.map_map, List.map_map]
  rfl

lemma nodup_pairs (hout : ∀ u, (out u).Nodup) (front : PyDict α ℚ) (v : α) :
    (front.entries.flatMap fun x =>
      ((out x.1).filter (target · = v)).map fun e => (x, e)).Nodup := by
  refine List.nodup_flatMap.mpr ⟨fun x _ => ?_, ?_⟩
  · exact ((hout x.1).filter _).map fun e e' h => (Prod.ext_iff.mp h).2
  · have hentries : front.entries.Nodup := List.Nodup.of_map Prod.fst front.nodupKeys
    refine hentries.imp fun {x y} hxy => ?_
    rintro c hx hy
    obtain ⟨e, -, rfl⟩ := List.mem_map.mp hx
    obtain ⟨e', -, heq⟩ := List.mem_map.mp hy
    exact hxy (Prod.ext_iff.mp heq).1.symm

/-- Sums that are capped in between are the capped sum. -/
lemma foldl_gathered {ts : List ℚ} (hts : ∀ t ∈ ts, 0 ≤ t) (a : ℚ) :
    ts.foldl (fun o t => some (gathered o t)) (some (min 1 a)) = some (min 1 (a + ts.sum)) := by
  induction ts generalizing a with
  | nil => rw [List.foldl_nil, List.sum_nil, add_zero]
  | cons t ts ih =>
      obtain ⟨ht, hts⟩ := List.forall_mem_cons.mp hts
      have hcap : min 1 (min 1 a + t) = min 1 (a + t) := by
        rcases le_total 1 a with ha | ha
        · rw [min_eq_left ha, min_eq_left (by linarith), min_eq_left (by linarith)]
        · rw [min_eq_right ha]
      rw [List.foldl_cons, gathered, Option.getD_some, hcap, ih hts, List.sum_cons, add_assoc]

/-- The strength at a node: nothing without an arrival, and else the capped sum. -/
lemma get?_nextFront (v : α) (hnonneg : ∀ t ∈ arrivalsAt out target weight front v, 0 ≤ t) :
    (nextFront out target weight front).get? v =
      if arrivalsAt out target weight front v = [] then none
      else some (min 1 (arrivalsAt out target weight front v).sum) := by
  have hget : (nextFront out target weight front).get? v =
      (arrivalsAt out target weight front v).foldl (fun o t => some (gathered o t)) none :=
    get?_updateAll gathered _ ∅ v
  rw [hget]
  cases hlist : arrivalsAt out target weight front v with
  | nil => rfl
  | cons t ts =>
      rw [hlist] at hnonneg
      have hfirst : gathered none t = min 1 t := by rw [gathered, Option.getD_none, zero_add]
      rw [if_neg (List.cons_ne_nil t ts), List.foldl_cons, hfirst,
        foldl_gathered (List.forall_mem_cons.mp hnonneg).2, List.sum_cons]

/-! ## Walks of one more edge -/

omit [DecidableEq α] in
lemma exists_walk_succ {v : α} : (∃ p, p.length = n + 1 ∧ IsWalk out target start p v) ↔
    ∃ u, (∃ p, p.length = n ∧ IsWalk out target start p u) ∧ ∃ e ∈ out u, target e = v := by
  constructor
  · rintro ⟨p, hlen, hp⟩
    obtain ⟨q, e, rfl⟩ := (List.eq_nil_or_concat p).resolve_left (by rintro rfl; simp at hlen)
    rw [List.concat_eq_append, isWalk_concat] at hp
    obtain ⟨u, hq, he, hv⟩ := hp
    rw [List.length_concat] at hlen
    exact ⟨u, ⟨q, Nat.succ.inj hlen, hq⟩, e, he, hv⟩
  · rintro ⟨u, ⟨p, hlen, hp⟩, e, he, hv⟩
    exact ⟨p ++ [e], by rw [List.length_append, hlen]; rfl, isWalk_concat.mpr ⟨u, hp, he, hv⟩⟩

lemma productOf_concat (p : List ε) (e : ε) :
    productOf weight (p ++ [e]) = productOf weight p * weight e := by
  simp [productOf]

lemma isFront_start : IsFront out target weight start 0 ((∅ : PyDict α ℚ).set start 1) := by
  have hget : ∀ v, ((∅ : PyDict α ℚ).set start 1).get? v = if start = v then some 1 else none :=
    fun v => PyDict.get?_set ∅ start v 1
  have hzero : ∀ {p : List ε} {v : α}, p.length = 0 → IsWalk out target start p v →
      p = [] ∧ start = v := by
    intro p v hlen hp
    obtain rfl := List.length_eq_zero_iff.mp hlen
    exact ⟨rfl, hp⟩
  have hone : ∀ {v x}, ((∅ : PyDict α ℚ).set start 1).get? v = some x → start = v ∧ x = 1 := by
    intro v x h
    rw [hget] at h
    split_ifs at h with hv
    exact ⟨hv, (Option.some.inj h).symm⟩
  refine ⟨fun v => ?_, fun v x h => ?_, fun v x p h hlen hp => ?_, fun _ v x h _ => ?_⟩
  · rw [PyDict.mem_keys_iff, hget]
    constructor
    · intro h
      split_ifs at h with hv
      · exact ⟨[], rfl, hv⟩
      · cases h
    · rintro ⟨p, hlen, hp⟩
      rw [if_pos (hzero hlen hp).2]
      rfl
  · rw [(hone h).2]
    exact ⟨zero_le_one, le_refl 1⟩
  · rw [(hone h).2, (hzero hlen hp).1]
    exact le_refl 1
  · obtain ⟨hv, rfl⟩ := hone h
    exact ⟨[], rfl, hv, rfl⟩

section Next

variable (hweight : ∀ u, ∀ e ∈ out u, 0 ≤ weight e ∧ weight e ≤ 1)
  (h : IsFront out target weight start n front)
include hweight h

lemma IsFront.unit_of_mem_arrivalsAt {v : α} {t : ℚ}
    (ht : t ∈ arrivalsAt out target weight front v) : 0 ≤ t ∧ t ≤ 1 := by
  obtain ⟨u, x, hx, e, he, -, rfl⟩ := mem_arrivalsAt.mp ht
  obtain ⟨hx0, hx1⟩ := h.unit u x hx
  obtain ⟨he0, he1⟩ := hweight u e he
  exact ⟨mul_nonneg hx0 he0, mul_le_one₀ hx1 he0 he1⟩

/-- A walk of one more edge arrives with the product of its weights at least. -/
lemma IsFront.exists_arrival {v : α} {p : List ε} (hlen : p.length = n + 1)
    (hp : IsWalk out target start p v) :
    ∃ t ∈ arrivalsAt out target weight front v, productOf weight p ≤ t := by
  obtain ⟨q, e, rfl⟩ := (List.eq_nil_or_concat p).resolve_left (by rintro rfl; simp at hlen)
  rw [List.concat_eq_append] at hp hlen ⊢
  obtain ⟨u, hq, he, hv⟩ := isWalk_concat.mp hp
  rw [List.length_append] at hlen
  have hqlen : q.length = n := Nat.succ.inj hlen
  obtain ⟨x, hx⟩ := Option.isSome_iff_exists.mp
    (PyDict.mem_keys_iff.mp ((h.mem_iff u).mpr ⟨q, hqlen, hq⟩))
  refine ⟨x * weight e, mem_arrivalsAt.mpr ⟨u, x, hx, e, he, hv, rfl⟩, ?_⟩
  rw [productOf_concat]
  exact mul_le_mul_of_nonneg_right (h.lower u x q hx hqlen hq) (hweight u e he).1

omit hweight in
/-- Where only one walk of one more edge ends, it arrives alone and with the product of its
weights. -/
lemma IsFront.arrivalsAt_of_unique (hout : ∀ u, (out u).Nodup) {v : α}
    (hne : arrivalsAt out target weight front v ≠ [])
    (hunique : ∀ p q, p.length = n + 1 → q.length = n + 1 → IsWalk out target start p v →
      IsWalk out target start q v → p = q) :
    ∃ p, p.length = n + 1 ∧ IsWalk out target start p v ∧
      arrivalsAt out target weight front v = [productOf weight p] := by
  have hpair : ∀ c ∈ front.entries.flatMap (fun x =>
      ((out x.1).filter (target · = v)).map fun e => (x, e)),
      front.get? c.1.1 = some c.1.2 ∧ c.2 ∈ out c.1.1 ∧ target c.2 = v ∧
        ∃ p, p.length = n ∧ IsWalk out target start p c.1.1 := by
    intro c hc
    obtain ⟨x, hx, hc⟩ := List.mem_flatMap.mp hc
    obtain ⟨e, he, rfl⟩ := List.mem_map.mp hc
    obtain ⟨he, hv⟩ := List.mem_filter.mp he
    exact ⟨PyDict.mem_entries_iff.mp hx, he, of_decide_eq_true hv,
      (h.mem_iff x.1).mp (List.mem_map_of_mem hx)⟩
  have hnodup := @nodup_pairs _ _ _ _ target hout front v
  rw [arrivalsAt_eq] at hne ⊢
  generalize front.entries.flatMap (fun x =>
    ((out x.1).filter (target · = v)).map fun e => (x, e)) = pairs at hpair hnodup hne ⊢
  have hpairs : pairs ≠ [] := fun hnil => hne (congrArg (List.map _) hnil)
  obtain ⟨c, rest, rfl⟩ := List.exists_cons_of_ne_nil hpairs
  obtain ⟨hx, he, hv, p, hlen, hp⟩ := hpair c List.mem_cons_self
  have hwalk : ∀ d ∈ c :: rest, ∀ q, q.length = n → IsWalk out target start q d.1.1 →
      q ++ [d.2] = p ++ [c.2] := by
    intro d hd q hq hwalk
    obtain ⟨-, hde, hdv, -⟩ := hpair d hd
    refine hunique _ _ (by simp [hq]) (by simp [hlen]) ?_ ?_
    · exact isWalk_concat.mpr ⟨_, hwalk, hde, hdv⟩
    · exact isWalk_concat.mpr ⟨_, hp, he, hv⟩
  have hrest : rest = [] := by
    refine List.eq_nil_iff_forall_not_mem.mpr fun d hd => ?_
    obtain ⟨hdx, -, -, q, hq, hqw⟩ := hpair d (List.mem_cons_of_mem c hd)
    have heq := hwalk d (List.mem_cons_of_mem c hd) q hq hqw
    obtain ⟨rfl, hedge⟩ := List.append_inj' heq rfl
    have hnode : d.1.1 = c.1.1 := hqw.end_unique hp
    rw [hnode, hx] at hdx
    have hdc : d = c := Prod.ext (Prod.ext hnode (Option.some.inj hdx).symm)
      (List.cons.inj hedge).1
    exact (List.nodup_cons.mp hnodup).1 (hdc ▸ hd)
  obtain ⟨q, hq, hqw, hprod⟩ := h.exact hout c.1.1 c.1.2 hx fun q q' hq hq' hw hw' =>
    (List.append_inj' ((hwalk c List.mem_cons_self q hq hw).trans
      (hwalk c List.mem_cons_self q' hq' hw').symm) rfl).1
  refine ⟨q ++ [c.2], by simp [hq], isWalk_concat.mpr ⟨_, hqw, he, hv⟩, ?_⟩
  rw [hrest, productOf_concat, hprod]
  rfl

/-- **The next round makes the next front.** -/
lemma IsFront.next :
    IsFront out target weight start (n + 1) (nextFront out target weight front) := by
  have hget : ∀ v, (nextFront out target weight front).get? v =
      if arrivalsAt out target weight front v = [] then none
      else some (min 1 (arrivalsAt out target weight front v).sum) := fun v =>
    get?_nextFront v fun t ht => (h.unit_of_mem_arrivalsAt hweight ht).1
  have hsum : ∀ v, ∀ t ∈ arrivalsAt out target weight front v,
      t ≤ (arrivalsAt out target weight front v).sum := fun v t ht =>
    List.single_le_sum (fun s hs => (h.unit_of_mem_arrivalsAt hweight hs).1) t ht
  have hsome : ∀ {v x}, (nextFront out target weight front).get? v = some x →
      arrivalsAt out target weight front v ≠ [] ∧
        x = min 1 (arrivalsAt out target weight front v).sum := by
    intro v x hx
    rw [hget] at hx
    split_ifs at hx with hnil
    exact ⟨hnil, (Option.some.inj hx).symm⟩
  refine ⟨fun v => ?_, fun v x hx => ?_, fun v x p hx hlen hp => ?_,
    fun hout v x hx hunique => ?_⟩
  · rw [exists_walk_succ, PyDict.mem_keys_iff, hget]
    have hiff : arrivalsAt out target weight front v ≠ [] ↔
        ∃ u, (∃ p, p.length = n ∧ IsWalk out target start p u) ∧ ∃ e ∈ out u, target e = v := by
      constructor
      · intro hne
        obtain ⟨t, ht⟩ := List.exists_mem_of_ne_nil _ hne
        obtain ⟨u, x, hx, e, he, hv, -⟩ := mem_arrivalsAt.mp ht
        exact ⟨u, (h.mem_iff u).mp (PyDict.mem_keys_of_get? hx), e, he, hv⟩
      · rintro ⟨u, hu, e, he, hv⟩
        obtain ⟨x, hx⟩ := Option.isSome_iff_exists.mp
          (PyDict.mem_keys_iff.mp ((h.mem_iff u).mpr hu))
        exact List.ne_nil_of_mem (mem_arrivalsAt.mpr ⟨u, x, hx, e, he, hv, rfl⟩)
    rw [← hiff]
    split_ifs with hnil
    · simp [hnil]
    · simp [hnil]
  · obtain ⟨hne, rfl⟩ := hsome hx
    refine ⟨le_min zero_le_one (List.sum_nonneg fun t ht =>
      (h.unit_of_mem_arrivalsAt hweight ht).1), min_le_left _ _⟩
  · obtain ⟨-, rfl⟩ := hsome hx
    obtain ⟨t, ht, hle⟩ := h.exists_arrival hweight hlen hp
    exact le_min (hle.trans (h.unit_of_mem_arrivalsAt hweight ht).2) (hle.trans (hsum v t ht))
  · obtain ⟨hne, rfl⟩ := hsome hx
    obtain ⟨p, hlen, hp, harr⟩ := h.arrivalsAt_of_unique hout hne hunique
    refine ⟨p, hlen, hp, ?_⟩
    have hle : productOf weight p ≤ 1 :=
      (h.unit_of_mem_arrivalsAt hweight (harr ▸ List.mem_singleton.mpr rfl)).2
    rw [harr, List.sum_singleton, min_eq_right hle]

end Next

/-! ## Products of weights -/

lemma productOf_unit {p : List ε} (h : ∀ e ∈ p, 0 ≤ weight e ∧ weight e ≤ 1) :
    0 ≤ productOf weight p ∧ productOf weight p ≤ 1 := by
  induction p with
  | nil => exact ⟨zero_le_one, le_refl 1⟩
  | cons e p ih =>
      obtain ⟨⟨he0, he1⟩, hp⟩ := List.forall_mem_cons.mp h
      obtain ⟨ih0, ih1⟩ := ih hp
      exact ⟨mul_nonneg he0 ih0, mul_le_one₀ he1 ih0 ih1⟩

lemma productOf_le_of_sublist {p q : List ε} (hsub : q.Sublist p)
    (h : ∀ e ∈ p, 0 ≤ weight e ∧ weight e ≤ 1) : productOf weight p ≤ productOf weight q := by
  induction hsub with
  | slnil => exact le_refl _
  | @cons q p e hsub ih =>
      obtain ⟨⟨-, he1⟩, hp⟩ := List.forall_mem_cons.mp h
      exact (mul_le_of_le_one_left (productOf_unit hp).1 he1).trans (ih hp)
  | @cons_cons q p e hsub ih =>
      obtain ⟨⟨he0, -⟩, hp⟩ := List.forall_mem_cons.mp h
      exact mul_le_mul_of_nonneg_left (ih hp) he0

end WaveFronts
