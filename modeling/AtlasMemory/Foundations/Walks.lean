import Mathlib.Data.List.Nodup
import Mathlib.Data.List.Perm.Subperm
import Mathlib.Logic.Relation
import Mathlib.Tactic.Common

/-!
# Walks of a directed multigraph

A graph is given by the edges that leave each node and the node each edge leads to.  A walk is the
list of its edges, so that parallel edges make different walks.  A walk is simple when it meets no
node twice, its first node included.
-/

namespace Walks

variable {α ε : Type*} (out : α → List ε) (target : ε → α)

/-- `p` is the list of the edges of a walk from `a` to `b`. -/
def IsWalk : α → List ε → α → Prop
  | a, [], b => a = b
  | a, e :: p, b => e ∈ out a ∧ IsWalk (target e) p b

/-- The nodes of a walk from `a`. -/
def nodesOf (a : α) (p : List ε) : List α := a :: p.map target

/-- A walk that meets no node twice. -/
def IsSimpleWalk (a : α) (p : List ε) (b : α) : Prop :=
  IsWalk out target a p b ∧ (nodesOf target a p).Nodup

variable {out target}

@[simp] lemma isWalk_nil {a b : α} : IsWalk out target a [] b ↔ a = b := Iff.rfl

@[simp] lemma isWalk_cons {a b : α} {e : ε} {p : List ε} :
    IsWalk out target a (e :: p) b ↔ e ∈ out a ∧ IsWalk out target (target e) p b := Iff.rfl

lemma isWalk_append {a c : α} {p q : List ε} :
    IsWalk out target a (p ++ q) c ↔ ∃ b, IsWalk out target a p b ∧ IsWalk out target b q c := by
  induction p generalizing a with
  | nil => simp
  | cons e p ih => simp only [List.cons_append, isWalk_cons, ih, exists_and_left, and_assoc]

lemma isWalk_concat {a c : α} {p : List ε} {e : ε} :
    IsWalk out target a (p ++ [e]) c ↔
      ∃ b, IsWalk out target a p b ∧ e ∈ out b ∧ target e = c := by
  simp only [isWalk_append, isWalk_cons, isWalk_nil]

lemma IsWalk.end_eq {a b : α} {p : List ε} (h : IsWalk out target a p b) :
    b = (p.map target).getLastD a := by
  induction p generalizing a with
  | nil => exact (isWalk_nil.mp h).symm
  | cons e p ih =>
      rw [List.map_cons, List.getLastD_cons]
      exact ih h.2

lemma IsWalk.end_unique {a b c : α} {p : List ε} (hb : IsWalk out target a p b)
    (hc : IsWalk out target a p c) : b = c :=
  hb.end_eq.trans hc.end_eq.symm

lemma IsWalk.split {a b c : α} {p : List ε} (h : IsWalk out target a p b)
    (hc : c ∈ p.map target) :
    ∃ q r, p = q ++ r ∧ q ≠ [] ∧ IsWalk out target a q c ∧ IsWalk out target c r b := by
  obtain ⟨e, he, rfl⟩ := List.mem_map.mp hc
  obtain ⟨q, r, rfl⟩ := List.append_of_mem he
  obtain ⟨d, hq, hd, hr⟩ := isWalk_append.mp h
  refine ⟨q ++ [e], r, by simp, by simp, ?_, hr⟩
  exact isWalk_concat.mpr ⟨d, hq, hd, rfl⟩

/-- Every walk can be shortened to a simple one that uses no other edges. -/
lemma IsWalk.exists_simple {a b : α} {p : List ε} (h : IsWalk out target a p b) :
    ∃ q, IsSimpleWalk out target a q b ∧ q.Sublist p := by
  classical
  induction hn : p.length using Nat.strongRecOn generalizing a p with
  | _ n ih =>
      cases p with
      | nil => exact ⟨[], ⟨h, List.nodup_singleton a⟩, List.Sublist.refl _⟩
      | cons e p =>
          by_cases ha : a ∈ (e :: p).map target
          · -- the walk comes back to its first node: what it did before is left out
            obtain ⟨q, r, hqr, hq, -, hr⟩ := h.split ha
            have hlt : r.length < n := by
              have hlen := congrArg List.length hqr
              have hpos := List.length_pos_iff.mpr hq
              rw [List.length_append] at hlen
              omega
            obtain ⟨s, hs, hsub⟩ := ih r.length hlt hr rfl
            refine ⟨s, hs, hsub.trans ?_⟩
            rw [hqr]
            exact List.sublist_append_right q r
          · obtain ⟨q, hq, hsub⟩ := ih p.length (by rw [← hn, List.length_cons]; omega) h.2 rfl
            refine ⟨e :: q, ⟨⟨h.1, hq.1⟩, ?_⟩, hsub.cons_cons e⟩
            refine List.nodup_cons.mpr ⟨fun hmem => ha ?_, hq.2⟩
            rcases List.mem_cons.mp hmem with rfl | hmem
            · exact List.mem_cons_self
            · exact List.mem_cons_of_mem _ ((hsub.map target).subset hmem)

/-! ## Walks and closures of the relation between neighbours -/

/-- The walks whose nodes after the first satisfy `P` reach what the steps to such nodes reach. -/
lemma transGen_iff_exists_walk {P : α → Prop} {a b : α} :
    Relation.TransGen (fun x y => P y ∧ ∃ e ∈ out x, target e = y) a b ↔
      ∃ p, p ≠ [] ∧ IsWalk out target a p b ∧ ∀ x ∈ p.map target, P x := by
  constructor
  · intro h
    induction h using Relation.TransGen.head_induction_on with
    | single hab =>
        obtain ⟨hP, e, he, rfl⟩ := hab
        exact ⟨[e], by simp, ⟨he, rfl⟩, by simpa using hP⟩
    | head hac _ ih =>
        obtain ⟨hP, e, he, rfl⟩ := hac
        obtain ⟨p, -, hwalk, hall⟩ := ih
        exact ⟨e :: p, by simp, ⟨he, hwalk⟩, List.forall_mem_cons.mpr ⟨hP, hall⟩⟩
  · rintro ⟨p, hne, hwalk, hall⟩
    induction p generalizing a with
    | nil => exact absurd rfl hne
    | cons e p ih =>
        obtain ⟨hP, hall⟩ := List.forall_mem_cons.mp hall
        by_cases hp : p = []
        · subst hp
          exact Relation.TransGen.single ⟨(isWalk_nil.mp hwalk.2) ▸ hP, e, hwalk.1, hwalk.2⟩
        · exact Relation.TransGen.head ⟨hP, e, hwalk.1, rfl⟩ (ih hp hwalk.2 hall)

end Walks

/-!
## The enumeration of simple walks

A depth-first search that extends a walk by every edge to a node not visited yet yields each simple
walk of bounded length, every longer walk after the one that it extends.  It yields a walk as often
as its edges are listed, so once where no edge is listed twice.
-/

namespace Walks

variable {α ε : Type*} [DecidableEq α] (out : α → List ε) (target : ε → α)

/-- The walks of one to `n` edges from `a` that meet no node twice and none of those visited. -/
def extensions : ℕ → α → List α → List (List ε)
  | 0, _, _ => []
  | n + 1, a, visited =>
    (out a).flatMap fun e =>
      if target e ∈ visited then []
      else [e] :: (extensions n (target e) (target e :: visited)).map (e :: ·)

variable {out target}

lemma mem_extensions_succ {n : ℕ} {a : α} {visited : List α} {p : List ε} :
    p ∈ extensions out target (n + 1) a visited ↔ ∃ e q, p = e :: q ∧ e ∈ out a ∧
      target e ∉ visited ∧
        (q = [] ∨ q ∈ extensions out target n (target e) (target e :: visited)) := by
  simp only [extensions, List.mem_flatMap]
  refine exists_congr fun e => ?_
  split_ifs with hv
  · simp [hv]
  · simp only [List.mem_cons, List.mem_map]
    constructor
    · rintro ⟨he, rfl | ⟨q, hq, rfl⟩⟩
      · exact ⟨[], rfl, he, hv, Or.inl rfl⟩
      · exact ⟨q, rfl, he, hv, Or.inr hq⟩
    · rintro ⟨q, rfl, he, -, rfl | hq⟩
      · exact ⟨he, Or.inl rfl⟩
      · exact ⟨he, Or.inr ⟨q, hq, rfl⟩⟩

/-- The search is sound and complete. -/
lemma mem_extensions {n : ℕ} {a : α} {visited : List α} {p : List ε} :
    p ∈ extensions out target n a visited ↔ p ≠ [] ∧ p.length ≤ n ∧
      (∃ b, IsWalk out target a p b) ∧ (p.map target).Nodup ∧
        ∀ x ∈ p.map target, x ∉ visited := by
  induction n generalizing a visited p with
  | zero =>
      rw [extensions]
      refine iff_of_false List.not_mem_nil ?_
      rintro ⟨hne, hlen, -⟩
      exact hne (List.length_eq_zero_iff.mp (Nat.le_zero.mp hlen))
  | succ n ih =>
      rw [mem_extensions_succ]
      constructor
      · rintro ⟨e, q, rfl, he, hv, rfl | hq⟩
        · exact ⟨by simp, by simp, ⟨_, he, rfl⟩, by simp, by simpa using hv⟩
        · obtain ⟨-, hlen, ⟨b, hb⟩, hnodup, havoid⟩ := ih.mp hq
          refine ⟨by simp, Nat.succ_le_succ hlen, ⟨b, he, hb⟩, ?_, ?_⟩
          · exact List.nodup_cons.mpr ⟨fun h => havoid _ h List.mem_cons_self, hnodup⟩
          · refine List.forall_mem_cons.mpr ⟨hv, fun x hx hxv => ?_⟩
            exact havoid x hx (List.mem_cons_of_mem _ hxv)
      · rintro ⟨hne, hlen, ⟨b, hb⟩, hnodup, havoid⟩
        obtain ⟨e, q, rfl⟩ := List.exists_cons_of_ne_nil hne
        obtain ⟨hv, havoid⟩ := List.forall_mem_cons.mp havoid
        obtain ⟨hnew, hnodup⟩ := List.nodup_cons.mp hnodup
        refine ⟨e, q, rfl, hb.1, hv, ?_⟩
        by_cases hq : q = []
        · exact Or.inl hq
        · refine Or.inr (ih.mpr ⟨hq, Nat.le_of_succ_le_succ hlen, ⟨b, hb.2⟩, hnodup,
            fun x hx => ?_⟩)
          rw [List.mem_cons, not_or]
          exact ⟨fun h => hnew (h ▸ hx), havoid x hx⟩

/-- The walks from a node that is itself visited are the simple ones. -/
theorem mem_extensions_self {n : ℕ} {a : α} {p : List ε} :
    p ∈ extensions out target n a [a] ↔
      p ≠ [] ∧ p.length ≤ n ∧ ∃ b, IsSimpleWalk out target a p b := by
  rw [mem_extensions]
  refine and_congr_right fun _ => and_congr_right fun _ => ?_
  have hstart : (∀ x ∈ p.map target, x ∉ [a]) ↔ a ∉ p.map target := by
    simp only [List.mem_singleton]
    exact ⟨fun h ha => h a ha rfl, fun h x hx hxa => h (hxa ▸ hx)⟩
  rw [hstart]
  constructor
  · rintro ⟨⟨b, hb⟩, hnodup, ha⟩
    exact ⟨b, hb, List.nodup_cons.mpr ⟨ha, hnodup⟩⟩
  · rintro ⟨b, hb, hnodup⟩
    obtain ⟨ha, hnodup⟩ := List.nodup_cons.mp hnodup
    exact ⟨⟨b, hb⟩, hnodup, ha⟩

/-- Without edges that are listed twice no walk is yielded twice. -/
lemma nodup_extensions (hout : ∀ a, (out a).Nodup) (n : ℕ) (a : α) (visited : List α) :
    (extensions out target n a visited).Nodup := by
  induction n generalizing a visited with
  | zero => exact List.nodup_nil
  | succ n ih =>
      rw [extensions]
      refine List.nodup_flatMap.mpr ⟨fun e _ => ?_, ?_⟩
      · split_ifs
        · exact List.nodup_nil
        · refine List.nodup_cons.mpr ⟨?_, (ih _ _).map fun _ _ h => (List.cons.inj h).2⟩
          intro hmem
          obtain ⟨q, hq, hsame⟩ := List.mem_map.mp hmem
          exact (mem_extensions.mp hq).1 (List.cons.inj hsame).2
      · -- the walks begin with different edges
        refine (hout a).imp fun {e e'} hne => ?_
        intro p hp hp'
        have hhead : ∀ {d : ε}, p ∈ (if target d ∈ visited then [] else
            [d] :: (extensions out target n (target d) (target d :: visited)).map (d :: ·)) →
            p.head? = some d := by
          intro d hd
          split_ifs at hd
          · exact absurd hd List.not_mem_nil
          · rcases List.mem_cons.mp hd with rfl | hd
            · rfl
            · obtain ⟨q, -, rfl⟩ := List.mem_map.mp hd
              rfl
        exact hne (Option.some.inj ((hhead hp).symm.trans (hhead hp')))

/-! ## All walks -/

variable (out target)

/-- The walks of one to `n` edges from `a`. -/
def walksUpTo : ℕ → α → List (List ε)
  | 0, _ => []
  | n + 1, a => (out a).flatMap fun e => [e] :: (walksUpTo n (target e)).map (e :: ·)

variable {out target}

omit [DecidableEq α] in
lemma mem_walksUpTo {n : ℕ} {a : α} {p : List ε} : p ∈ walksUpTo out target n a ↔
    1 ≤ p.length ∧ p.length ≤ n ∧ ∃ b, IsWalk out target a p b := by
  induction n generalizing a p with
  | zero =>
      refine iff_of_false List.not_mem_nil ?_
      rintro ⟨hpos, hlen, -⟩
      omega
  | succ n ih =>
      simp only [walksUpTo, List.mem_flatMap, List.mem_cons, List.mem_map]
      constructor
      · rintro ⟨e, he, rfl | ⟨q, hq, rfl⟩⟩
        · exact ⟨by simp, by simp, _, he, rfl⟩
        · obtain ⟨-, hlen, b, hb⟩ := ih.mp hq
          exact ⟨by simp, by simpa using hlen, b, he, hb⟩
      · rintro ⟨hpos, hlen, b, hb⟩
        obtain ⟨e, q, rfl⟩ := List.exists_cons_of_ne_nil (List.length_pos_iff.mp hpos)
        refine ⟨e, hb.1, ?_⟩
        by_cases hq : q = []
        · exact Or.inl (by rw [hq])
        · exact Or.inr ⟨q, ih.mpr ⟨List.length_pos_iff.mpr hq, Nat.le_of_succ_le_succ hlen, b, hb.2⟩,
            rfl⟩

omit [DecidableEq α] in
lemma nodup_walksUpTo (hout : ∀ a, (out a).Nodup) (n : ℕ) (a : α) :
    (walksUpTo out target n a).Nodup := by
  induction n generalizing a with
  | zero => exact List.nodup_nil
  | succ n ih =>
      rw [walksUpTo]
      refine List.nodup_flatMap.mpr ⟨fun e _ => ?_, ?_⟩
      · refine List.nodup_cons.mpr ⟨?_, (ih _).map fun _ _ h => (List.cons.inj h).2⟩
        intro hmem
        obtain ⟨q, hq, hsame⟩ := List.mem_map.mp hmem
        have hpos := (mem_walksUpTo.mp hq).1
        rw [(List.cons.inj hsame).2] at hpos
        exact absurd hpos (by simp)
      · refine (hout a).imp fun {e e'} hne => ?_
        intro p hp hp'
        have hhead : ∀ {d : ε}, p ∈ [d] :: (walksUpTo out target n (target d)).map (d :: ·) →
            p.head? = some d := by
          intro d hd
          rcases List.mem_cons.mp hd with rfl | hd
          · rfl
          · obtain ⟨q, -, rfl⟩ := List.mem_map.mp hd
            rfl
        exact hne (Option.some.inj ((hhead hp).symm.trans (hhead hp')))

end Walks
