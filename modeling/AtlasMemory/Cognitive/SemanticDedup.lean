import AtlasMemory.Cognitive.PackingBudget
import AtlasMemory.Foundations.PyFloat
import AtlasMemory.Foundations.Representatives

/-!
# One record of each fact

The removal of variants joins the records that are variants of one fact, and keeps the freshest
record of each class.  The classes are the components of the graph of variants: the loop over the
pairs keeps the parents below their children, and each step joins two classes of representatives.

No edge is left between the records that are kept, so that a second removal finds nothing to remove.
A component may reach over the boundary between two slots, by an edge of similar texts; and this is
the only way in which a record is dropped for one of another slot.
-/

namespace AtlasMemory

namespace Packing

variable {env : PackEnv} {docs out : List PackRecord} {parents : List ℕ}

/-! ## Representatives -/

/-- No parent is greater than its child. -/
def Descending (parents : List ℕ) : Prop := ∀ i, parents.getD i i ≤ i

lemma findRoot_eq_find (h : Descending parents) (fuel i : ℕ) (hle : i ≤ fuel) :
    findRoot parents fuel i = find parents i := by
  induction i using Nat.strong_induction_on generalizing fuel with
  | _ i ih =>
    unfold find
    cases fuel with
    | zero =>
      obtain rfl : i = 0 := by omega
      rfl
    | succ fuel =>
      cases i with
      | zero =>
        have hp : parents.getD 0 0 = 0 := Nat.le_zero.mp (h 0)
        exact if_pos hp
      | succ i =>
        unfold findRoot
        dsimp only
        split_ifs with hp
        · rfl
        · have hlt : parents.getD (i + 1) (i + 1) ≤ i := by
            have := h (i + 1)
            omega
          rw [ih _ (by omega) fuel (by omega), ih _ (by omega) i hlt]

lemma find_of_root {i : ℕ} (h : parents.getD i i = i) : find parents i = i := by
  cases i with
  | zero => rfl
  | succ i => exact if_pos h

lemma find_parent (h : Descending parents) (i : ℕ) :
    find parents (parents.getD i i) = find parents i := by
  by_cases hp : parents.getD i i = i
  · rw [hp]
  · have hle := h i
    cases i with
    | zero => exact absurd (Nat.le_zero.mp hle) hp
    | succ i =>
      have hstep : find parents (i + 1) = findRoot parents i (parents.getD (i + 1) (i + 1)) :=
        if_neg hp
      rw [hstep, findRoot_eq_find h i _ (by omega)]

/-- The representative is its own parent, and not greater. -/
lemma find_spec (h : Descending parents) (i : ℕ) :
    parents.getD (find parents i) (find parents i) = find parents i ∧ find parents i ≤ i := by
  induction i using Nat.strong_induction_on with
  | _ i ih =>
    by_cases hp : parents.getD i i = i
    · rw [find_of_root hp]
      exact ⟨hp, le_rfl⟩
    · have hlt : parents.getD i i < i := lt_of_le_of_ne (h i) hp
      obtain ⟨hroot, hle⟩ := ih _ hlt
      rw [find_parent h] at hroot hle
      exact ⟨hroot, hle.trans hlt.le⟩

lemma find_of_length_le {i : ℕ} (h : parents.length ≤ i) : find parents i = i := by
  apply find_of_root
  rw [List.getD_eq_getElem?_getD, List.getElem?_eq_none h, Option.getD_none]

lemma getD_range (n i : ℕ) : (List.range n).getD i i = i := by
  rw [List.getD_eq_getElem?_getD]
  by_cases hi : i < n
  · rw [List.getElem?_range hi, Option.getD_some]
  · rw [List.getElem?_eq_none (by rw [List.length_range]; omega), Option.getD_none]

lemma descending_range (n : ℕ) : Descending (List.range n) := fun i => (getD_range n i).le

lemma find_range (n i : ℕ) : find (List.range n) i = i := find_of_root (getD_range n i)

lemma getD_set_of_lt {m M : ℕ} (hM : M < parents.length) (k : ℕ) :
    (parents.set M m).getD k k = if k = M then m else parents.getD k k := by
  rw [List.getD_eq_getElem?_getD, List.getElem?_set, List.getD_eq_getElem?_getD]
  by_cases hk : M = k
  · rw [if_pos hk, if_pos (hk ▸ hM), if_pos hk.symm, Option.getD_some]
  · rw [if_neg hk, if_neg (Ne.symm hk)]

/-- A union keeps the parents below their children, and joins the two classes. -/
lemma union_spec (h : Descending parents) {i j : ℕ} (hi : i < parents.length)
    (hj : j < parents.length) :
    Descending (union parents i j) ∧ (union parents i j).length = parents.length ∧
      find (union parents i j) = Representatives.join (find parents) i j := by
  obtain ⟨hrooti, hlei⟩ := find_spec h i
  obtain ⟨hrootj, hlej⟩ := find_spec h j
  unfold union Representatives.join
  dsimp only
  by_cases heq : find parents i = find parents j
  · rw [if_pos heq, heq, max_self, min_self]
    refine ⟨h, rfl, funext fun k => ?_⟩
    split_ifs with hk
    · exact hk
    · rfl
  rw [if_neg heq]
  -- the greater of the two roots becomes a child of the smaller one
  generalize hM : max (find parents i) (find parents j) = M
  generalize hm : min (find parents i) (find parents j) = m
  have hlt : m < M := by omega
  have hMlen : M < parents.length := by omega
  have hMroot : parents.getD M M = M := by
    rcases max_choice (find parents i) (find parents j) with hmax | hmax
    · rwa [← hM, hmax]
    · rwa [← hM, hmax]
  have hmroot : parents.getD m m = m := by
    rcases min_choice (find parents i) (find parents j) with hmin | hmin
    · rwa [← hm, hmin]
    · rwa [← hm, hmin]
  have hget := getD_set_of_lt (m := m) hMlen
  have hdesc : Descending (parents.set M m) := by
    intro k
    rw [hget]
    split_ifs with hk
    · omega
    · exact h k
  refine ⟨hdesc, List.length_set, funext fun k => ?_⟩
  have hm' : find (parents.set M m) m = m := by
    apply find_of_root
    rw [hget, if_neg hlt.ne, hmroot]
  induction k using Nat.strong_induction_on with
  | _ k ih =>
    by_cases hk : k = M
    · subst hk
      rw [find_of_root hMroot, if_pos rfl, ← find_parent hdesc, hget, if_pos rfl, hm']
    · by_cases hp : parents.getD k k = k
      · rw [find_of_root hp, if_neg hk]
        apply find_of_root
        rw [hget, if_neg hk, hp]
      · have hstep := ih _ (lt_of_le_of_ne (h k) hp)
        rw [find_parent h] at hstep
        rw [← find_parent hdesc, hget, if_neg hk, hstep]

/-! ## Components -/

section Components

variable (env docs)

/-- The removal of variants is switched on. -/
def Deduplicates : Prop :=
  ¬((PyFloat.finite 0).ge env.dedupSim = true ∨ env.dedupSim.ge (.finite 1) = true)

/-- The records at the two positions, in this order, are variants of one fact. -/
def Linked (i j : ℕ) : Prop :=
  Deduplicates env ∧ i < j ∧
    ∃ r s, docs[i]? = some r ∧ docs[j]? = some s ∧ sameFact env r s = true

/-- The two positions are in one component of the graph of variants. -/
def SameComponent : ℕ → ℕ → Prop := Relation.EqvGen (Linked env docs)

/-- The freshness of the record at a position. -/
def freshnessAt (i : ℕ) : Option (PyFloat × PyFloat) := docs[i]?.bind (freshnessKey env)

/-- The record at `i` is fresher than that at `c`. -/
def Fresher (i c : ℕ) : Prop :=
  ∃ ki kc, freshnessAt env docs i = some ki ∧ freshnessAt env docs c = some kc ∧
    PyFloat.pairLt kc ki = true

end Components

lemma mem_indexPairs {n i j : ℕ} : (i, j) ∈ indexPairs n ↔ i < j ∧ j < n := by
  unfold indexPairs
  rw [List.mem_flatMap]
  constructor
  · rintro ⟨a, ha, hmem⟩
    obtain ⟨b, hb, heq⟩ := List.mem_map.mp hmem
    obtain ⟨hrange, hlt⟩ := List.mem_filter.mp hb
    obtain ⟨rfl, rfl⟩ := Prod.mk.inj heq
    exact ⟨of_decide_eq_true hlt, List.mem_range.mp hrange⟩
  · rintro ⟨hlt, hj⟩
    refine ⟨i, List.mem_range.mpr (by omega), List.mem_map.mpr ⟨j, ?_, rfl⟩⟩
    exact List.mem_filter.mpr ⟨List.mem_range.mpr hj, decide_eq_true hlt⟩

def isVariantPair (env : PackEnv) (docs : List PackRecord) (p : ℕ × ℕ) : Bool :=
  match docs[p.1]?, docs[p.2]? with
  | some r, some s => sameFact env r s
  | _, _ => false

lemma isVariantPair_iff {p : ℕ × ℕ} :
    isVariantPair env docs p = true ↔
      ∃ r s, docs[p.1]? = some r ∧ docs[p.2]? = some s ∧ sameFact env r s = true := by
  unfold isVariantPair
  constructor
  · intro h
    split at h
    · rename_i r s hr hs
      exact ⟨r, s, hr, hs, h⟩
    · cases h
  · rintro ⟨r, s, hr, hs, h⟩
    rw [hr, hs]
    exact h

/-- The loop over pairs joins the classes of the variants among them. -/
lemma joinLoop_spec (ps : List (ℕ × ℕ)) (hps : ∀ p ∈ ps, p.1 < docs.length ∧ p.2 < docs.length)
    (hdesc : Descending parents) (hlen : parents.length = docs.length) :
    let joined := ps.foldl (fun parents p =>
      match docs[p.1]?, docs[p.2]? with
      | some r, some s => if sameFact env r s then union parents p.1 p.2 else parents
      | _, _ => parents) parents
    Descending joined ∧ joined.length = docs.length ∧
      find joined = (ps.filter (isVariantPair env docs)).foldl
        (fun r p => Representatives.join r p.1 p.2) (find parents) := by
  induction ps generalizing parents with
  | nil => exact ⟨hdesc, hlen, rfl⟩
  | cons p ps ih =>
    have hrest := fun q hq => hps q (List.mem_cons_of_mem p hq)
    obtain ⟨hi, hj⟩ := hps p List.mem_cons_self
    rw [List.foldl_cons]
    by_cases hp : isVariantPair env docs p = true
    · obtain ⟨r, s, hr, hs, hsame⟩ := isVariantPair_iff.mp hp
      obtain ⟨hdesc', hlen', hfind⟩ := union_spec hdesc (hlen ▸ hi) (hlen ▸ hj)
      rw [List.filter_cons_of_pos hp, List.foldl_cons, ← hfind, hr, hs]
      dsimp only
      rw [if_pos hsame]
      exact ih hrest hdesc' (hlen'.trans hlen)
    · have hstay : (match docs[p.1]?, docs[p.2]? with
          | some r, some s => if sameFact env r s then union parents p.1 p.2 else parents
          | _, _ => parents) = parents := by
        split
        · rename_i r s hr hs
          exact if_neg fun hsame => hp (isVariantPair_iff.mpr ⟨r, s, hr, hs, hsame⟩)
        · rfl
      rw [List.filter_cons_of_neg hp, hstay]
      exact ih hrest hdesc hlen

lemma joinVariants_spec (env : PackEnv) (docs : List PackRecord) :
    Descending (joinVariants env docs) ∧ (joinVariants env docs).length = docs.length ∧
      find (joinVariants env docs) = ((indexPairs docs.length).filter
        (isVariantPair env docs)).foldl (fun r p => Representatives.join r p.1 p.2) id := by
  have hid : find (List.range docs.length) = id := funext fun i => find_range _ i
  have hspec := @joinLoop_spec env docs _ (indexPairs docs.length)
    (fun p hp => by
      obtain ⟨hlt, hj⟩ := mem_indexPairs.mp hp
      exact ⟨by omega, hj⟩)
    (descending_range docs.length) List.length_range
  rw [hid] at hspec
  exact hspec

/-- Two positions have one representative exactly if they are in one component. -/
lemma find_eq_iff_component (h : Deduplicates env) (i j : ℕ) :
    find (joinVariants env docs) i = find (joinVariants env docs) j ↔ SameComponent env docs i j := by
  have hlinked : ∀ a b, (a, b) ∈ (indexPairs docs.length).filter (isVariantPair env docs) ↔
      Linked env docs a b := by
    intro a b
    rw [List.mem_filter, mem_indexPairs, isVariantPair_iff]
    constructor
    · rintro ⟨⟨hlt, -⟩, hvariant⟩
      exact ⟨h, hlt, hvariant⟩
    · rintro ⟨-, hlt, r, s, hr, hs, hsame⟩
      exact ⟨⟨hlt, (List.getElem?_eq_some_iff.mp hs).1⟩, r, s, hr, hs, hsame⟩
  obtain ⟨-, -, hfind⟩ := joinVariants_spec env docs
  rw [hfind, Representatives.foldl_join_eq_iff]
  constructor
  · intro hgen
    have hle : (fun a b => id a = id b ∨ (a, b) ∈ (indexPairs docs.length).filter
        (isVariantPair env docs)) ≤ Relation.EqvGen (Linked env docs) := by
      intro a b hab
      rcases hab with hab | hab
      · obtain rfl : a = b := hab
        exact .refl a
      · exact .rel a b ((hlinked a b).mp hab)
    exact Relation.EqvGen.eqvGen_le hle i j hgen
  · exact Relation.EqvGen.mono (fun a b hab => Or.inr ((hlinked a b).mpr hab)) i j

lemma lt_length_of_sameComponent {i j : ℕ} (h : SameComponent env docs i j) :
    i < docs.length ↔ j < docs.length := by
  have hlinked : ∀ a b, Linked env docs a b → a < docs.length ∧ b < docs.length := by
    rintro a b ⟨-, -, r, s, hr, hs, -⟩
    exact ⟨(List.getElem?_eq_some_iff.mp hr).1, (List.getElem?_eq_some_iff.mp hs).1⟩
  induction h with
  | rel a b hab => exact iff_of_true (hlinked a b hab).1 (hlinked a b hab).2
  | refl a => exact Iff.rfl
  | symm a b _ ih => exact ih.symm
  | trans a b c _ _ ih₁ ih₂ => exact ih₁.trans ih₂

lemma eq_of_sameComponent (hnone : ∀ i j, ¬Linked env docs i j) {i j : ℕ}
    (h : SameComponent env docs i j) : i = j := by
  induction h with
  | rel a b hab => exact absurd hab (hnone a b)
  | refl a => rfl
  | symm a b _ ih => exact ih.symm
  | trans a b c _ _ ih₁ ih₂ => exact ih₁.trans ih₂

/-! ## The freshest record -/

lemma not_pairLt_firstMax {α : Type*} (key : α → PyFloat × PyFloat) (a : α) (l : List α) :
    ∀ b ∈ a :: l, PyFloat.pairLt (key (firstMax key a l)) (key b) = false := by
  have hloop : ∀ (l : List α) (a : α) (seen : List α),
      (∀ b ∈ seen, PyFloat.pairLt (key a) (key b) = false) → ∀ b ∈ seen ++ l,
        PyFloat.pairLt (key (firstMax key a l)) (key b) = false := by
    intro l
    induction l with
    | nil =>
      intro a seen hseen b hb
      rw [List.append_nil] at hb
      exact hseen b hb
    | cons c l ih =>
      intro a seen hseen b hb
      have hb' : b ∈ (seen ++ [c]) ++ l := by rwa [List.append_assoc]
      by_cases hlt : PyFloat.pairLt (key a) (key c) = true
      · have hstep : firstMax key a (c :: l) = firstMax key c l := by
          unfold firstMax
          rw [List.foldl_cons, if_pos hlt]
        rw [hstep]
        refine ih c (seen ++ [c]) (fun d hd => ?_) b hb'
        rcases List.mem_append.mp hd with hd | hd
        · rw [← Bool.not_eq_true]
          intro hgt
          have hfalse := hseen d hd
          rw [PyFloat.pairLt_trans hlt hgt] at hfalse
          cases hfalse
        · rw [List.mem_singleton.mp hd]
          exact PyFloat.pairLt_irrefl _
      · have hstep : firstMax key a (c :: l) = firstMax key a l := by
          unfold firstMax
          rw [List.foldl_cons, if_neg hlt]
        rw [hstep]
        refine ih a (seen ++ [c]) (fun d hd => ?_) b hb'
        rcases List.mem_append.mp hd with hd | hd
        · exact hseen d hd
        · rw [List.mem_singleton.mp hd, ← Bool.not_eq_true]
          exact hlt
  intro b hb
  refine hloop l a [a] (fun c hc => ?_) b hb
  rw [List.mem_singleton.mp hc]
  exact PyFloat.pairLt_irrefl _

lemma isSome_mapM {α β : Type} {f : α → Option β} {l : List α} :
    (l.mapM f).isSome ↔ ∀ a ∈ l, (f a).isSome := by
  induction l with
  | nil => simp
  | cons a l ih =>
    rw [List.mapM_cons, List.forall_mem_cons, ← ih]
    cases f a with
    | none => simp
    | some b => cases l.mapM f <;> simp

lemma mem_keyed {members : List ℕ} {keyed : List (ℕ × PyFloat × PyFloat)}
    (h : (members.mapM fun i => (freshnessAt env docs i).map fun key => (i, key)) = some keyed)
    {i : ℕ} {key : PyFloat × PyFloat} :
    (i, key) ∈ keyed ↔ i ∈ members ∧ freshnessAt env docs i = some key := by
  have hget := getElem?_of_mapM h
  constructor
  · intro hmem
    obtain ⟨k, hk⟩ := List.mem_iff_getElem?.mp hmem
    rw [hget] at hk
    obtain ⟨j, hj, hpair⟩ := Option.bind_eq_some_iff.mp hk
    obtain ⟨key', hkey', heq⟩ := Option.map_eq_some_iff.mp hpair
    obtain ⟨rfl, rfl⟩ := Prod.mk.inj heq
    exact ⟨List.mem_of_getElem? hj, hkey'⟩
  · rintro ⟨hmem, hkey⟩
    obtain ⟨k, hk⟩ := List.mem_iff_getElem?.mp hmem
    refine List.mem_of_getElem? (i := k) ?_
    rw [hget, hk, Option.bind_some, hkey, Option.map_some]

/-- A group of several members loses all of them but one, and none is fresher than this one. -/
lemma droppedOf_spec {members : List ℕ} (hlen : 2 ≤ members.length) :
    ((droppedOf env docs members).isSome ↔ ∀ i ∈ members, (freshnessAt env docs i).isSome) ∧
      ∀ d, droppedOf env docs members = some d →
        ∃ c ∈ members, d = (members.filter fun i => i ≠ c) ∧
          ∀ i ∈ members, ¬Fresher env docs i c := by
  have hpair : (fun i : ℕ => do
      let key ← docs[i]?.bind (freshnessKey env)
      return (i, key)) = fun i => (freshnessAt env docs i).map fun key => (i, key) := by
    funext i
    unfold freshnessAt
    cases docs[i]?.bind (freshnessKey env) <;> rfl
  have hsome : (members.mapM fun i => (freshnessAt env docs i).map fun key => (i, key)).isSome ↔
      ∀ i ∈ members, (freshnessAt env docs i).isSome := by
    rw [isSome_mapM]
    simp only [Option.isSome_map]
  unfold droppedOf
  rw [hpair, ← hsome]
  cases hkeyed : members.mapM fun i => (freshnessAt env docs i).map fun key => (i, key) with
  | none => exact ⟨Iff.rfl, fun d hd => by cases hd⟩
  | some keyed =>
    have hlen' := (length_of_mapM hkeyed).symm ▸ hlen
    rcases keyed with _ | ⟨a, _ | ⟨b, rest⟩⟩
    · exact absurd hlen' (by simp)
    · exact absurd hlen' (by simp)
    · refine ⟨Iff.rfl, fun d hd => ?_⟩
      have hdropped : (members.filter fun i => i ≠ (firstMax Prod.snd a (b :: rest)).1) = d :=
        Option.some.inj hd
      have hmax := firstMax_mem Prod.snd a (b :: rest)
      have hnot := not_pairLt_firstMax Prod.snd a (b :: rest)
      generalize firstMax Prod.snd a (b :: rest) = best at hdropped hmax hnot
      obtain ⟨hbest, hkey⟩ := (mem_keyed hkeyed).mp hmax
      refine ⟨best.1, hbest, hdropped.symm, ?_⟩
      rintro i hi ⟨ki, kc, hki, hkc, hlt⟩
      obtain rfl := Option.some.inj (hkey.symm.trans hkc)
      have hfalse := hnot (i, ki) ((mem_keyed hkeyed).mpr ⟨hi, hki⟩)
      rw [hlt] at hfalse
      cases hfalse

/-! ## What is kept -/

def variantGroups (env : PackEnv) (docs : List PackRecord) : List (List ℕ) :=
  (groups (joinVariants env docs) docs.length).filter fun members => 2 ≤ members.length

/-- Each position is in the group of its component, and the group is the component. -/
lemma mem_groups (h : Deduplicates env) {i : ℕ} (hi : i < docs.length) :
    ∃ members ∈ groups (joinVariants env docs) docs.length,
      ∀ j, j ∈ members ↔ SameComponent env docs i j := by
  obtain ⟨hdesc, -, -⟩ := joinVariants_spec env docs
  obtain ⟨hroot, hle⟩ := find_spec hdesc i
  refine ⟨_, List.mem_map.mpr ⟨find (joinVariants env docs) i, ?_, rfl⟩, fun j => ?_⟩
  · rw [List.mem_filter, List.mem_range]
    exact ⟨by omega, decide_eq_true (find_of_root hroot)⟩
  · rw [List.mem_filter, List.mem_range, decide_eq_true_eq, eq_comm, find_eq_iff_component h]
    constructor
    · exact fun hj => hj.2
    · exact fun hj => ⟨(lt_length_of_sameComponent hj).mp hi, hj⟩

lemma component_of_mem_groups (h : Deduplicates env) {members : List ℕ}
    (hmem : members ∈ groups (joinVariants env docs) docs.length) {i j : ℕ} (hi : i ∈ members) :
    j ∈ members ↔ SameComponent env docs i j := by
  obtain ⟨root, -, rfl⟩ := List.mem_map.mp hmem
  rw [List.mem_filter, List.mem_range, decide_eq_true_eq] at hi ⊢
  rw [← find_eq_iff_component h, hi.2, eq_comm]
  constructor
  · exact fun hj => hj.2
  · intro hj
    have hcomponent : SameComponent env docs i j :=
      (find_eq_iff_component h i j).mp (hi.2.trans hj)
    exact ⟨(lt_length_of_sameComponent hcomponent).mp hi.1, hj⟩

lemma nodup_of_mem_groups {members : List ℕ}
    (hmem : members ∈ groups (joinVariants env docs) docs.length) : members.Nodup := by
  obtain ⟨root, -, rfl⟩ := List.mem_map.mp hmem
  exact List.nodup_range.filter _

/-- A group has several members exactly if one of them is in the component of another. -/
lemma two_le_length_iff (h : Deduplicates env) {members : List ℕ}
    (hmem : members ∈ groups (joinVariants env docs) docs.length) {i : ℕ} (hi : i ∈ members) :
    2 ≤ members.length ↔ ∃ j, j ≠ i ∧ SameComponent env docs i j := by
  constructor
  · intro hlen
    by_contra hnone
    push Not at hnone
    have hsub : members ⊆ [i] := by
      intro j hj
      by_contra hne
      exact hnone j (fun heq => hne (heq ▸ List.mem_singleton_self i))
        ((component_of_mem_groups h hmem hi).mp hj)
    have hle := ((nodup_of_mem_groups hmem).subperm hsub).length_le
    rw [List.length_singleton] at hle
    omega
  · rintro ⟨j, hne, hj⟩
    have hmemj := (component_of_mem_groups h hmem hi).mpr hj
    have hsub : [i, j] ⊆ members := by
      intro k hk
      rcases List.mem_cons.mp hk with rfl | hk
      · exact hi
      · rw [List.mem_singleton.mp hk]
        exact hmemj
    have hnodup : [i, j].Nodup := List.nodup_cons.mpr
      ⟨fun hk => hne (List.mem_singleton.mp hk).symm, List.nodup_singleton j⟩
    exact (hnodup.subperm hsub).length_le

/-- The records that are kept, with their positions: in their order, one for each component, and
the freshest one. -/
structure Representing (env : PackEnv) (docs : List PackRecord) (kept : List (PackRecord × ℕ)) :
    Prop where
  sublist : kept.Sublist docs.zipIdx
  existsUnique : ∀ i < docs.length, ∃! e, e ∈ kept ∧ SameComponent env docs i e.2
  freshest : ∀ e ∈ kept, ∀ i, SameComponent env docs i e.2 → ¬Fresher env docs i e.2

lemma not_fresher_self (i : ℕ) : ¬Fresher env docs i i := by
  rintro ⟨ki, kc, hki, hkc, hlt⟩
  obtain rfl := Option.some.inj (hki.symm.trans hkc)
  rw [PyFloat.pairLt_irrefl] at hlt
  cases hlt

lemma representing_of_unlinked (hnone : ∀ i j, ¬Linked env docs i j) :
    Representing env docs docs.zipIdx where
  sublist := List.Sublist.refl _
  existsUnique i hi := by
    refine ⟨(docs[i], i), ⟨?_, .refl i⟩, ?_⟩
    · exact List.mem_zipIdx_iff_getElem?.mpr (List.getElem?_eq_getElem hi)
    · rintro ⟨r, j⟩ ⟨hmem, hj⟩
      obtain rfl := eq_of_sameComponent hnone hj
      have hget := List.mem_zipIdx_iff_getElem?.mp hmem
      rw [List.getElem?_eq_getElem hi] at hget
      exact Prod.ext (Option.some.inj hget).symm rfl
  freshest e he i hi := by
    obtain rfl := eq_of_sameComponent hnone hi
    exact not_fresher_self _

lemma semanticDedup_of_unlinked (hnone : ∀ i j, ¬Linked env docs i j) :
    semanticDedup env docs = some docs := by
  unfold semanticDedup
  by_cases hon : Deduplicates env
  · by_cases hlen : docs.length < 2
    · exact if_pos (Or.inr (Or.inr hlen))
    · have hempty : variantGroups env docs = [] := by
        refine List.filter_eq_nil_iff.mpr fun members hmem => ?_
        rw [decide_eq_true_eq]
        intro htwo
        obtain ⟨i, hi⟩ := List.exists_mem_of_length_pos (by omega : 0 < members.length)
        obtain ⟨j, hne, hj⟩ := (two_le_length_iff hon hmem hi).mp htwo
        exact hne (eq_of_sameComponent hnone hj).symm
      rw [if_neg (by rw [← or_assoc]; exact not_or.mpr ⟨hon, hlen⟩)]
      show ((variantGroups env docs).mapM (droppedOf env docs)).bind _ = _
      rw [hempty, List.mapM_nil]
      show some ((docs.zipIdx.filter _).map Prod.fst) = _
      rw [List.filter_eq_self.mpr fun e _ => by simp, List.zipIdx_map_fst]
  · exact if_pos ((not_not.mp hon).elim Or.inl fun h => Or.inr (Or.inl h))

lemma unlinked_of_short (h : ¬Deduplicates env ∨ docs.length < 2) (i j : ℕ) :
    ¬Linked env docs i j := by
  rintro ⟨hon, hlt, r, s, -, hs, -⟩
  rcases h with h | h
  · exact h hon
  · have := (List.getElem?_eq_some_iff.mp hs).1
    omega

lemma semanticDedup_eq (hon : Deduplicates env) (hlen : 2 ≤ docs.length) :
    semanticDedup env docs = ((variantGroups env docs).mapM (droppedOf env docs)).map fun dropped =>
      (docs.zipIdx.filter fun e => e.2 ∉ dropped.flatten).map Prod.fst := by
  unfold semanticDedup
  rw [if_neg (by rw [← or_assoc]; exact not_or.mpr ⟨hon, by omega⟩)]
  show ((variantGroups env docs).mapM (droppedOf env docs)).bind _ = _
  cases (variantGroups env docs).mapM (droppedOf env docs) <;> rfl

/-- The removal fails only for a record whose freshness cannot be read, and which is in a component
with another one. -/
lemma isSome_semanticDedup :
    (semanticDedup env docs).isSome ↔
      ∀ i j, i ≠ j → SameComponent env docs i j → (freshnessAt env docs i).isSome := by
  by_cases hshort : ¬Deduplicates env ∨ docs.length < 2
  · have hnone : ∀ i j, ¬Linked env docs i j := unlinked_of_short hshort
    rw [semanticDedup_of_unlinked hnone]
    exact iff_of_true rfl fun i j hne hij => absurd (eq_of_sameComponent hnone hij) hne
  · obtain ⟨hon, hlen⟩ := not_or.mp hshort
    rw [not_not] at hon
    rw [semanticDedup_eq hon (by omega), Option.isSome_map, isSome_mapM]
    constructor
    · intro hall i j hne hij
      have hi : i < docs.length := by
        by_contra hge
        have hcomponent := (find_eq_iff_component hon i j).mpr hij
        have hj : ¬j < docs.length := fun hj => hge ((lt_length_of_sameComponent hij).mpr hj)
        obtain ⟨-, hparents, -⟩ := joinVariants_spec env docs
        rw [find_of_length_le (by omega), find_of_length_le (by omega)] at hcomponent
        exact hne hcomponent
      obtain ⟨members, hmem, hmembers⟩ := mem_groups hon hi
      have hself := (hmembers i).mpr (.refl i)
      have htwo : 2 ≤ members.length :=
        (two_le_length_iff hon hmem hself).mpr ⟨j, hne.symm, hij⟩
      exact (droppedOf_spec htwo).1.mp
        (hall members (List.mem_filter.mpr ⟨hmem, decide_eq_true htwo⟩)) i hself
    · intro hall members hvariant
      obtain ⟨hmem, htwo⟩ := List.mem_filter.mp hvariant
      refine (droppedOf_spec (of_decide_eq_true htwo)).1.mpr fun i hi => ?_
      obtain ⟨j, hne, hij⟩ := (two_le_length_iff hon hmem hi).mp (of_decide_eq_true htwo)
      exact hall i j hne.symm hij

lemma groups_eq {members members' : List ℕ}
    (hmem : members ∈ groups (joinVariants env docs) docs.length)
    (hmem' : members' ∈ groups (joinVariants env docs) docs.length) {i : ℕ} (hi : i ∈ members)
    (hi' : i ∈ members') : members = members' := by
  obtain ⟨root, -, rfl⟩ := List.mem_map.mp hmem
  obtain ⟨root', -, rfl⟩ := List.mem_map.mp hmem'
  have hroot := of_decide_eq_true (List.mem_filter.mp hi).2
  have hroot' := of_decide_eq_true (List.mem_filter.mp hi').2
  rw [← hroot, ← hroot']

/-- Of each component one member is not dropped, and none is fresher than this one. -/
lemma exists_survivor (hon : Deduplicates env) {dropped : List (List ℕ)}
    (h : (variantGroups env docs).mapM (droppedOf env docs) = some dropped) {i : ℕ}
    (hi : i < docs.length) :
    ∃ c, SameComponent env docs i c ∧
      (∀ j, SameComponent env docs i j → (j ∈ dropped.flatten ↔ j ≠ c)) ∧
      ∀ j, SameComponent env docs i j → ¬Fresher env docs j c := by
  have hmemDropped : ∀ d, d ∈ dropped ↔
      ∃ members ∈ variantGroups env docs, droppedOf env docs members = some d := by
    intro d
    constructor
    · intro hd
      obtain ⟨k, hk⟩ := List.mem_iff_getElem?.mp hd
      rw [getElem?_of_mapM h] at hk
      obtain ⟨members, hmembers, heq⟩ := Option.bind_eq_some_iff.mp hk
      exact ⟨members, List.mem_of_getElem? hmembers, heq⟩
    · rintro ⟨members, hmembers, heq⟩
      obtain ⟨k, hk⟩ := List.mem_iff_getElem?.mp hmembers
      refine List.mem_of_getElem? (i := k) ?_
      rw [getElem?_of_mapM h, hk, Option.bind_some, heq]
  obtain ⟨members, hmem, hmembers⟩ := mem_groups hon hi
  have hself := (hmembers i).mpr (.refl i)
  by_cases htwo : 2 ≤ members.length
  · have hvariant : members ∈ variantGroups env docs :=
      List.mem_filter.mpr ⟨hmem, decide_eq_true htwo⟩
    have hsome : (droppedOf env docs members).isSome :=
      isSome_mapM.mp (by rw [h]; rfl) members hvariant
    obtain ⟨d, hd⟩ := Option.isSome_iff_exists.mp hsome
    obtain ⟨c, hc, rfl, hfresh⟩ := (droppedOf_spec htwo).2 d hd
    refine ⟨c, (hmembers c).mp hc, fun j hj => ?_, fun j hj => hfresh j ((hmembers j).mpr hj)⟩
    have hjmem := (hmembers j).mpr hj
    constructor
    · intro hflat
      obtain ⟨d', hd', hjd'⟩ := List.mem_flatten.mp hflat
      obtain ⟨members', hvariant', heq⟩ := (hmemDropped d').mp hd'
      obtain ⟨hmem', htwo'⟩ := List.mem_filter.mp hvariant'
      obtain ⟨c', -, rfl, -⟩ := (droppedOf_spec (of_decide_eq_true htwo')).2 d' heq
      have hsame : members' = members := groups_eq hmem' hmem (List.mem_filter.mp hjd').1 hjmem
      subst hsame
      rw [Option.some.inj (heq.symm.trans hd)] at hjd'
      exact of_decide_eq_true (List.mem_filter.mp hjd').2
    · intro hne
      exact List.mem_flatten.mpr ⟨_, (hmemDropped _).mpr ⟨members, hvariant, hd⟩,
        List.mem_filter.mpr ⟨hjmem, decide_eq_true hne⟩⟩
  · -- the only member of its component
    have honly : ∀ j, SameComponent env docs i j → j = i := by
      intro j hj
      by_contra hne
      exact htwo ((two_le_length_iff hon hmem hself).mpr ⟨j, hne, hj⟩)
    refine ⟨i, .refl i, fun j hj => ?_, fun j hj => ?_⟩
    · obtain rfl := honly j hj
      refine iff_of_false (fun hflat => ?_) (fun hne => hne rfl)
      obtain ⟨d', hd', hjd'⟩ := List.mem_flatten.mp hflat
      obtain ⟨members', hvariant', heq⟩ := (hmemDropped d').mp hd'
      obtain ⟨hmem', htwo'⟩ := List.mem_filter.mp hvariant'
      obtain ⟨c', -, rfl, -⟩ := (droppedOf_spec (of_decide_eq_true htwo')).2 d' heq
      have hsame : members' = members := groups_eq hmem' hmem (List.mem_filter.mp hjd').1 hself
      exact htwo (hsame ▸ of_decide_eq_true htwo')
    · obtain rfl := honly j hj
      exact not_fresher_self _

lemma representing_of_semanticDedup (h : semanticDedup env docs = some out) :
    ∃ kept, out = kept.map Prod.fst ∧ Representing env docs kept := by
  by_cases hshort : ¬Deduplicates env ∨ docs.length < 2
  · have hnone : ∀ i j, ¬Linked env docs i j := unlinked_of_short hshort
    rw [semanticDedup_of_unlinked hnone] at h
    obtain rfl := Option.some.inj h
    exact ⟨docs.zipIdx, by rw [List.zipIdx_map_fst], representing_of_unlinked hnone⟩
  · obtain ⟨hon, hlen⟩ := not_or.mp hshort
    rw [not_not] at hon
    rw [semanticDedup_eq hon (by omega)] at h
    obtain ⟨dropped, hdropped, rfl⟩ := Option.map_eq_some_iff.mp h
    have hkept : ∀ e : PackRecord × ℕ, e ∈ (docs.zipIdx.filter fun e => e.2 ∉ dropped.flatten) ↔
        docs[e.2]? = some e.1 ∧ e.2 ∉ dropped.flatten := by
      intro e
      rw [List.mem_filter, decide_eq_true_eq, List.mem_zipIdx_iff_getElem?]
    refine ⟨_, rfl, List.filter_sublist, fun i hi => ?_, fun e he j hj => ?_⟩
    · obtain ⟨c, hc, hsurvives, -⟩ := exists_survivor hon hdropped hi
      have hlt := (lt_length_of_sameComponent hc).mp hi
      refine ⟨(docs[c], c), ⟨(hkept _).mpr ⟨List.getElem?_eq_getElem hlt, ?_⟩, hc⟩, ?_⟩
      · exact fun hmem => (hsurvives c hc).mp hmem rfl
      · rintro ⟨r, j⟩ ⟨hmem, hj⟩
        obtain ⟨hget, hnot⟩ := (hkept _).mp hmem
        have hjc : j = c := by
          by_contra hne
          exact hnot ((hsurvives j hj).mpr hne)
        subst hjc
        rw [List.getElem?_eq_getElem hlt] at hget
        exact Prod.ext (Option.some.inj hget).symm rfl
    · obtain ⟨hget, hnot⟩ := (hkept _).mp he
      have hlt := (List.getElem?_eq_some_iff.mp hget).1
      obtain ⟨c, hc, hsurvives, hfresh⟩ := exists_survivor hon hdropped hlt
      have hec : e.2 = c := by
        by_contra hne
        exact hnot ((hsurvives e.2 (.refl _)).mpr hne)
      rw [hec]
      exact hfresh j (.symm _ _ hj)

lemma unlinked_kept {kept : List (PackRecord × ℕ)} (h : Representing env docs kept) (i j : ℕ) :
    ¬Linked env (kept.map Prod.fst) i j := by
  rintro ⟨hon, hlt, r, s, hr, hs, hsame⟩
  rw [List.getElem?_map] at hr hs
  obtain ⟨e, he, rfl⟩ := Option.map_eq_some_iff.mp hr
  obtain ⟨f, hf, rfl⟩ := Option.map_eq_some_iff.mp hs
  -- the positions of the two records grow with their places among those that are kept
  have hpositions : (kept.map Prod.snd).Pairwise (· < ·) := by
    have hsorted : (docs.zipIdx.map Prod.snd).Pairwise (· < ·) := by
      rw [List.zipIdx_map_snd, ← List.range_eq_range']
      exact List.pairwise_lt_range
    exact hsorted.sublist (h.sublist.map Prod.snd)
  have hef : e.2 < f.2 := by
    obtain ⟨hi, rfl⟩ := List.getElem?_eq_some_iff.mp he
    obtain ⟨hj, rfl⟩ := List.getElem?_eq_some_iff.mp hf
    have hpair := List.pairwise_iff_getElem.mp hpositions i j (by simpa using hi)
      (by simpa using hj) hlt
    simpa using hpair
  have hget : ∀ e ∈ kept, docs[e.2]? = some e.1 := fun e he =>
    List.mem_zipIdx_iff_getElem?.mp (h.sublist.subset he)
  have hlinked : Linked env docs e.2 f.2 :=
    ⟨hon, hef, e.1, f.1, hget e (List.mem_of_getElem? he), hget f (List.mem_of_getElem? hf), hsame⟩
  have hlen : e.2 < docs.length :=
    (List.getElem?_eq_some_iff.mp (hget e (List.mem_of_getElem? he))).1
  have hunique := (h.existsUnique e.2 hlen).unique ⟨List.mem_of_getElem? he, .refl _⟩
    ⟨List.mem_of_getElem? hf, .rel _ _ hlinked⟩
  rw [hunique] at hef
  exact lt_irrefl _ hef

/-- **One record of each fact.**  The removal fails exactly if the freshness of a record that has
variants cannot be read.  Otherwise it returns, in their order, one record of each component of the
graph of variants, and the freshest one; and to apply it once more, at any later time, changes
nothing. -/
theorem semanticDedup_represents (env : PackEnv) (docs : List PackRecord) :
    ((semanticDedup env docs).isSome ↔
      ∀ i j, i ≠ j → SameComponent env docs i j → (freshnessAt env docs i).isSome) ∧
    ∀ out, semanticDedup env docs = some out →
      (∃ kept, out = kept.map Prod.fst ∧ Representing env docs kept) ∧
        ∀ decay, semanticDedup { env with decay := decay } out = some out := by
  refine ⟨isSome_semanticDedup, fun out h => ?_⟩
  obtain ⟨kept, rfl, hkept⟩ := representing_of_semanticDedup h
  have hnone : ∀ i j, ¬Linked env (kept.map Prod.fst) i j := unlinked_kept hkept
  exact ⟨⟨kept, rfl, hkept⟩, fun decay =>
    @semanticDedup_of_unlinked { env with decay := decay } _ hnone⟩

/-! ## Two spellings of one fact -/

/-- An environment in which records of one subject and one object have similar texts. -/
def slotEnv : PackEnv where
  rt := .sample
  lower := id
  entityRoot := id
  bagCosine r s := .finite (if r.subject.dumps = s.subject.dumps ∧ r.object.dumps = s.object.dumps
    then 1 else 0)
  dedupSim := .finite (88 / 100)
  decay := fun _ => .finite 1
  recordRank := fun _ => .finite 1
  iterate := id
  mem_iterate := sampleEnv.mem_iterate

def gatewayRecord (predicate : String) : PackRecord where
  isDict := true
  isModel := false
  fields := .ofEntries [("subject", .str "gateway"), ("predicate", .str predicate),
    ("object", .str "blue")]

/-- One of two variants is returned, and is returned again. -/
theorem semanticDedup_represents_gateway :
    ∃ out, semanticDedup slotEnv [gatewayRecord "colour", gatewayRecord "colour"] = some out ∧
      out.length = 1 ∧ ∀ decay, semanticDedup { slotEnv with decay := decay } out = some out := by
  have hrun : (semanticDedup slotEnv [gatewayRecord "colour", gatewayRecord "colour"]).map
      List.length = some 1 := by decide +kernel
  obtain ⟨out, hout, hlen⟩ := Option.map_eq_some_iff.mp hrun
  exact ⟨out, hout, hlen, ((semanticDedup_represents slotEnv _).2 out hout).2⟩

/-! ## Slots -/

def slotAt (env : PackEnv) (docs : List PackRecord) (i : ℕ) : Option (String × String) :=
  docs[i]?.map (recordSlot env)

/-- No record is dropped for one of another slot: whichever record of the component is kept, it has
the slot of each one that is not. -/
def RespectsSlots (env : PackEnv) (docs : List PackRecord) (kept : List (PackRecord × ℕ)) : Prop :=
  ∀ i < docs.length, i ∉ kept.map Prod.snd → ∀ e ∈ kept, SameComponent env docs i e.2 →
    slotAt env docs i = slotAt env docs e.2

/-- Records of similar texts have one slot. -/
def TextsKeepSlots (env : PackEnv) (docs : List PackRecord) : Prop :=
  ∀ (i j : ℕ) (r s : PackRecord), i < j → docs[i]? = some r → docs[j]? = some s →
    sameSubject (normSubject env r) (normSubject env s) = true →
      (env.bagCosine r s).ge env.dedupSim = true → recordSlot env r = recordSlot env s

/-- Within a component there is one slot if similar texts have one. -/
lemma slotAt_eq (h : TextsKeepSlots env docs) {i j : ℕ} (hij : SameComponent env docs i j) :
    slotAt env docs i = slotAt env docs j := by
  induction hij with
  | rel a b hab =>
    obtain ⟨-, hlt, r, s, hr, hs, hsame⟩ := hab
    have hslot : recordSlot env r = recordSlot env s := by
      unfold sameFact at hsame
      dsimp only at hsame
      rw [Bool.or_eq_true, Bool.and_eq_true] at hsame
      rcases hsame with ⟨hsubject, htext⟩ | htopic
      · exact h a b r s hlt hr hs hsubject htext
      · exact of_decide_eq_true (Bool.and_eq_true_iff.mp htopic).2
    rw [slotAt, slotAt, hr, hs, Option.map_some, Option.map_some, hslot]
  | refl a => rfl
  | symm a b _ ih => exact ih.symm
  | trans a b c _ _ ih₁ ih₂ => exact ih₁.trans ih₂

lemma respectsSlots_iff (hon : Deduplicates env) {kept : List (PackRecord × ℕ)}
    (h : Representing env docs kept) :
    RespectsSlots env docs kept ↔ TextsKeepSlots env docs := by
  constructor
  · intro hrespects i j r s hlt hr hs hsubject htext
    have hsame : sameFact env r s = true := by
      unfold sameFact
      dsimp only
      rw [hsubject, htext]
      rfl
    have hij : SameComponent env docs i j := .rel i j ⟨hon, hlt, r, s, hr, hs, hsame⟩
    have hi := (List.getElem?_eq_some_iff.mp hr).1
    have hj := (List.getElem?_eq_some_iff.mp hs).1
    obtain ⟨e, ⟨he, hie⟩, -⟩ := h.existsUnique i hi
    -- whichever of the two is not kept has the slot of the record that is
    have hslot : ∀ k < docs.length, SameComponent env docs k e.2 →
        slotAt env docs k = slotAt env docs e.2 := by
      intro k hk hke
      by_cases hmem : k ∈ kept.map Prod.snd
      · obtain ⟨f, hf, rfl⟩ := List.mem_map.mp hmem
        rw [(h.existsUnique f.2 hk).unique ⟨hf, .refl _⟩ ⟨he, hke⟩]
      · exact hrespects k hk hmem e he hke
    have heq : slotAt env docs i = slotAt env docs j :=
      (hslot i hi hie).trans (hslot j hj (.trans _ _ _ (.symm _ _ hij) hie)).symm
    rw [slotAt, slotAt, hr, hs] at heq
    exact Option.some.inj heq
  · exact fun htexts i _ _ e _ hie => slotAt_eq htexts hie

/-- **Slots.**  The removal respects the slots exactly if it is switched off, or similar texts have
one slot. -/
theorem semanticDedup_respectsSlots_iff (h : semanticDedup env docs = some out) :
    ∃ kept, out = kept.map Prod.fst ∧ Representing env docs kept ∧
      (RespectsSlots env docs kept ↔ (Deduplicates env → TextsKeepSlots env docs)) := by
  obtain ⟨kept, hout, hkept⟩ := representing_of_semanticDedup h
  refine ⟨kept, hout, hkept, ?_⟩
  by_cases hon : Deduplicates env
  · rw [respectsSlots_iff hon hkept]
    exact ⟨fun h _ => h, fun h => h hon⟩
  · refine iff_of_true (fun i _ _ e _ hie => ?_) (fun h => absurd h hon)
    rw [eq_of_sameComponent (unlinked_of_short (Or.inl hon)) hie]

lemma deduplicates_slotEnv : Deduplicates slotEnv := by
  unfold Deduplicates
  decide +kernel

example : recordSlot slotEnv (gatewayRecord "state") ≠
    recordSlot slotEnv (gatewayRecord "colour") := by decide +kernel

/-- The state and the colour of the gateway are two slots, and one of them is dropped for the
other. -/
theorem semanticDedup_drops_slot :
    ∃ out, semanticDedup slotEnv [gatewayRecord "state", gatewayRecord "colour"] = some out ∧
      out.length = 1 ∧ ∀ kept, out = kept.map Prod.fst →
        Representing slotEnv [gatewayRecord "state", gatewayRecord "colour"] kept →
          ¬RespectsSlots slotEnv [gatewayRecord "state", gatewayRecord "colour"] kept := by
  have hrun : (semanticDedup slotEnv [gatewayRecord "state", gatewayRecord "colour"]).map
      List.length = some 1 := by decide +kernel
  obtain ⟨out, hout, hlen⟩ := Option.map_eq_some_iff.mp hrun
  refine ⟨out, hout, hlen, fun kept _ hkept hrespects => ?_⟩
  have hslots := (respectsSlots_iff deduplicates_slotEnv hkept).mp hrespects 0 1 _ _ (by decide) rfl
    rfl (by decide +kernel) (by decide +kernel)
  exact absurd hslots (by decide)

/-- Two records of the colour are in one slot. -/
theorem semanticDedup_respectsSlots_gateway :
    ∃ out kept, semanticDedup slotEnv [gatewayRecord "colour", gatewayRecord "colour"] = some out ∧
      out = kept.map Prod.fst ∧
        RespectsSlots slotEnv [gatewayRecord "colour", gatewayRecord "colour"] kept := by
  have hrun : (semanticDedup slotEnv [gatewayRecord "colour", gatewayRecord "colour"]).map
      List.length = some 1 := by decide +kernel
  obtain ⟨out, hout, -⟩ := Option.map_eq_some_iff.mp hrun
  obtain ⟨kept, hmap, -, hiff⟩ := semanticDedup_respectsSlots_iff hout
  refine ⟨out, kept, hout, hmap, hiff.mpr fun _ i j r s _ hr hs _ _ => ?_⟩
  have hall : ∀ (k : ℕ) (t : PackRecord), [gatewayRecord "colour", gatewayRecord "colour"][k]? = some t →
      t = gatewayRecord "colour" := by
    intro k t hk
    have hmem := List.mem_of_getElem? hk
    simpa using hmem
  rw [hall i r hr, hall j s hs]

end Packing

end AtlasMemory
