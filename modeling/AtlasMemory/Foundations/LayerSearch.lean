import Mathlib.Data.List.Induction
import Mathlib.Tactic.Common

/-!
# Searches layer by layer

A search of a number of layers that is given the nodes seen before, and passes none of them again.
It adds the nodes that are within that number of steps on a way past the nodes seen before,
`mem_expand`.  Searches from several roots that share their nodes find every node near a root if no
way is cut off by the searches before, `mem_searchAll_of_uncut`.
-/

namespace LayerSearch

variable {α : Type*}

/-- There is a way of at most so many steps whose nodes after the first are not blocked. -/
def Within (R : α → α → Prop) (blocked : α → Prop) : ℕ → α → α → Prop
  | 0, a, b => a = b
  | n + 1, a, b => a = b ∨ ∃ c, R a c ∧ ¬ blocked c ∧ Within R blocked n c b

section Ways

variable {R : α → α → Prop} {blocked blocked' : α → Prop} {n : ℕ} {a b : α}

lemma within_self (n : ℕ) (a : α) : Within R blocked n a a := by
  cases n with
  | zero => exact rfl
  | succ n => exact Or.inl rfl

lemma Within.succ (h : Within R blocked n a b) : Within R blocked (n + 1) a b := by
  induction n generalizing a with
  | zero => exact Or.inl h
  | succ n ih =>
      rcases h with rfl | ⟨c, hc, hfree, hrest⟩
      · exact Or.inl rfl
      · exact Or.inr ⟨c, hc, hfree, ih hrest⟩

lemma Within.anti (h : Within R blocked n a b) (hsub : ∀ x, blocked' x → blocked x) :
    Within R blocked' n a b := by
  induction n generalizing a with
  | zero => exact h
  | succ n ih =>
      rcases h with rfl | ⟨c, hc, hfree, hrest⟩
      · exact Or.inl rfl
      · exact Or.inr ⟨c, hc, fun hblocked => hfree (hsub c hblocked), ih hrest⟩

/-- A way past some nodes either meets none of the others either, or has a last one of them, from
which it goes on past both. -/
lemma Within.past_or_from (h : Within R blocked n a b) (others : α → Prop) :
    Within R (fun x => blocked x ∨ others x) n a b ∨
      ∃ c, others c ∧ Within R (fun x => blocked x ∨ others x) n c b := by
  induction n generalizing a with
  | zero => exact Or.inl h
  | succ n ih =>
      rcases h with rfl | ⟨c, hc, hfree, hrest⟩
      · exact Or.inl (Or.inl rfl)
      · rcases ih hrest with hpast | ⟨c', hother, hfrom⟩
        · by_cases hother : others c
          · exact Or.inr ⟨c, hother, hpast.succ⟩
          · refine Or.inl (Or.inr ⟨c, hc, ?_, hpast⟩)
            rintro (hblocked | h')
            · exact hfree hblocked
            · exact hother h'
        · exact Or.inr ⟨c', hother, hfrom.succ⟩

end Ways

/-! ## One search -/

variable (next : List α → List α → List α)

/-- The nodes of a search of some layers, after those seen before. -/
def expand [DecidableEq α] : ℕ → List α → List α → List α
  | 0, _, seen => seen
  | depth + 1, layer, seen =>
    if next layer seen = [] then seen
    else expand depth (next layer seen) (seen ++ next layer seen)

/-- The next layer has the nodes one step on that were not seen before. -/
def IsNext (R : α → α → Prop) : Prop :=
  ∀ layer seen y, y ∈ next layer seen ↔ y ∉ seen ∧ ∃ x ∈ layer, R x y

variable {next} {R : α → α → Prop} [DecidableEq α]

/-- A search adds the nodes that are near its layer on a way past those seen before. -/
theorem mem_expand (hnext : IsNext next R) {n : ℕ} {layer seen : List α} (hlayer : layer ⊆ seen)
    {v : α} : v ∈ expand next n layer seen ↔
      v ∈ seen ∨ ∃ x ∈ layer, Within R (· ∈ seen) n x v := by
  induction n generalizing layer seen with
  | zero =>
      refine ⟨Or.inl, ?_⟩
      rintro (hv | ⟨x, hx, rfl⟩)
      · exact hv
      · exact hlayer hx
  | succ n ih =>
      have hadded : ∀ {x}, x ∈ next layer seen ↔ x ∉ seen ∧ ∃ y ∈ layer, R y x :=
        fun {x} => hnext layer seen x
      rw [expand]
      split_ifs with hlast
      · refine ⟨Or.inl, ?_⟩
        rintro (hv | ⟨x, hx, rfl | ⟨c, hc, hfree, -⟩⟩)
        · exact hv
        · exact hlayer hx
        · have hmem : c ∈ next layer seen := hadded.mpr ⟨hfree, x, hx, hc⟩
          rw [hlast] at hmem
          exact absurd hmem List.not_mem_nil
      · rw [ih (fun x hx => List.mem_append_right _ hx), List.mem_append]
        constructor
        · rintro ((hv | hv) | ⟨x, hx, hway⟩)
          · exact Or.inl hv
          · obtain ⟨hfree, y, hy, hstep⟩ := hadded.mp hv
            exact Or.inr ⟨y, hy, Or.inr ⟨v, hstep, hfree, within_self n v⟩⟩
          · obtain ⟨hfree, y, hy, hstep⟩ := hadded.mp hx
            have hpast : Within R (· ∈ seen) n x v :=
              hway.anti fun z hz => List.mem_append_left _ hz
            exact Or.inr ⟨y, hy, Or.inr ⟨x, hstep, hfree, hpast⟩⟩
        · rintro (hv | ⟨x, hx, rfl | ⟨c, hc, hfree, hway⟩⟩)
          · exact Or.inl (Or.inl hv)
          · exact Or.inl (Or.inl (hlayer hx))
          -- the way goes on from its last node in the new layer
          · have hmem : c ∈ next layer seen := hadded.mpr ⟨hfree, x, hx, hc⟩
            have happend : ∀ z, z ∈ seen ++ next layer seen →
                z ∈ seen ∨ z ∈ next layer seen := fun z hz => List.mem_append.mp hz
            rcases hway.past_or_from (· ∈ next layer seen) with hpast | ⟨c', hc', hfrom⟩
            · exact Or.inr ⟨c, hmem, hpast.anti happend⟩
            · exact Or.inr ⟨c', hc', hfrom.anti happend⟩

/-! ## Searches from several roots -/

variable (next)

/-- A search from a root, which is seen with it. -/
def searchRoot (depth : ℕ) (seen : List α) (root : α) : List α :=
  expand next depth [root] (if root ∈ seen then seen else seen ++ [root])

/-- The searches from the roots, one after the other. -/
def searchAll (depth : ℕ) (roots : List α) : List α := roots.foldl (searchRoot next depth) []

variable {next}

/-- A search from a root adds the nodes near it on a way past those seen before. -/
theorem mem_searchRoot (hnext : IsNext next R) {n : ℕ} {seen : List α} {root v : α} :
    v ∈ searchRoot next n seen root ↔ v ∈ seen ∨ Within R (· ∈ seen) n root v := by
  unfold searchRoot
  split_ifs with hroot
  · rw [mem_expand hnext (by simpa using hroot)]
    simp
  · rw [mem_expand hnext (by simp)]
    simp only [List.mem_append, List.mem_singleton, exists_eq_left]
    constructor
    · rintro ((hv | rfl) | hway)
      · exact Or.inl hv
      · exact Or.inr (within_self n v)
      · exact Or.inr (hway.anti fun x hx => Or.inl hx)
    · rintro (hv | hway)
      · exact Or.inl (Or.inl hv)
      · rcases hway.past_or_from (· = root) with hpast | ⟨c, rfl, hfrom⟩
        · exact Or.inr hpast
        · exact Or.inr hfrom

lemma searchAll_concat (n : ℕ) (roots : List α) (root : α) :
    searchAll next n (roots ++ [root]) = searchRoot next n (searchAll next n roots) root := by
  rw [searchAll, List.foldl_append]
  rfl

lemma searchAll_append_subset (hnext : IsNext next R) {n : ℕ} (roots later : List α) :
    searchAll next n roots ⊆ searchAll next n (roots ++ later) := by
  induction later using List.reverseRecOn with
  | nil => simp
  | append_singleton later root ih =>
      rw [← List.append_assoc, searchAll_concat]
      exact fun v hv => (mem_searchRoot hnext).mpr (Or.inl (ih hv))

/-- What is found is near a root. -/
theorem exists_root_of_mem (hnext : IsNext next R) {n : ℕ} {roots : List α} {v : α}
    (h : v ∈ searchAll next n roots) : ∃ root ∈ roots, Within R (fun _ => False) n root v := by
  induction roots using List.reverseRecOn with
  | nil => exact absurd h List.not_mem_nil
  | append_singleton roots root ih =>
      rw [searchAll_concat, mem_searchRoot hnext] at h
      rcases h with h | hway
      · obtain ⟨r, hr, hnear⟩ := ih h
        exact ⟨r, List.mem_append_left _ hr, hnear⟩
      · exact ⟨root, by simp, hway.anti fun _ hfalse => hfalse.elim⟩

/-- A root and what is one step from it is found. -/
theorem mem_searchAll_of_step (hnext : IsNext next R) {n : ℕ} (hn : 1 ≤ n) {roots : List α}
    {root v : α} (hroot : root ∈ roots) (hv : v = root ∨ R root v) :
    v ∈ searchAll next n roots := by
  obtain ⟨before, after, rfl⟩ := List.append_of_mem hroot
  obtain ⟨m, rfl⟩ : ∃ m, n = m + 1 := ⟨n - 1, by omega⟩
  rw [show before ++ root :: after = (before ++ [root]) ++ after by simp]
  refine searchAll_append_subset hnext _ _ ?_
  rw [searchAll_concat, mem_searchRoot hnext]
  by_cases hseen : v ∈ searchAll next (m + 1) before
  · exact Or.inl hseen
  · rcases hv with rfl | hstep
    · exact Or.inr (within_self _ v)
    · exact Or.inr (Or.inr ⟨v, hstep, hseen, within_self m v⟩)

/-- No root is cut off: a node near it that is not near an earlier one is near it on a way past the
nodes that are. -/
def Uncut (R : α → α → Prop) (n : ℕ) (roots : List α) : Prop :=
  ∀ before root after, roots = before ++ root :: after → ∀ v,
    Within R (fun _ => False) n root v →
      (∃ r ∈ before, Within R (fun _ => False) n r v) ∨
        Within R (fun x => ∃ r ∈ before, Within R (fun _ => False) n r x) n root v

omit [DecidableEq α] in
lemma uncut_singleton {n : ℕ} (root : α) : Uncut R n [root] := by
  intro before r after heq v hnear
  rcases List.singleton_eq_append_iff.mp heq with ⟨rfl, hr⟩ | ⟨-, hr⟩
  · obtain ⟨rfl, -⟩ := List.cons.inj hr
    exact Or.inr (hnear.anti fun x hx => by simp at hx)
  · exact absurd hr (by simp)

/-- If no root is cut off, everything near a root is found. -/
theorem mem_searchAll_of_uncut (hnext : IsNext next R) {n : ℕ} {roots : List α}
    (huncut : Uncut R n roots) {v : α} :
    v ∈ searchAll next n roots ↔ ∃ root ∈ roots, Within R (fun _ => False) n root v := by
  refine ⟨exists_root_of_mem hnext, ?_⟩
  induction roots using List.reverseRecOn with
  | nil => simp
  | append_singleton roots root ih =>
      have hearlier : Uncut R n roots := by
        intro before r after heq
        exact huncut before r (after ++ [root]) (by rw [heq]; simp)
      rintro ⟨r, hr, hnear⟩
      rw [searchAll_concat, mem_searchRoot hnext]
      rcases List.mem_append.mp hr with hr | hr
      · exact Or.inl (ih hearlier ⟨r, hr, hnear⟩)
      · rw [List.mem_singleton.mp hr] at hnear
        rcases huncut roots root [] rfl v hnear with hbefore | hway
        · exact Or.inl (ih hearlier hbefore)
        · exact Or.inr (hway.anti fun x hx => exists_root_of_mem hnext hx)

end LayerSearch
