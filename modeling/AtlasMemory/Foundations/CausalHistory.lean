import AtlasMemory.Foundations.VectorClocks
import Mathlib.Logic.Relation

/-!
# Vector clocks and causal order

A history records beside the clocks what causality is made of: which stamps a process has emitted
or received, and for each stamp what its process knew when it was emitted.  One stamp precedes
another if a chain of these parents leads from the second to the first; no clock is compared for
that.  `History.le_iff_precedes` says that the comparison of clocks decides this order.

The invariant is `History.Ok`: the counter of a stamp's own process tells, at every process and in
every other stamp, whether the stamp is in the causal past.
-/

namespace VectorClocks

variable {ι : Type*}

/-- The clocks, the stamps in the order of their emission, the stamps that each process has emitted
or received, and what was known at each emission. -/
structure History (ι : Type*) where
  clock : ι → ι → ℤ
  sent : List (Stamp ι)
  known : ι → List ℕ
  parents : List (List ℕ)

namespace History

def init : History ι := ⟨fun _ _ => 0, [], fun _ => [], []⟩

/-- The stamp `i` was emitted or received by the process of the stamp `j` before it emitted `j`. -/
def Parent (h : History ι) (i j : ℕ) : Prop := ∃ ks, h.parents[j]? = some ks ∧ i ∈ ks

/-- A chain of parents leads from the stamp `j` to the stamp `i`. -/
def Precedes (h : History ι) : ℕ → ℕ → Prop := Relation.TransGen h.Parent

/-- The stamp `i` is in the causal past of the process. -/
def Seen (h : History ι) (n : ι) (i : ℕ) : Prop := ∃ k ∈ h.known n, i = k ∨ h.Precedes i k

def system (h : History ι) : System ι := ⟨h.clock, {e | e ∈ h.sent}⟩

/-- The invariant of a history. -/
structure Ok (h : History ι) : Prop where
  causal : Causal h.system
  length : h.parents.length = h.sent.length
  known_lt : ∀ n, ∀ k ∈ h.known n, k < h.sent.length
  older : ∀ i j, h.Parent i j → i < j
  seen : ∀ n i e, h.sent[i]? = some e → (e.vector e.source ≤ h.clock n e.source ↔ h.Seen n i)
  order : ∀ i j e e', h.sent[i]? = some e → h.sent[j]? = some e' →
    (e.vector e.source ≤ e'.vector e.source ↔ i = j ∨ h.Precedes i j)

variable {h : History ι}

lemma ok_init : Ok (init : History ι) where
  causal := by
    have hsystem : (init : History ι).system = VectorClocks.init :=
      System.ext rfl (Set.ext fun e => ⟨fun he => absurd he List.not_mem_nil, nofun⟩)
    rw [hsystem]
    exact causal_init
  length := rfl
  known_lt _ _ hk := absurd hk List.not_mem_nil
  older _ _ hparent := by
    obtain ⟨_, hks, _⟩ := hparent
    cases hks
  seen _ _ _ he := by cases he
  order _ _ _ _ he := by cases he

lemma Ok.lt_of_precedes (hok : h.Ok) {i j : ℕ} (hij : h.Precedes i j) : i < j := by
  induction hij with
  | single hparent => exact hok.older _ _ hparent
  | tail _ hparent ih => exact ih.trans (hok.older _ _ hparent)

/-- **Clocks decide causality.** The clock of one stamp is strictly below that of another exactly if
the first precedes the second. -/
theorem Ok.le_iff_precedes (hok : h.Ok) {i j : ℕ} {e e' : Stamp ι} (hi : h.sent[i]? = some e)
    (hj : h.sent[j]? = some e') :
    ((∀ k, e.vector k ≤ e'.vector k) ∧ ∃ k, e.vector k < e'.vector k) ↔ h.Precedes i j := by
  have he : e ∈ h.system.sent := List.mem_of_getElem? hi
  have he' : e' ∈ h.system.sent := List.mem_of_getElem? hj
  constructor
  · rintro ⟨hle, k, hlt⟩
    rcases (hok.order i j e e' hi hj).mp (hle e.source) with rfl | hprecedes
    · have hsame : e = e' := Option.some.inj (hi.symm.trans hj)
      rw [hsame] at hlt
      omega
    · exact hprecedes
  · intro hprecedes
    have hown := (hok.order i j e e' hi hj).mpr (Or.inr hprecedes)
    refine ⟨hok.causal.past_of_sent e he e' he' hown, ?_⟩
    by_contra hnone
    rw [not_exists] at hnone
    -- otherwise the clocks agree, and each stamp precedes the other
    have hback := (hok.order j i e' e hj hi).mp (not_lt.mp (hnone e'.source))
    have hlt := hok.lt_of_precedes hprecedes
    rcases hback with rfl | hback
    · omega
    · have hgt := hok.lt_of_precedes hback
      omega

/-! ## Steps -/

variable [DecidableEq ι]

def emit (h : History ι) (n : ι) : History ι where
  clock m := if m = n then tickClock n (h.clock n) else h.clock m
  sent := h.sent ++ [⟨n, tickClock n (h.clock n)⟩]
  known m := if m = n then h.known n ++ [h.sent.length] else h.known m
  parents := h.parents ++ [h.known n]

/-- A process receives the stamp `e`, which has the number `i`. -/
def receive (h : History ι) (n : ι) (i : ℕ) (e : Stamp ι) : History ι where
  clock m := if m = n then tickClock n fun k => max (h.clock n k) (e.vector k) else h.clock m
  sent := h.sent
  known m := if m = n then h.known n ++ [i] else h.known m
  parents := h.parents

section Emit

variable {n : ι}

lemma parent_emit_iff (hok : h.Ok) {i j : ℕ} :
    (h.emit n).Parent i j ↔ h.Parent i j ∨ (j = h.sent.length ∧ i ∈ h.known n) := by
  show (∃ ks, (h.parents ++ [h.known n])[j]? = some ks ∧ i ∈ ks) ↔ _
  rcases lt_trichotomy j h.parents.length with hlt | rfl | hgt
  · rw [List.getElem?_append_left hlt]
    have hne : j ≠ h.sent.length := by
      have hlength := hok.length
      omega
    exact ⟨Or.inl, fun hor => hor.resolve_right fun hnew => hne hnew.1⟩
  · rw [List.getElem?_concat_length]
    constructor
    · rintro ⟨ks, hks, hi⟩
      exact Or.inr ⟨hok.length, Option.some.inj hks ▸ hi⟩
    · rintro (⟨ks, hks, -⟩ | ⟨-, hi⟩)
      · rw [List.getElem?_eq_none le_rfl] at hks
        cases hks
      · exact ⟨_, rfl, hi⟩
  · have hne : j ≠ h.sent.length := by
      have hlength := hok.length
      omega
    have hnone : (h.parents ++ [h.known n])[j]? = none :=
      List.getElem?_eq_none (by rw [List.length_append, List.length_singleton]; omega)
    rw [hnone]
    constructor
    · rintro ⟨ks, hks, -⟩
      cases hks
    · rintro (⟨ks, hks, -⟩ | ⟨hnew, -⟩)
      · rw [List.getElem?_eq_none hgt.le] at hks
        cases hks
      · exact absurd hnew hne

lemma precedes_emit_iff_of_lt (hok : h.Ok) {i j : ℕ} (hj : j < h.sent.length) :
    (h.emit n).Precedes i j ↔ h.Precedes i j := by
  constructor
  · intro hprecedes
    induction hprecedes with
    | single hparent =>
        rcases (parent_emit_iff hok).mp hparent with hold | ⟨hnew, -⟩
        · exact Relation.TransGen.single hold
        · omega
    | tail _ hparent ih =>
        rcases (parent_emit_iff hok).mp hparent with hold | ⟨hnew, -⟩
        · exact (ih ((hok.older _ _ hold).trans hj)).tail hold
        · omega
  · intro hprecedes
    have hmono : h.Parent ≤ (h.emit n).Parent := fun _ _ hparent =>
      (parent_emit_iff hok).mpr (Or.inl hparent)
    exact Relation.TransGen.mono hmono i j hprecedes

/-- What precedes the new stamp is what its process had seen. -/
lemma precedes_emit_length_iff (hok : h.Ok) {i : ℕ} :
    (h.emit n).Precedes i h.sent.length ↔ h.Seen n i := by
  rw [Precedes, Relation.TransGen.tail'_iff]
  constructor
  · rintro ⟨k, hrefl, hparent⟩
    rcases (parent_emit_iff hok).mp hparent with hold | ⟨-, hk⟩
    · obtain ⟨ks, hks, -⟩ := hold
      rw [List.getElem?_eq_none hok.length.le] at hks
      cases hks
    · refine ⟨k, hk, ?_⟩
      rcases Relation.reflTransGen_iff_eq_or_transGen.mp hrefl with heq | htrans
      · exact Or.inl heq.symm
      · exact Or.inr ((precedes_emit_iff_of_lt hok (hok.known_lt n k hk)).mp htrans)
  · rintro ⟨k, hk, hik⟩
    refine ⟨k, ?_, (parent_emit_iff hok).mpr (Or.inr ⟨rfl, hk⟩)⟩
    rcases hik with rfl | hik
    · exact Relation.ReflTransGen.refl
    · exact ((precedes_emit_iff_of_lt hok (hok.known_lt n k hk)).mpr hik).to_reflTransGen

/-- What a process had seen before it emitted a stamp it has seen after. -/
lemma seen_emit_iff (hok : h.Ok) {i : ℕ} (hi : i < h.sent.length) (m : ι) :
    (h.emit n).Seen m i ↔ h.Seen m i := by
  have hold : (∃ k ∈ h.known m, i = k ∨ (h.emit n).Precedes i k) ↔ h.Seen m i := by
    refine exists_congr fun k => and_congr_right fun hk => ?_
    rw [precedes_emit_iff_of_lt hok (hok.known_lt m k hk)]
  show (∃ k ∈ (if m = n then h.known n ++ [h.sent.length] else h.known m),
    i = k ∨ (h.emit n).Precedes i k) ↔ _
  split_ifs with hm
  · subst hm
    simp only [List.mem_append, List.mem_singleton, or_and_right, exists_or, exists_eq_left,
      precedes_emit_length_iff hok]
    rw [hold]
    constructor
    · rintro (hseen | hnew | hseen)
      · exact hseen
      · omega
      · exact hseen
    · exact Or.inl
  · exact hold

omit [DecidableEq ι] in
lemma Ok.own_le (hok : h.Ok) {i : ℕ} {e : Stamp ι} (hi : h.sent[i]? = some e) :
    e.vector e.source ≤ h.clock e.source e.source :=
  hok.causal.sent_le_own e (List.mem_of_getElem? hi) e.source

/-- Counting an own event makes no stamp known: the own stamps are known before. -/
lemma own_le_tickClock_iff {e : Stamp ι} {v : ι → ℤ}
    (hown : e.source = n → e.vector e.source ≤ v e.source) :
    e.vector e.source ≤ tickClock n v e.source ↔ e.vector e.source ≤ v e.source := by
  by_cases hsource : e.source = n
  · have hle := hown hsource
    exact ⟨fun _ => hle, fun _ => hle.trans (le_tickClock n v _)⟩
  · rw [tickClock_of_ne v hsource]

/-- **An emission.** -/
lemma ok_emit (hok : h.Ok) (n : ι) : (h.emit n).Ok := by
  set new : Stamp ι := ⟨n, tickClock n (h.clock n)⟩ with hnew
  have hnewOwn : new.vector new.source = h.clock n n + 1 := tickClock_self n (h.clock n)
  -- a stamp is an old one or the new one
  have hcases : ∀ i e, (h.emit n).sent[i]? = some e →
      (i < h.sent.length ∧ h.sent[i]? = some e) ∨ (i = h.sent.length ∧ e = new) := by
    intro i e he
    change (h.sent ++ [new])[i]? = some e at he
    rcases lt_trichotomy i h.sent.length with hlt | rfl | hgt
    · rw [List.getElem?_append_left hlt] at he
      exact Or.inl ⟨hlt, he⟩
    · rw [List.getElem?_concat_length] at he
      exact Or.inr ⟨rfl, (Option.some.inj he).symm⟩
    · rw [List.getElem?_eq_none (by rw [List.length_append, List.length_singleton]; omega)] at he
      cases he
  have hclock : ∀ (i : ℕ) (e : Stamp ι), h.sent[i]? = some e →
      (e.vector e.source ≤ tickClock n (h.clock n) e.source ↔
        e.vector e.source ≤ h.clock n e.source) := fun i e he =>
    own_le_tickClock_iff fun hsource => hsource ▸ hok.own_le he
  refine ⟨?_, ?_, ?_, ?_, ?_, ?_⟩
  · have hsystem : (h.emit n).system = VectorClocks.emit n h.system := by
      refine System.ext rfl (Set.ext fun e => ?_)
      show e ∈ h.sent ++ [new] ↔ e = new ∨ e ∈ h.sent
      rw [List.mem_append, List.mem_singleton, or_comm]
    rw [hsystem]
    exact causal_emit hok.causal
  · show (h.parents ++ [h.known n]).length = (h.sent ++ [new]).length
    rw [List.length_append, List.length_append, hok.length]
    rfl
  · intro m k hk
    show k < (h.sent ++ [new]).length
    rw [List.length_append, List.length_singleton]
    change k ∈ (if m = n then h.known n ++ [h.sent.length] else h.known m) at hk
    split_ifs at hk
    · rcases List.mem_append.mp hk with hold | hlast
      · have hlt := hok.known_lt n k hold
        omega
      · rw [List.mem_singleton.mp hlast]
        omega
    · have hlt := hok.known_lt m k hk
      omega
  · intro i j hparent
    rcases (parent_emit_iff hok).mp hparent with hold | ⟨rfl, hknown⟩
    · exact hok.older i j hold
    · exact hok.known_lt n i hknown
  · intro m i e he
    show e.vector e.source ≤ (if m = n then tickClock n (h.clock n) else h.clock m) e.source ↔ _
    rcases hcases i e he with ⟨hlt, hold⟩ | ⟨rfl, rfl⟩
    · rw [seen_emit_iff hok hlt, ← hok.seen m i e hold]
      split_ifs with hm
      · rw [hclock i e hold, hm]
      · exact Iff.rfl
    · split_ifs with hm
      · subst hm
        refine iff_of_true le_rfl ⟨h.sent.length, ?_, Or.inl rfl⟩
        show h.sent.length ∈ (if m = m then h.known m ++ [h.sent.length] else h.known m)
        rw [if_pos rfl]
        exact List.mem_append_right _ (List.mem_singleton_self _)
      · have hahead := hok.causal.clock_le_own m n
        refine iff_of_false ?_ ?_
        · rw [hnewOwn]
          change ¬ h.clock n n + 1 ≤ h.clock m n
          change h.clock m n ≤ h.clock n n at hahead
          omega
        · rintro ⟨k, hk, hik⟩
          change k ∈ (if m = n then h.known n ++ [h.sent.length] else h.known m) at hk
          rw [if_neg hm] at hk
          have hlt := hok.known_lt m k hk
          rcases hik with heq | hprecedes
          · omega
          · have hgt := hok.lt_of_precedes ((precedes_emit_iff_of_lt hok hlt).mp hprecedes)
            omega
  · intro i j e e' he he'
    rcases hcases i e he with ⟨hi, hiold⟩ | ⟨rfl, rfl⟩
    · rcases hcases j e' he' with ⟨hj, hjold⟩ | ⟨rfl, rfl⟩
      · rw [precedes_emit_iff_of_lt hok hj]
        exact hok.order i j e e' hiold hjold
      · rw [precedes_emit_length_iff hok, ← hok.seen n i e hiold, ← hclock i e hiold]
        exact ⟨Or.inr, fun hor => hor.resolve_left (by omega)⟩
    · rcases hcases j e' he' with ⟨hj, hjold⟩ | ⟨rfl, rfl⟩
      · have hahead := hok.causal.sent_le_own e' (List.mem_of_getElem? hjold) n
        change e'.vector n ≤ h.clock n n at hahead
        refine iff_of_false ?_ ?_
        · rw [hnewOwn]
          change ¬ h.clock n n + 1 ≤ e'.vector n
          omega
        · rintro (heq | hprecedes)
          · omega
          · have hgt := hok.lt_of_precedes ((precedes_emit_iff_of_lt hok hj).mp hprecedes)
            omega
      · exact iff_of_true le_rfl (Or.inl rfl)

end Emit

/-- **A receipt.** -/
lemma ok_receive (hok : h.Ok) (n : ι) {i : ℕ} {e : Stamp ι} (hi : h.sent[i]? = some e) :
    (h.receive n i e).Ok := by
  refine ⟨?_, hok.length, ?_, hok.older, ?_, hok.order⟩
  · have hsystem : (h.receive n i e).system = VectorClocks.receive n e h.system := rfl
    rw [hsystem]
    exact causal_receive hok.causal (List.mem_of_getElem? hi)
  · intro m k hk
    change k ∈ (if m = n then h.known n ++ [i] else h.known m) at hk
    split_ifs at hk
    · rcases List.mem_append.mp hk with hold | hlast
      · exact hok.known_lt n k hold
      · rw [List.mem_singleton.mp hlast]
        exact (List.getElem?_eq_some_iff.mp hi).1
    · exact hok.known_lt m k hk
  · intro m i' e' he'
    show e'.vector e'.source ≤ (if m = n then tickClock n fun k => max (h.clock n k) (e.vector k)
      else h.clock m) e'.source ↔ ∃ k ∈ (if m = n then h.known n ++ [i] else h.known m),
        i' = k ∨ h.Precedes i' k
    split_ifs with hm
    · have hown : e'.source = n →
          e'.vector e'.source ≤ max (h.clock n e'.source) (e.vector e'.source) := fun hsource =>
        le_max_of_le_left (hsource ▸ hok.own_le he')
      have htick := own_le_tickClock_iff (v := fun k => max (h.clock n k) (e.vector k)) hown
      rw [htick, le_max_iff, hok.seen n i' e' he', hok.order i' i e' e he' hi]
      simp only [List.mem_append, List.mem_singleton, or_and_right, exists_or, exists_eq_left]
      exact Iff.rfl
    · exact hok.seen m i' e' he'

end History

end VectorClocks
