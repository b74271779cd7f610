import Mathlib.Data.Set.Insert
import Mathlib.Order.Lattice
import Mathlib.Algebra.Order.Group.Int
import Mathlib.Tactic.Common

/-!
# Vector clocks

Processes with one counter for every process.  A process counts its own events, stamps what it
emits with its clock, and on receiving a stamp takes the component-wise maximum and counts the
receipt.  Stamps may be lost, reordered, duplicated, and passed on by others in the clocks that
they reach.

`Causal` is the invariant of every run: nobody is ahead of a process in that process's own
counter, and whoever has seen a stamp's own counter has seen the whole stamp.  Its consequence
`Causal.le_clock_iff` is what makes vector clocks usable for duplicate detection, and what limits
them: dominance of a stamp by a clock is a statement about the sender's counter alone, so it says
that some stamp of the sender with at least that counter has arrived, not that this one has.
-/

namespace VectorClocks

variable {ι : Type*}

/-- A stamp: who emitted it, and the clock it was emitted with. -/
structure Stamp (ι : Type*) where
  source : ι
  vector : ι → ℤ

/-- The clocks of all processes, and the stamps emitted so far. -/
@[ext]
structure System (ι : Type*) where
  clock : ι → ι → ℤ
  sent : Set (Stamp ι)

/-- All counters are zero and nothing was sent. -/
def init : System ι := ⟨fun _ _ => 0, ∅⟩

variable [DecidableEq ι]

/-- A clock after one more event of `n`. -/
def tickClock (n : ι) (v : ι → ℤ) : ι → ℤ := fun k => if k = n then v k + 1 else v k

/-- Replace the clock of `n`. -/
def System.setClock (s : System ι) (n : ι) (v : ι → ℤ) : System ι :=
  { s with clock := fun m => if m = n then v else s.clock m }

/-- An event of `n`. -/
def tick (n : ι) (s : System ι) : System ι := s.setClock n (tickClock n (s.clock n))

/-- An event of `n` that emits a stamp. -/
def emit (n : ι) (s : System ι) : System ι :=
  { tick n s with sent := insert ⟨n, tickClock n (s.clock n)⟩ s.sent }

/-- The receipt of a stamp by `n`. -/
def receive (n : ι) (e : Stamp ι) (s : System ι) : System ι :=
  s.setClock n (tickClock n fun k => max (s.clock n k) (e.vector k))

/-- The invariant of vector clocks. -/
structure Causal (s : System ι) : Prop where
  clock_nonneg : ∀ n k, 0 ≤ s.clock n k
  clock_le_own : ∀ n k, s.clock n k ≤ s.clock k k
  sent_le_own : ∀ e ∈ s.sent, ∀ k, e.vector k ≤ s.clock k k
  sent_pos : ∀ e ∈ s.sent, 0 < e.vector e.source
  past_of_clock : ∀ e ∈ s.sent, ∀ n, e.vector e.source ≤ s.clock n e.source →
    ∀ k, e.vector k ≤ s.clock n k
  past_of_sent : ∀ e ∈ s.sent, ∀ e' ∈ s.sent, e.vector e.source ≤ e'.vector e.source →
    ∀ k, e.vector k ≤ e'.vector k

omit [DecidableEq ι] in
lemma causal_init : Causal (init : System ι) where
  clock_nonneg _ _ := le_rfl
  clock_le_own _ _ := le_rfl
  sent_le_own _ he := absurd he (Set.notMem_empty _)
  sent_pos _ he := absurd he (Set.notMem_empty _)
  past_of_clock _ he := absurd he (Set.notMem_empty _)
  past_of_sent _ he := absurd he (Set.notMem_empty _)

lemma le_tickClock (n : ι) (v : ι → ℤ) (k : ι) : v k ≤ tickClock n v k := by
  unfold tickClock
  split_ifs <;> omega

lemma tickClock_of_ne {n k : ι} (v : ι → ℤ) (h : k ≠ n) : tickClock n v k = v k := if_neg h

lemma tickClock_self (n : ι) (v : ι → ℤ) : tickClock n v n = v n + 1 := if_pos rfl

section Steps

variable {s : System ι} {n : ι}

lemma setClock_clock (v : ι → ℤ) (m : ι) :
    (s.setClock n v).clock m = if m = n then v else s.clock m := rfl

/-- **Step rule.** The clock of `n` may be replaced by one that has grown, that is one event ahead
of everybody in the counter of `n`, that is ahead of nobody in another counter, and that contains
the past of what it has seen. -/
lemma causal_setClock (h : Causal s) {v : ι → ℤ} (hgrow : ∀ k, s.clock n k ≤ v k)
    (hother : ∀ k, k ≠ n → v k ≤ s.clock k k)
    (hpast : ∀ e ∈ s.sent, e.source ≠ n → e.vector e.source ≤ v e.source →
      ∀ k, e.vector k ≤ v k) : Causal (s.setClock n v) := by
  have hown : ∀ k, s.clock k k ≤ (s.setClock n v).clock k k := by
    intro k
    rw [setClock_clock]
    split_ifs with hk
    · exact hk ▸ hgrow k
    · exact le_rfl
  refine ⟨?_, ?_, fun e he k => (h.sent_le_own e he k).trans (hown k), h.sent_pos, ?_,
    h.past_of_sent⟩
  · intro m k
    rw [setClock_clock]
    split_ifs
    · exact (h.clock_nonneg n k).trans (hgrow k)
    · exact h.clock_nonneg m k
  · intro m k
    by_cases hm : m = n
    · subst hm
      by_cases hk : k = m
      · subst hk
        exact le_rfl
      · rw [setClock_clock, if_pos rfl]
        exact (hother k hk).trans (hown k)
    · rw [setClock_clock, if_neg hm]
      exact (h.clock_le_own m k).trans (hown k)
  · intro e he m hle k
    by_cases hm : m = n
    · subst hm
      rw [setClock_clock, if_pos rfl] at hle ⊢
      by_cases hsource : e.source = m
      · -- nobody is ahead of `m` in its own counter, so `m` had seen its own stamp before
        have hseen : e.vector e.source ≤ s.clock m e.source :=
          hsource ▸ h.sent_le_own e he e.source
        exact (h.past_of_clock e he m hseen k).trans (hgrow k)
      · exact hpast e he hsource hle k
    · rw [setClock_clock, if_neg hm] at hle ⊢
      exact h.past_of_clock e he m hle k

lemma causal_tick (h : Causal s) : Causal (tick n s) := by
  refine causal_setClock h (le_tickClock n _) ?_ ?_
  · intro k hk
    rw [tickClock_of_ne _ hk]
    exact h.clock_le_own n k
  · intro e he hsource hle k
    rw [tickClock_of_ne _ hsource] at hle
    exact (h.past_of_clock e he n hle k).trans (le_tickClock n _ k)

lemma causal_emit (h : Causal s) : Causal (emit n s) := by
  have htick : Causal (tick n s) := causal_tick h
  have hclock : (tick n s).clock n = tickClock n (s.clock n) := if_pos rfl
  refine ⟨htick.clock_nonneg, htick.clock_le_own, ?_, ?_, ?_, ?_⟩
  · rintro e (rfl | he) k
    · exact hclock ▸ htick.clock_le_own n k
    · exact htick.sent_le_own e he k
  · rintro e (rfl | he)
    · change 0 < tickClock n (s.clock n) n
      rw [tickClock_self]
      have hnonneg := h.clock_nonneg n n
      omega
    · exact htick.sent_pos e he
  · rintro e (rfl | he) m hle k
    · by_cases hm : m = n
      · subst hm
        exact hclock ▸ le_rfl
      · -- the new counter is beyond what anybody else has seen
        change tickClock n (s.clock n) n ≤
          (if m = n then tickClock n (s.clock n) else s.clock m) n at hle
        rw [if_neg hm, tickClock_self] at hle
        have hahead := h.clock_le_own m n
        omega
    · exact htick.past_of_clock e he m hle k
  · rintro e (rfl | he) e' (rfl | he') hle k
    · exact le_rfl
    · change tickClock n (s.clock n) n ≤ e'.vector n at hle
      rw [tickClock_self] at hle
      have hahead := h.sent_le_own e' he' n
      omega
    · rw [← hclock] at hle ⊢
      exact htick.past_of_clock e he n hle k
    · exact h.past_of_sent e he e' he' hle k

lemma causal_receive (h : Causal s) {e : Stamp ι} (he : e ∈ s.sent) : Causal (receive n e s) := by
  refine causal_setClock h ?_ ?_ ?_
  · intro k
    exact (le_max_left _ _).trans (le_tickClock n _ k)
  · intro k hk
    rw [tickClock_of_ne _ hk]
    exact max_le (h.clock_le_own n k) (h.sent_le_own e he k)
  · intro e' he' hsource hle k
    rw [tickClock_of_ne _ hsource] at hle
    refine le_trans ?_ (le_tickClock n _ k)
    rcases le_max_iff.mp hle with hseen | hseen
    · exact (h.past_of_clock e' he' n hseen k).trans (le_max_left _ _)
    · exact (h.past_of_sent e' he' e he hseen k).trans (le_max_right _ _)

end Steps

omit [DecidableEq ι] in
/-- **Dominance is about the sender's counter.** -/
lemma Causal.le_clock_iff {s : System ι} (h : Causal s) {e : Stamp ι} (he : e ∈ s.sent) (n : ι) :
    (∀ k, e.vector k ≤ s.clock n k) ↔ e.vector e.source ≤ s.clock n e.source :=
  ⟨fun hall => hall e.source, fun hle => h.past_of_clock e he n hle⟩

end VectorClocks
