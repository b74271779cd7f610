import Mathlib.Data.List.Basic

/-!
# Runs under a guard

A system moves by events, some of which are impossible in some states.  A run is a list of events
that are all possible one after the other, and that all pass a guard on the state they happen in.
What one guarded step keeps, a guarded run keeps.
-/

namespace GuardedRun

variable {σ ε : Type*}

/-- The state after the events; `none` when an event is impossible or does not pass the guard. -/
def run (step : σ → ε → Option σ) (guard : σ → ε → Bool) : σ → List ε → Option σ
  | s, [] => some s
  | s, e :: es => if guard s e then (step s e).bind fun s' => run step guard s' es else none

variable {step : σ → ε → Option σ} {guard : σ → ε → Bool} {s s' : σ} {e : ε} {es es' : List ε}

lemma run_nil : run step guard s [] = some s := rfl

lemma run_cons : run step guard s (e :: es) = some s' ↔
    guard s e = true ∧ ∃ t, step s e = some t ∧ run step guard t es = some s' := by
  rw [run]
  split_ifs with hg
  · rw [Option.bind_eq_some_iff]
    exact ⟨fun h => ⟨hg, h⟩, fun h => h.2⟩
  · exact ⟨nofun, fun h => absurd h.1 hg⟩

/-- What every guarded step keeps holds at the end of a guarded run. -/
theorem run_invariant {Inv : σ → Prop}
    (hstep : ∀ s e s', Inv s → guard s e = true → step s e = some s' → Inv s')
    (hrun : run step guard s es = some s') (hinv : Inv s) : Inv s' := by
  induction es generalizing s with
  | nil =>
      rw [run_nil, Option.some.injEq] at hrun
      rw [← hrun]
      exact hinv
  | cons e es ih =>
      obtain ⟨hg, t, ht, hrun⟩ := run_cons.mp hrun
      exact ih hrun (hstep s e t hinv hg ht)

end GuardedRun
