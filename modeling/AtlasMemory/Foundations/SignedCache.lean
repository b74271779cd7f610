import Mathlib.Logic.Basic
import Mathlib.Tactic.Common

/-!
# Caches with signatures

A value that is built from a state is kept with a signature of the state, and is used again while
the signature is the same.  The value that is used is the one that would be built if no earlier
state from which a value was kept shares the signature and has another value.
-/

namespace SignedCache

variable {γ σ β : Type*} [DecidableEq σ] (sig : γ → σ) (build : γ → Option β) (keep : β → Bool)

/-- The value that is used and what is kept after it: a new value is built if there is none with the
signature of the state. -/
def lookup (g : γ) (kept : Option (σ × β)) : Option β × Option (σ × β) :=
  match kept.filter fun e => decide (e.1 = sig g) with
  | some e => (some e.2, kept)
  | none =>
    match build g with
    | some b => (some b, if keep b then some (sig g, b) else kept)
    | none => (none, kept)

/-- What is kept was built from one of the states. -/
def BuiltFrom (seen : γ → Prop) (kept : Option (σ × β)) : Prop :=
  ∀ s b, kept = some (s, b) → ∃ g, seen g ∧ sig g = s ∧ build g = some b

omit [DecidableEq σ] in
lemma builtFrom_none (seen : γ → Prop) : BuiltFrom sig build seen none := by
  intro s b h
  exact absurd h (by simp)

variable {sig build keep}

omit [DecidableEq σ] in
lemma BuiltFrom.mono {seen seen' : γ → Prop} {kept : Option (σ × β)}
    (h : BuiltFrom sig build seen kept) (hle : ∀ g, seen g → seen' g) :
    BuiltFrom sig build seen' kept := by
  intro s b hkept
  obtain ⟨g, hg, hs, hb⟩ := h s b hkept
  exact ⟨g, hle g hg, hs, hb⟩

/-- The value that is used is the one that would be built. -/
theorem lookup_fst {seen : γ → Prop} {g : γ} {kept : Option (σ × β)}
    (h : BuiltFrom sig build seen kept)
    (hseparated : ∀ g', seen g' → sig g' = sig g → build g' = build g) :
    (lookup sig build keep g kept).1 = build g := by
  unfold lookup
  split
  next e he =>
    obtain ⟨hkept, hsig⟩ := Option.filter_eq_some_iff.mp he
    obtain ⟨g', hg', hs, hb⟩ := h e.1 e.2 hkept
    have hsame := hseparated g' hg' (hs.trans (of_decide_eq_true hsig))
    rw [← hsame, hb]
  next =>
    split
    next b hb => exact hb.symm
    next hb => exact hb.symm

/-- What is kept afterwards was built from one of the states, the present one among them. -/
theorem builtFrom_lookup {seen : γ → Prop} {g : γ} {kept : Option (σ × β)}
    (h : BuiltFrom sig build seen kept) (hg : seen g) :
    BuiltFrom sig build seen (lookup sig build keep g kept).2 := by
  unfold lookup
  split
  · exact h
  · split
    next b hb =>
      dsimp only
      split_ifs
      · intro s b' hkept
        obtain ⟨rfl, rfl⟩ := Prod.mk.inj (Option.some.inj hkept)
        exact ⟨g, hg, rfl, hb⟩
      · exact h
    next => exact h

end SignedCache
