import Mathlib.Data.List.Basic
import Mathlib.Tactic.Common

/-!
# Named savepoints

A state with a stack of named snapshots.  Setting a savepoint pushes the current state under a
name; a name may be pushed several times.  Rolling back to a name restores the innermost snapshot
of that name and drops those above it, but keeps the snapshot itself; releasing a name drops the
innermost snapshot of that name and those above it, and keeps the current state.

`Everywhere` lifts a predicate on states to the current state and all snapshots.  It is what an
invariant has to be in a system that may roll back: each operation below keeps it, so that a
client proves its invariant for its own updates only.  `Nested` does the same for a preorder in
which every update goes up: then a rollback goes down.
-/

/-- A state with its stack of named snapshots, innermost first. -/
structure SavepointStack (ν σ : Type*) where
  current : σ
  saved : List (ν × σ)

namespace SavepointStack

variable {ν σ τ : Type*}

def modify (t : SavepointStack ν σ) (f : σ → σ) : SavepointStack ν σ :=
  { t with current := f t.current }

/-- `SAVEPOINT name`. -/
def push (t : SavepointStack ν σ) (name : ν) : SavepointStack ν σ :=
  { t with saved := (name, t.current) :: t.saved }

/-- Apply a function to the current state and all snapshots. -/
def map (f : σ → τ) (t : SavepointStack ν σ) : SavepointStack ν τ :=
  ⟨f t.current, t.saved.map fun e => (e.1, f e.2)⟩

lemma map_push (f : σ → τ) (t : SavepointStack ν σ) (name : ν) :
    (t.push name).map f = (t.map f).push name := rfl

lemma map_modify {f : σ → τ} {u : σ → σ} {u' : τ → τ} (t : SavepointStack ν σ)
    (h : f (u t.current) = u' (f t.current)) : (t.modify u).map f = (t.map f).modify u' := by
  rw [modify, modify, map, map, h]

/-- The predicate holds of the current state and of all snapshots. -/
def Everywhere (P : σ → Prop) (t : SavepointStack ν σ) : Prop :=
  P t.current ∧ ∀ e ∈ t.saved, P e.2

section Everywhere

variable {P : σ → Prop} {t : SavepointStack ν σ} {name : ν}

lemma everywhere_modify (h : Everywhere P t) {f : σ → σ} (hf : P (f t.current)) :
    Everywhere P (t.modify f) :=
  ⟨hf, h.2⟩

lemma everywhere_push (h : Everywhere P t) : Everywhere P (t.push name) := by
  refine ⟨h.1, fun e he => ?_⟩
  rcases List.mem_cons.mp he with rfl | he
  · exact h.1
  · exact h.2 e he

end Everywhere

section Nested

variable {R : σ → σ → Prop} {t : SavepointStack ν σ} {name : ν}

/-- Each snapshot is below all that were taken after it, and below the current state. -/
def Nested (R : σ → σ → Prop) (t : SavepointStack ν σ) : Prop :=
  (t.current :: t.saved.map Prod.snd).Pairwise fun newer older => R older newer

lemma nested_of_saved_nil (t : SavepointStack ν σ) (h : t.saved = []) : Nested R t := by
  rw [Nested, h]
  exact List.pairwise_singleton _ _

lemma nested_modify (htrans : ∀ a b c, R a b → R b c → R a c) (h : Nested R t) {f : σ → σ}
    (hf : R t.current (f t.current)) : Nested R (t.modify f) := by
  obtain ⟨hcurrent, hsaved⟩ := List.pairwise_cons.mp h
  exact List.pairwise_cons.mpr ⟨fun s hs => htrans _ _ _ (hcurrent s hs) hf, hsaved⟩

lemma nested_push (hrefl : ∀ a, R a a) (h : Nested R t) : Nested R (t.push name) := by
  obtain ⟨hcurrent, -⟩ := List.pairwise_cons.mp h
  refine List.pairwise_cons.mpr ⟨fun s hs => ?_, h⟩
  rcases List.mem_cons.mp hs with rfl | hs
  · exact hrefl _
  · exact hcurrent s hs

end Nested

variable [DecidableEq ν]

/-- The stack from the innermost snapshot of `name` on. -/
def innermost (t : SavepointStack ν σ) (name : ν) : List (ν × σ) :=
  t.saved.dropWhile fun e => decide (e.1 ≠ name)

/-- `ROLLBACK TO name`; `none` when there is no such savepoint. -/
def rollbackTo (t : SavepointStack ν σ) (name : ν) : Option (SavepointStack ν σ) :=
  match t.innermost name with
  | [] => none
  | e :: rest => some ⟨e.2, e :: rest⟩

/-- `RELEASE name`; `none` when there is no such savepoint. -/
def release (t : SavepointStack ν σ) (name : ν) : Option (SavepointStack ν σ) :=
  match t.innermost name with
  | [] => none
  | _ :: rest => some ⟨t.current, rest⟩

lemma innermost_map (f : σ → τ) (t : SavepointStack ν σ) (name : ν) :
    (t.map f).innermost name = (t.innermost name).map fun e => (e.1, f e.2) := by
  rw [innermost, innermost, map, List.dropWhile_map]
  rfl

lemma rollbackTo_map (f : σ → τ) (t : SavepointStack ν σ) (name : ν) :
    (t.map f).rollbackTo name = (t.rollbackTo name).map (map f) := by
  rw [rollbackTo, rollbackTo, innermost_map]
  cases t.innermost name <;> rfl

lemma release_map (f : σ → τ) (t : SavepointStack ν σ) (name : ν) :
    (t.map f).release name = (t.release name).map (map f) := by
  rw [release, release, innermost_map]
  cases t.innermost name <;> rfl

variable {P : σ → Prop} {t t' : SavepointStack ν σ} {name : ν}

lemma mem_saved_of_mem_innermost {e : ν × σ} (he : e ∈ t.innermost name) : e ∈ t.saved :=
  (List.dropWhile_suffix _).subset he

lemma everywhere_rollbackTo (h : Everywhere P t) (ht : t.rollbackTo name = some t') :
    Everywhere P t' := by
  unfold rollbackTo at ht
  split at ht
  · cases ht
  · rename_i e rest heq
    have hmem : ∀ e' ∈ e :: rest, P e'.2 := fun e' he' =>
      h.2 e' (mem_saved_of_mem_innermost (heq ▸ he'))
    rw [← Option.some.inj ht]
    exact ⟨hmem e List.mem_cons_self, hmem⟩

lemma everywhere_release (h : Everywhere P t) (ht : t.release name = some t') :
    Everywhere P t' := by
  unfold release at ht
  split at ht
  · cases ht
  · rename_i e rest heq
    rw [← Option.some.inj ht]
    exact ⟨h.1, fun e' he' =>
      h.2 e' (mem_saved_of_mem_innermost (heq ▸ List.mem_cons_of_mem e he'))⟩

lemma current_of_release (ht : t.release name = some t') : t'.current = t.current := by
  unfold release at ht
  split at ht
  · cases ht
  · rw [← Option.some.inj ht]

/-- A rollback right after the savepoint, whatever happened to the current state, restores it. -/
lemma rollbackTo_modify_push (t : SavepointStack ν σ) (name : ν) (f : σ → σ) :
    ((t.push name).modify f).rollbackTo name = some (t.push name) := by
  simp [rollbackTo, innermost, push, modify]

lemma release_push (t : SavepointStack ν σ) (name : ν) :
    (t.push name).release name = some t := by
  simp [release, innermost, push]

/-! ## Snapshots of a growing state -/

section Nested

variable {R : σ → σ → Prop}

lemma nested_release (h : Nested R t) (ht : t.release name = some t') : Nested R t' := by
  unfold release at ht
  split at ht
  · cases ht
  · rename_i e rest heq
    rw [← Option.some.inj ht]
    have hsub : rest.Sublist t.saved :=
      (List.sublist_cons_self e rest).trans (heq ▸ (List.dropWhile_suffix _).sublist)
    exact h.sublist ((hsub.map Prod.snd).cons_cons _)

lemma rel_of_rollbackTo (h : Nested R t) (ht : t.rollbackTo name = some t') :
    R t'.current t.current := by
  unfold rollbackTo at ht
  split at ht
  · cases ht
  · rename_i e rest heq
    rw [← Option.some.inj ht]
    have he : e ∈ t.saved := mem_saved_of_mem_innermost (heq ▸ List.mem_cons_self)
    exact (List.pairwise_cons.mp h).1 e.2 (List.mem_map_of_mem he)

lemma nested_rollbackTo (hrefl : ∀ a, R a a) (h : Nested R t)
    (ht : t.rollbackTo name = some t') : Nested R t' := by
  unfold rollbackTo at ht
  split at ht
  · cases ht
  · rename_i e rest heq
    rw [← Option.some.inj ht]
    have hsub : (e :: rest).Sublist t.saved := heq ▸ (List.dropWhile_suffix _).sublist
    have hsaved : ((e :: rest).map Prod.snd).Pairwise fun newer older => R older newer :=
      (List.pairwise_cons.mp h).2.sublist (hsub.map Prod.snd)
    refine List.pairwise_cons.mpr ⟨fun s hs => ?_, hsaved⟩
    rcases List.mem_cons.mp hs with rfl | hs
    · exact hrefl _
    · exact (List.pairwise_cons.mp hsaved).1 s hs

end Nested

end SavepointStack
