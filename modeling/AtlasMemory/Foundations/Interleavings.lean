import Mathlib.Data.List.Basic

/-!
# Interleavings of two threads

A schedule is a list of steps, each with the thread that makes it.  It interleaves the steps of its
two threads in every way in which its projections to the threads allow it: the projections are what
the threads do, and a step of a projection is found again in the schedule, with what comes before and
after it.
-/

/-- One of two threads. -/
inductive Thread
  | first
  | second
  deriving DecidableEq

namespace Thread

def other : Thread → Thread
  | first => second
  | second => first

lemma eq_or_eq_other (t u : Thread) : u = t ∨ u = t.other := by
  cases t <;> cases u <;> decide

end Thread

namespace Interleaving

variable {α : Type*} {t : Thread} {sched pre post : List (Thread × α)}

def project (t : Thread) (sched : List (Thread × α)) : List α :=
  sched.filterMap fun c => if c.1 = t then some c.2 else none

@[simp] lemma project_nil (t : Thread) : project t ([] : List (Thread × α)) = [] := rfl

@[simp] lemma project_append (t : Thread) (sched sched' : List (Thread × α)) :
    project t (sched ++ sched') = project t sched ++ project t sched' :=
  List.filterMap_append

@[simp] lemma project_cons_self (t : Thread) (a : α) (sched : List (Thread × α)) :
    project t ((t, a) :: sched) = a :: project t sched :=
  List.filterMap_cons_some (if_pos rfl)

lemma project_cons_of_ne {u : Thread} (h : u ≠ t) (a : α) (sched : List (Thread × α)) :
    project t ((u, a) :: sched) = project t sched :=
  List.filterMap_cons_none (if_neg h)

def steps (t : Thread) (as : List α) : List (Thread × α) := as.map fun a => (t, a)

@[simp] lemma project_steps_self (t : Thread) (as : List α) : project t (steps t as) = as := by
  induction as with
  | nil => rfl
  | cons a as ih => exact (project_cons_self t a _).trans (congrArg (a :: ·) ih)

lemma project_steps_of_ne {u : Thread} (h : u ≠ t) (as : List α) : project t (steps u as) = [] := by
  induction as with
  | nil => rfl
  | cons a as ih => exact (project_cons_of_ne h a _).trans ih

lemma mem_project {a : α} : a ∈ project t sched ↔ (t, a) ∈ sched := by
  unfold project
  rw [List.mem_filterMap]
  constructor
  · rintro ⟨⟨u, b⟩, hmem, hb⟩
    split_ifs at hb with hu
    rw [← Option.some.inj hb, ← hu]
    exact hmem
  · exact fun hmem => ⟨(t, a), hmem, if_pos rfl⟩

/-- A step of a thread splits the schedule where it splits the thread. -/
lemma exists_split {p q : List α} {a : α} (h : project t sched = p ++ a :: q) :
    ∃ pre post, sched = pre ++ (t, a) :: post ∧ project t pre = p ∧ project t post = q := by
  obtain ⟨pre, rest, rfl, hpre, hrest⟩ := List.filterMap_eq_append_iff.mp h
  obtain ⟨skipped, ⟨u, b⟩, post, rfl, hskipped, hb, hpost⟩ := List.filterMap_eq_cons_iff.mp hrest
  split_ifs at hb with hu
  obtain rfl : b = a := Option.some.inj hb
  obtain rfl : u = t := hu
  refine ⟨pre ++ skipped, post, by simp, ?_, hpost⟩
  have hnone : project u skipped = [] := List.filterMap_eq_nil_iff.mpr hskipped
  rw [project_append, hnone, List.append_nil]
  exact hpre

/-- Two steps of one thread, in order, split the schedule into three. -/
lemma exists_split_split {p q r : List α} {a b : α}
    (h : project t sched = p ++ a :: q ++ b :: r) :
    ∃ pre mid post, sched = pre ++ (t, a) :: mid ++ (t, b) :: post ∧ project t pre = p ∧
      project t mid = q ∧ project t post = r := by
  obtain ⟨front, post, rfl, hfront, hpost⟩ := exists_split h
  obtain ⟨pre, mid, rfl, hpre, hmid⟩ := exists_split hfront
  exact ⟨pre, mid, post, rfl, hpre, hmid, hpost⟩

/-- Two different steps of a schedule come in one order or the other. -/
lemma split_cases {x y : Thread × α} (hne : x ≠ y) {rest : List (Thread × α)}
    (h : pre ++ x :: post = sched ++ y :: rest) :
    (∃ mid, sched = pre ++ x :: mid ∧ post = mid ++ y :: rest) ∨
      ∃ mid, pre = sched ++ y :: mid ∧ rest = mid ++ x :: post := by
  rcases List.append_eq_append_iff.mp h with ⟨as, hsched, hpost⟩ | ⟨cs, hpre, hrest⟩
  · cases as with
    | nil => exact absurd (List.cons.inj hpost).1 hne
    | cons z mid =>
        obtain ⟨rfl, rfl⟩ := List.cons.inj hpost
        exact Or.inl ⟨mid, hsched, rfl⟩
  · cases cs with
    | nil => exact absurd (List.cons.inj hrest).1.symm hne
    | cons z mid =>
        obtain ⟨rfl, rfl⟩ := List.cons.inj hrest
        exact Or.inr ⟨mid, hpre, rfl⟩

end Interleaving
