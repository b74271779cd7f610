import Mathlib.Tactic.Common

/-!
# Programs of database statements

A program that issues statements one after another against a database in autocommit mode.  A
statement is atomic: it changes the database as a whole, or it raises and leaves the database as it
was.  Nothing makes several statements atomic, so what a program leaves behind when it raises is
what the statements before the failing one did.

A run takes the position of one statement that fails for a reason outside the program (a full disk,
a lock, an interrupt), if any.  A statement may also raise by itself.
-/

/-- A program over databases `σ` with exceptions `ε` and result `α`.  What follows a statement sees
the value that the statement gives back, or the exception that it raises. -/
inductive Statements (σ ε α : Type) : Type 1
  | done (result : Except ε α)
  | exec {β : Type} (statement : σ → Except ε (σ × β)) (next : Except ε β → Statements σ ε α)

namespace Statements

variable {σ ε α β : Type}

/-- A statement whose exception ends the program. -/
def stmt (statement : σ → Except ε (σ × β)) (next : β → Statements σ ε α) : Statements σ ε α :=
  exec statement fun
    | .error e => done (.error e)
    | .ok b => next b

/-- The position of the fault as the program counts it after one statement. -/
def later : Option ℕ → Option ℕ
  | some (n + 1) => some n
  | _ => none

@[simp] lemma later_none : later none = none := rfl

@[simp] lemma later_succ (n : ℕ) : later (some (n + 1)) = some n := rfl

lemma later_ne_zero {fault : Option ℕ} (h₀ : fault ≠ some 0) (h₁ : fault ≠ some 1) :
    later fault ≠ some 0 := by
  rcases fault with _ | _ | _ | n
  · nofun
  · exact absurd rfl h₀
  · exact absurd rfl h₁
  · nofun

/-- Execute one statement, which fails with `err` when the fault is here. -/
def attempt (err : ε) (statement : σ → Except ε (σ × β)) (fault : Option ℕ) (s : σ) :
    σ × Except ε β :=
  if fault = some 0 then (s, .error err)
  else match statement s with
    | .error e => (s, .error e)
    | .ok (s', b) => (s', .ok b)

/-- Run a program; the statement at position `fault` fails with `err`. -/
def run (err : ε) : Statements σ ε α → Option ℕ → σ → σ × Except ε α
  | done result, _, s => (s, result)
  | exec statement next, fault, s =>
    (next (attempt err statement fault s).2).run err (later fault)
      (attempt err statement fault s).1

variable {err : ε} {statement : σ → Except ε (σ × β)} {fault : Option ℕ} {s s' : σ}

@[simp] lemma run_done (result : Except ε α) (fault : Option ℕ) (s : σ) :
    (done result).run err fault s = (s, result) := rfl

lemma attempt_ok (hfault : fault ≠ some 0) {b : β} (hok : statement s = .ok (s', b)) :
    attempt err statement fault s = (s', .ok b) := by
  rw [attempt, if_neg hfault, hok]

lemma attempt_error (hfault : fault ≠ some 0) {e : ε} (herr : statement s = .error e) :
    attempt err statement fault s = (s, .error e) := by
  rw [attempt, if_neg hfault, herr]

lemma run_stmt_ok (next : β → Statements σ ε α) (hfault : fault ≠ some 0) {b : β}
    (hok : statement s = .ok (s', b)) :
    (stmt statement next).run err fault s = (next b).run err (later fault) s' := by
  rw [stmt, run, attempt_ok hfault hok]

lemma run_stmt_error (next : β → Statements σ ε α) (hfault : fault ≠ some 0) {e : ε}
    (herr : statement s = .error e) :
    (stmt statement next).run err fault s = (s, .error e) := by
  rw [stmt, run, attempt_error hfault herr]
  rfl

lemma run_stmt_fault (statement : σ → Except ε (σ × β)) (next : β → Statements σ ε α) (s : σ) :
    (stmt statement next).run err (some 0) s = (s, .error err) := rfl

/-- A query, which leaves the database as it is and does not raise by itself. -/
def query (read : σ → β) (s : σ) : Except ε (σ × β) := .ok (s, read s)

/-- A write that gives nothing back and does not raise by itself. -/
def write (change : σ → σ) (s : σ) : Except ε (σ × Unit) := .ok (change s, ())

/-- What a run leaves in the database, and the exception that it raises. -/
def outcome (r : σ × Except ε α) : σ × Option ε :=
  (r.1, match r.2 with
    | .error e => some e
    | .ok _ => none)

lemma error_of_outcome {r : σ × Except ε α} {e : ε} (h : (outcome r).2 = some e) :
    r.2 = .error e := by
  unfold outcome at h
  cases hr : r.2 with
  | error e' =>
      rw [hr] at h
      exact congrArg _ (Option.some.inj h)
  | ok a =>
      rw [hr] at h
      cases h

end Statements
