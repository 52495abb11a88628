import ClosureCapture.Scope
import Mathlib.Logic.Function.Basic

/-!
# Evaluation of scopes

Scopes are evaluated from the outermost one inwards.  Each of them computes a new meaning for its
name from the meaning that is visible around it, and what is inside sees the new one.  A capture
list can also be read without scopes: its clauses change an environment one after the other.

This file proves that the scopes of a capture list reach its body in the environment of its
clauses, and that a name's meaning there comes from the clauses that capture this very name,
applied in order to what the name meant before.  What the modes do is left open, and so is what
the names mean; a name without a value can be given a meaning of its own.
-/

namespace ClosureCapture

/-- What every name means. -/
abbrev Scope.Environment (Meaning : Type*) := String → Meaning

section

variable {Meaning : Type*} (modes : Mode String → Meaning → Meaning)

/-- The environment in which a name has a new meaning, made from its old one. -/
def Scope.Environment.rebind (environment : Scope.Environment Meaning) (name : String)
    (mode : Mode String) : Scope.Environment Meaning :=
  Function.update environment name (modes mode (environment name))

/-- The body that scopes lead to, and the environment that it is reached in. -/
def Scope.evaluate (environment : Scope.Environment Meaning) :
    Scope → String × Scope.Environment Meaning
  | .body text => (text, environment)
  | .bind binding inner =>
      inner.evaluate (environment.rebind modes binding.name binding.mode)

/-- The environment after clauses, the first of them applied first. -/
def Scope.Environment.capture (environment : Scope.Environment Meaning)
    (clauses : List (Clause String)) : Scope.Environment Meaning :=
  clauses.foldl (fun current clause => current.rebind modes clause.identifier clause.mode)
    environment

/-- What the modes of clauses make of a meaning, the first of them applied first. -/
def Mode.compose (clauses : List (Clause String)) (meaning : Meaning) : Meaning :=
  clauses.foldl (fun current clause => modes clause.mode current) meaning

theorem Scope.Environment.rebind_self (environment : Scope.Environment Meaning) (name : String)
    (mode : Mode String) :
    environment.rebind modes name mode name = modes mode (environment name) :=
  Function.update_self name _ environment

theorem Scope.Environment.rebind_of_ne (environment : Scope.Environment Meaning)
    {name other : String} (mode : Mode String) (different : other ≠ name) :
    environment.rebind modes name mode other = environment other :=
  Function.update_of_ne different _ environment

theorem Scope.Environment.capture_cons (environment : Scope.Environment Meaning)
    (clause : Clause String) (clauses : List (Clause String)) :
    environment.capture modes (clause :: clauses) =
      (environment.rebind modes clause.identifier clause.mode).capture modes clauses :=
  rfl

/-- The scopes are folded from the right, yet they are entered in the order of the clauses. -/
theorem Scope.evaluate_ofBindings (environment : Scope.Environment Meaning)
    (clauses : List (Clause String)) (body : String) :
    (Scope.ofBindings (clauses.map (·.binding)) body).evaluate modes environment =
      (body, environment.capture modes clauses) := by
  induction clauses generalizing environment with
  | nil => rfl
  | cons clause clauses ih =>
      rw [Scope.Environment.capture_cons]
      exact ih (environment.rebind modes clause.identifier clause.mode)

/-- One clause changes the meaning of the name that it captures, and of no other, so every name
goes through its own clauses only. -/
theorem Scope.Environment.capture_apply (environment : Scope.Environment Meaning)
    (clauses : List (Clause String)) (name : String) :
    environment.capture modes clauses name =
      Mode.compose modes (clauses.filter (·.identifier = name)) (environment name) := by
  induction clauses generalizing environment with
  | nil => rfl
  | cons clause clauses ih =>
      rw [capture_cons, ih]
      by_cases captured : clause.identifier = name
      · subst captured
        rw [rebind_self, List.filter_cons_of_pos (by simp)]
        rfl
      · rw [rebind_of_ne modes environment clause.mode (Ne.symm captured),
          List.filter_cons_of_neg (by simpa using captured)]

namespace CaptureList

theorem clausesFor_eq_nil_of_not_mem {list : CaptureList String} {name : String}
    (free : name ∉ list.identifiers) : list.clausesFor name = [] := by
  simp only [clausesFor, List.filter_eq_nil_iff, decide_eq_true_eq]
  intro clause member captured
  exact free (captured ▸ List.mem_map_of_mem member)

/-- The scopes of a capture list reach its body in the environment of its clauses, applied from
the first to the last.  There every name means what the clauses that capture it make, in order,
of its original meaning, and a name that no clause captures means what it did before. -/
theorem evaluate_scope (list : CaptureList String) (environment : Scope.Environment Meaning) :
    list.scope.evaluate modes environment =
        (list.body, environment.capture modes list.clauses) ∧
      (∀ name, environment.capture modes list.clauses name =
        Mode.compose modes (list.clausesFor name) (environment name)) ∧
      ∀ name, name ∉ list.identifiers →
        environment.capture modes list.clauses name = environment name := by
  refine ⟨Scope.evaluate_ofBindings modes environment list.clauses list.body,
    Scope.Environment.capture_apply modes environment list.clauses, ?_⟩
  intro name free
  have own := Scope.Environment.capture_apply modes environment list.clauses name
  have none : list.clauses.filter (·.identifier = name) = [] :=
    clausesFor_eq_nil_of_not_mem free
  rw [own, none]
  rfl

end CaptureList

end

end ClosureCapture
