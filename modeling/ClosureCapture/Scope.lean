import ClosureCapture.Clause

/-!
# Scopes

A capture list is folded into nested scopes around its body, one for each clause and the first
clause outermost. Each scope rebinds one name, reading the binding of the scope around it.
-/

namespace ClosureCapture

/-- The rebinding of one name. -/
structure Binding where
  name : String
  mode : Mode String
  deriving DecidableEq, Repr

/-- A body inside any number of rebindings. -/
inductive Scope where
  | body (text : String)
  | bind (binding : Binding) (inner : Scope)
  deriving DecidableEq, Repr

namespace Scope

/-- The rebindings from the outermost scope inwards. -/
def bindings : Scope → List Binding
  | .body _ => []
  | .bind binding inner => binding :: inner.bindings

/-- The body at the heart of the scopes. -/
def innermost : Scope → String
  | .body text => text
  | .bind _ inner => inner.innermost

/-- The number of scopes around the body. -/
def depth : Scope → Nat
  | .body _ => 0
  | .bind _ inner => inner.depth + 1

/-- Rebindings, the first outermost, around a body. -/
def ofBindings (bindings : List Binding) (body : String) : Scope :=
  bindings.foldr .bind (.body body)

@[simp]
theorem bindings_ofBindings (bindings : List Binding) (body : String) :
    (ofBindings bindings body).bindings = bindings := by
  induction bindings with
  | nil => rfl
  | cons binding bindings ih => exact congrArg (binding :: ·) ih

@[simp]
theorem innermost_ofBindings (bindings : List Binding) (body : String) :
    (ofBindings bindings body).innermost = body := by
  induction bindings with
  | nil => rfl
  | cons binding bindings ih => exact ih

end Scope

/-- The rebinding of a clause. -/
def Clause.binding (clause : Clause String) : Binding :=
  ⟨clause.identifier, clause.mode⟩

/-- The scopes of a capture list. -/
def CaptureList.scope (list : CaptureList String) : Scope :=
  .ofBindings (list.clauses.map (·.binding)) list.body

end ClosureCapture
