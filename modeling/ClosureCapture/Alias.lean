import ClosureCapture.Clause
import ClosureCapture.Diagnostic
import ClosureCapture.Event

/-!
# Alias conflicts

Walking a capture list in order, every name is owned at first. A shared or mutable reference
puts it in that state, a method call makes it owned again, and a move leaves it as it is. A
clause conflicts when it takes a reference to a name that is bound to a mutable one, or a
mutable reference to a name that is bound to a reference of any sort. The conflict does not stop
the walk: the later clause shadows the earlier one.
-/

namespace ClosureCapture

/-- What to do about conflicts: refuse the list, or let the later clause shadow. -/
inductive AliasPolicy where
  | strict
  | shadow
  deriving DecidableEq, Repr

/-- The word for a policy. -/
def AliasPolicy.label : AliasPolicy → String
  | .strict => "strict"
  | .shadow => "shadow"

/-- The policy named by a word. -/
def AliasPolicy.ofLabel? (label : String) : Option AliasPolicy :=
  [AliasPolicy.strict, .shadow].find? (·.label == label)

/-- What a name is bound to at some point of a capture list. -/
inductive Borrow where
  | owned
  | shared
  | mutable
  deriving DecidableEq, Repr

namespace Borrow

/-- The word for a binding state. -/
def label : Borrow → String
  | .owned => "owned"
  | .shared => "shared"
  | .mutable => "mutable"

/-- The state of a name after a clause in the given mode. -/
def after {Name : Type} (state : Borrow) : Mode Name → Borrow
  | .move => state
  | .method _ => .owned
  | .ref => .shared
  | .refMut => .mutable

/-- Whether a clause in the given mode aliases the reference that a name is bound to. -/
def conflictsWith {Name : Type} (state : Borrow) : Mode Name → Bool
  | .ref => state == .mutable
  | .refMut => state == .shared || state == .mutable
  | _ => false

/-- What names are bound to at some point of a capture list. Names that are missing are owned. -/
abbrev States :=
  List (String × Borrow)

namespace States

/-- The state of a name. -/
def get (states : States) (identifier : String) : Borrow :=
  (states.lookup identifier).getD .owned

/-- The states after a clause, which puts its name in another one. -/
def afterClause (states : States) (clause : Clause String) : States :=
  (clause.identifier, (states.get clause.identifier).after clause.mode) :: states

end States

end Borrow

/-- A clause that aliases a reference, its index in the list, and what the name was bound to. -/
structure AliasConflict where
  clause : Clause String
  index : Nat
  previous : Borrow
  deriving DecidableEq, Repr

namespace AliasConflict

/-- The name that is aliased. -/
def identifier (conflict : AliasConflict) : String :=
  conflict.clause.identifier

/-- The wording of a conflict. -/
def describe (conflict : AliasConflict) : String :=
  let name := conflict.identifier
  let mode := conflict.clause.mode.label
  let number := conflict.index + 1
  s!"Clause {number} ('{mode} {name}') aliases '{name}', which is already bound to a " ++
    conflict.previous.label ++ " reference"

/-- The report of a conflict, at the offset of its clause. -/
def diagnostic (conflict : AliasConflict) : Diagnostic :=
  ⟨conflict.describe, conflict.clause.offset⟩

end AliasConflict

namespace CaptureList

/-- The conflicts among clauses from the given index on, and in the states that the clauses before
have left the names in. -/
def conflictsFrom (states : Borrow.States) (index : Nat) :
    List (Clause String) → List AliasConflict
  | [] => []
  | clause :: rest =>
      let previous := states.get clause.identifier
      let later := conflictsFrom (states.afterClause clause) (index + 1) rest
      if previous.conflictsWith clause.mode then ⟨clause, index, previous⟩ :: later else later

/-- The alias conflicts of a capture list, in clause order. -/
def conflicts (list : CaptureList String) : List AliasConflict :=
  conflictsFrom [] 0 list.clauses

/-- Apply a policy: a strict one refuses the first conflict, a shadowing one leaves a warning
for each. -/
def checkAliasing (list : CaptureList String) (policy : AliasPolicy) :
    Except AliasConflict (List Event) :=
  match policy, list.conflicts with
  | .strict, conflict :: _ => .error conflict
  | .strict, [] => .ok []
  | .shadow, conflicts => .ok (conflicts.map fun conflict => .aliasShadowed conflict.describe)

end CaptureList

end ClosureCapture
