/-!
# Clauses and capture lists

A clause captures one identifier in one of four modes: by moving it, by a shared reference, by
a mutable reference, or by the result of a method. A capture list is a sequence of clauses
with a body. The names are texts in every list read from source, and arbitrary document values
in a list loaded from a record, so the types leave them open. Offsets remember where a clause
or a body was written and take no part in comparing lists.
-/

namespace ClosureCapture

/-- How a captured name gets its new value. -/
inductive Mode (Name : Type) where
  | move
  | ref
  | refMut
  | method (name : Name)
  deriving DecidableEq, Repr

/-- The word for a mode. -/
def Mode.label {Name : Type} : Mode Name → String
  | .move => "move"
  | .ref => "ref"
  | .refMut => "ref mut"
  | .method _ => "method"

/-- The name of the method that a mode calls. -/
def Mode.method? {Name : Type} : Mode Name → Option Name
  | .method name => some name
  | _ => none

/-- A mode with its method name replaced. -/
def Mode.map {First Second : Type} (change : First → Second) : Mode First → Mode Second
  | .move => .move
  | .ref => .ref
  | .refMut => .refMut
  | .method name => .method (change name)

/-- The capture of one name. -/
structure Clause (Name : Type) where
  mode : Mode Name
  identifier : Name
  offset : Option Nat := none
  deriving DecidableEq, Repr

/-- A clause with its names replaced. -/
def Clause.map {First Second : Type} (change : First → Second) (clause : Clause First) :
    Clause Second :=
  ⟨clause.mode.map change, change clause.identifier, clause.offset⟩

/-- A clause without its place. -/
def Clause.unplaced {Name : Type} (clause : Clause Name) : Clause Name :=
  { clause with offset := none }

/-- Clauses in order of evaluation, and the body that sees them all. -/
structure CaptureList (Name : Type) where
  clauses : List (Clause Name)
  body : Name
  bodyOffset : Option Nat := none
  deriving DecidableEq, Repr

namespace CaptureList

/-- The captured identifiers in clause order, repetitions kept. -/
def identifiers {Name : Type} (list : CaptureList Name) : List Name :=
  list.clauses.map (·.identifier)

/-- The clauses that capture an identifier, in order. -/
def clausesFor {Name : Type} [DecidableEq Name] (list : CaptureList Name) (identifier : Name) :
    List (Clause Name) :=
  list.clauses.filter (·.identifier = identifier)

/-- A list with its names and body replaced. -/
def map {First Second : Type} (change : First → Second) (list : CaptureList First) :
    CaptureList Second :=
  ⟨list.clauses.map (·.map change), change list.body, list.bodyOffset⟩

/-- A list without the places of its parts: what is compared when lists are compared. -/
def unplaced {Name : Type} (list : CaptureList Name) : CaptureList Name :=
  ⟨list.clauses.map (·.unplaced), list.body, none⟩

end CaptureList

end ClosureCapture
