import ClosureCapture.Value.Basic

/-!
# Order of scalars

Texts and bytes are ordered by their codes, numbers by size and dates by time. Scalars of
different sorts have no order, nor do moments of which only one is placed in universal time, so
a list of scalars can be sorted only when every two of them have one. What is not a number has an
order with the numbers, but comes neither before nor after them: where it stays depends on where
it stood.
-/

namespace ClosureCapture

namespace Scalar

/-- Whether the first of two scalars comes before the second, when they have an order. -/
def less? (first second : Scalar) : Option Bool :=
  match first, second with
  | .string first, .string second => some (first < second)
  | .bytes first, .bytes second =>
      some ((first.map UInt8.toNat).lex (second.map UInt8.toNat) Nat.blt)
  | .date first, .date second => some (first.parts.lex second.parts Nat.blt)
  | .moment first, .moment second =>
      match first.instant?, second.instant? with
      | some first, some second => some (first < second)
      | none, none => some (first.parts.lex second.parts Nat.blt)
      | _, _ => none
  | _, _ =>
      match first.quantity?, second.quantity? with
      | some first, some second => some (first.less second)
      | _, _ => none

/-- Whether the first of two scalars comes before the second. -/
def isLess (first second : Scalar) : Bool :=
  (less? first second).getD false

/-- Whether every two scalars of a list have an order. -/
def comparable : List Scalar → Bool
  | [] => true
  | first :: rest => rest.all (fun other => (less? first other).isSome) && comparable rest

/-- Put a scalar into a list, in front of the first one that does not come before it. -/
def insert (scalar : Scalar) : List Scalar → List Scalar
  | [] => [scalar]
  | first :: rest =>
      if isLess first scalar then first :: insert scalar rest else scalar :: first :: rest

/-- The scalars put in one after the other, from the last to the first. -/
def sort (scalars : List Scalar) : List Scalar :=
  scalars.foldr insert []

end Scalar

end ClosureCapture
