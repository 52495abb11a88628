import ClosureCapture.Clause

/-!
# An example

A closure that captures three numbers in three ways: one by moving it, one by a shared reference
and one by a clone. Called without arguments it returns their sum.
-/

namespace ClosureCapture.Example

/-- The example with a body of the first target. -/
def closureText : String :=
  "move x, ref y, clone z in move || x + *y + z"

/-- The example with a body of the second target. -/
def lambdaText : String :=
  "move x, ref y, clone z in lambda: x + y.value + z"

/-- The body of the example. -/
def closureBody : String :=
  "move || x + *y + z"

/-- The example with the given body. -/
def closure (body : String) : CaptureList String :=
  ⟨[⟨.move, "x", none⟩, ⟨.ref, "y", none⟩, ⟨.method "clone", "z", none⟩], body, none⟩

/-- A number that can be cloned. -/
structure Cloneable where
  value : Int
  deriving DecidableEq, Repr

/-- A new number of the same value. -/
def Cloneable.clone (number : Cloneable) : Cloneable :=
  ⟨number.value⟩

end ClosureCapture.Example
