/-!
# Diagnostics

Every kind of malformed input is reported by a message and, when one is known, the offset of
the character it is about.
-/

namespace ClosureCapture

/-- A report of malformed input. -/
structure Diagnostic where
  /-- What is wrong. -/
  message : String
  /-- Where it is wrong. -/
  offset : Option Nat
  deriving DecidableEq, Repr

/-- The message with its offset. -/
def Diagnostic.text (diagnostic : Diagnostic) : String :=
  match diagnostic.offset with
  | none => diagnostic.message
  | some offset => s!"{diagnostic.message} (at offset {offset})"

end ClosureCapture
