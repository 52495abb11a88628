/-!
# Decimal digits of numbers

Reading runs of ASCII digits as natural numbers.
-/

namespace ClosureCapture.Text

/-- The value of an ASCII digit. -/
def digitValue (digit : Char) : Nat :=
  digit.toNat - 48

/-- The number written by a run of digits in a base up to ten. -/
def readDigits (base : Nat) (digits : List Char) : Nat :=
  digits.foldl (fun value digit => value * base + digitValue digit) 0

/-- The run of ASCII digits at the start of a text, and what follows it. -/
def spanDigits (text : List Char) : List Char × List Char :=
  (text.takeWhile Char.isDigit, text.dropWhile Char.isDigit)

end ClosureCapture.Text
