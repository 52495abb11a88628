/-!
# Ranges of characters

The character classes of this library that reach beyond ASCII are given by tables of closed
code point intervals.
-/

namespace ClosureCapture.Text

/-- A closed interval of code points. -/
structure Range where
  /-- The least code point of the interval. -/
  first : Nat
  /-- The greatest code point of the interval. -/
  last : Nat

/-- Whether a character lies in an interval. -/
def Range.contains (range : Range) (character : Char) : Bool :=
  range.first ≤ character.toNat && character.toNat ≤ range.last

/-- Whether a character lies in one of the intervals of a table. -/
def inRanges (table : List Range) (character : Char) : Bool :=
  table.any (·.contains character)

end ClosureCapture.Text
