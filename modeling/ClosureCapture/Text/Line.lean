/-!
# Lines

Lines are counted by line feeds alone. Files may end their lines with a carriage return, with
or without a line feed after it, and are read with all line ends turned into line feeds.
-/

namespace ClosureCapture.Text

/-- The number of line feeds in a text. -/
def newlines (text : List Char) : Nat :=
  text.count '\n'

/-- The part of a text after its last line feed. -/
def lastLine (text : List Char) : List Char :=
  (text.reverse.takeWhile (· != '\n')).reverse

/-- A text with every line end turned into a line feed. -/
def unifyLineEnds : List Char → List Char
  | [] => []
  | '\r' :: '\n' :: rest => '\n' :: unifyLineEnds rest
  | '\r' :: rest => '\n' :: unifyLineEnds rest
  | character :: rest => character :: unifyLineEnds rest

end ClosureCapture.Text
