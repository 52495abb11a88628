import ClosureCapture.Diagnostic
import ClosureCapture.Literal

/-!
# Delimiters

The three pairs of delimiters nest. To find the delimiter that closes an open one, the text
after it is walked with a stack of the closing delimiters still expected; comments and literals
are passed over. The walk ends at the delimiter that empties the stack, at a closing delimiter
of the wrong kind, or at the end of the text.
-/

namespace ClosureCapture

/-- A pair of delimiters. -/
inductive Bracket where
  | round
  | square
  | curly
  deriving DecidableEq, Repr

namespace Bracket

/-- The opening delimiter. -/
def opening : Bracket → Char
  | .round => '('
  | .square => '['
  | .curly => '\x7b'

/-- The closing delimiter. -/
def closing : Bracket → Char
  | .round => ')'
  | .square => ']'
  | .curly => '\x7d'

/-- The pair that a character opens. -/
def ofOpening? (character : Char) : Option Bracket :=
  [Bracket.round, .square, .curly].find? (·.opening == character)

/-- The pair that a character closes. -/
def ofClosing? (character : Char) : Option Bracket :=
  [Bracket.round, .square, .curly].find? (·.closing == character)

end Bracket

/-- Why a site has no end: at a delimiter of the wrong kind, or for its opening delimiter. -/
inductive SiteFault where
  | mismatch (expected found : Char) (offset : Nat)
  | unclosed (line offset : Nat)
  deriving DecidableEq, Repr

namespace SiteFault

/-- The place of a fault. -/
def offset : SiteFault → Nat
  | .mismatch _ _ offset => offset
  | .unclosed _ offset => offset

/-- The wording of a fault. -/
def message : SiteFault → String
  | .mismatch expected found _ =>
      s!"Mismatched delimiter: expected '{expected}', got '{found}'"
  | .unclosed line _ => s!"Invocation opened on line {line} is never closed"

/-- The report of a fault. -/
def diagnostic (fault : SiteFault) : Diagnostic :=
  ⟨fault.message, some fault.offset⟩

end SiteFault

namespace Delimiter

/-- The character that stands right before a suffix of a text. -/
def lastBefore (text rest : List Char) : Option Char :=
  (text.take (text.length - rest.length)).getLast?

/-- Why an open delimiter has no closing one. -/
inductive Fault where
  /-- Another delimiter was expected where the remaining text starts. -/
  | mismatch (expected found : Char) (remaining : List Char)
  | unclosed
  deriving DecidableEq, Repr

/-- The text from the closing delimiter on, given the innermost pair still open, the pairs
around it, and the character before the text. -/
def close (inner : Bracket) (outer : List Bracket) (previous : Option Char)
    (text : List Char) : Except Fault (List Char) :=
  match text with
  | [] => .error .unclosed
  | first :: rest =>
      match _skipped : Literal.after? previous (first :: rest) with
      | some after => close inner outer (lastBefore (first :: rest) after) after
      | none =>
          match Bracket.ofOpening? first with
          | some bracket => close bracket (inner :: outer) (some first) rest
          | none =>
              if (Bracket.ofClosing? first).isNone then close inner outer (some first) rest
              else if first ≠ inner.closing then
                .error (.mismatch inner.closing first (first :: rest))
              else
                match outer with
                | [] => .ok (first :: rest)
                | next :: others => close next others (some first) rest
termination_by text.length
decreasing_by
  · exact Literal.after?_length_lt _skipped
  all_goals simp

/-- The offset of the delimiter that closes a pair, given the offset and the line of its opening
delimiter and the text behind that one. -/
def closeAt (bracket : Bracket) (start line : Nat) (inside : List Char) : Except SiteFault Nat :=
  match close bracket [] (some bracket.opening) inside with
  | .ok rest => .ok (start + 1 + (inside.length - rest.length))
  | .error (.mismatch expected found rest) =>
      .error (.mismatch expected found (start + 1 + (inside.length - rest.length)))
  | .error .unclosed => .error (.unclosed line start)

end Delimiter

end ClosureCapture
