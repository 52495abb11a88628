import ClosureCapture.Text.Decimal
import ClosureCapture.Yaml.Quoted

/-!
# Block scalars

A block scalar is the lines below its header that are indented alike. The literal style keeps
its line breaks; the folded style turns the break between two lines that start with other
characters than white space into a space. The header can fix the indentation and say what
becomes of the line breaks at the end: all but the first are dropped, unless it keeps or strips
them all.
-/

namespace ClosureCapture.Yaml

/-- What becomes of the line breaks at the end. -/
inductive Chomping where
  | strip
  | clip
  | keep
  deriving DecidableEq, Repr

/-- The header of a block scalar. -/
structure BlockHeader where
  chomping : Chomping
  /-- The indentation below the surrounding node, when the header gives it. -/
  indentation : Option Nat

/-- The chomping of a header character. -/
def chomping? : Char → Option Chomping
  | '+' => some .keep
  | '-' => some .strip
  | _ => none

/-- The chomping at the start of a text, if there is one. -/
def takeChomping : List Char → Option Chomping × List Char
  | [] => (none, [])
  | first :: rest =>
      match chomping? first with
      | some chomping => (some chomping, rest)
      | none => (none, first :: rest)

/-- The indentation digit at the start of a text, if there is one; it must not be zero. -/
def takeIndentation : List Char → Except Fault (Option Nat × List Char)
  | [] => .ok (none, [])
  | first :: rest =>
      if first = '0' then .error .malformed
      else if first.isDigit then .ok (some (Text.digitValue first), rest)
      else .ok (none, first :: rest)

/-- The header after its indicator, and the text below its line. Its two parts come in either
order; a comment may end the line. -/
def readBlockHeader (text : List Char) : Except Fault (BlockHeader × List Char) := do
  let (early, afterEarly) := takeChomping text
  let (indentation, afterDigit) ← takeIndentation afterEarly
  let (chomping, afterMarks) :=
    if early.isSome then (early, afterDigit) else takeChomping afterDigit
  if afterMarks.head?.any fun next => next != ' ' && !isBreak next then .error .malformed
  else
    let content := afterMarks.dropWhile (· == ' ')
    let line := if content.head? = some '#' then content.dropWhile (!isBreak ·) else content
    match line with
    | [] => return (⟨chomping.getD .clip, indentation⟩, [])
    | first :: below =>
        if isBreak first then return (⟨chomping.getD .clip, indentation⟩, below)
        else .error .malformed

/-- A text without at most `limit` leading spaces, and the number of spaces dropped. -/
def dropSpaces : (limit : Nat) → List Char → Nat × List Char
  | limit + 1, ' ' :: rest =>
      let (dropped, after) := dropSpaces limit rest
      (dropped + 1, after)
  | _, text => (0, text)

theorem dropSpaces_length_le (limit : Nat) (text : List Char) :
    (dropSpaces limit text).2.length ≤ text.length := by
  fun_induction dropSpaces limit text with
  | case1 limit rest _ _ _ ih => simp_all only [List.length_cons]; omega
  | case2 => simp

/-- The greatest indentation of the empty lines at the start of a text and of the line after
them, when `column` spaces have been met on the first. -/
def leadingIndentation (column : Nat) : List Char → Nat
  | [] => column
  | first :: rest =>
      if first = ' ' then leadingIndentation (column + 1) rest
      else if isBreak first then max column (leadingIndentation 0 rest)
      else column

/-- The breaks of the empty lines at the start of a text, then the number of spaces dropped from
the next line, which is at most the indentation, and that line on. -/
def takeBlockBreaks (indentation : Nat) (text : List Char) : List Char × Nat × List Char :=
  match _dropped : dropSpaces indentation text with
  | (column, []) => ([], column, [])
  | (column, first :: rest) =>
      if isBreak first then
        let (breaks, last, after) := takeBlockBreaks indentation rest
        (first :: breaks, last, after)
      else ([], column, first :: rest)
termination_by text.length
decreasing_by
  have := dropSpaces_length_le indentation text
  simp only [_dropped, List.length_cons] at this
  omega

theorem takeBlockBreaks_length_le (indentation : Nat) (text : List Char) :
    (takeBlockBreaks indentation text).2.2.length ≤ text.length := by
  fun_induction takeBlockBreaks indentation text with
  | case1 => simp
  | case2 text column first rest dropped _ breaks last after _ ih =>
      have := dropSpaces_length_le indentation text
      simp_all only [List.length_cons]
      omega
  | case3 text column first rest dropped _ =>
      have := dropSpaces_length_le indentation text
      simp_all only [List.length_cons]

/-- The line breaks kept at the end of a block scalar. -/
def Chomping.ending : Chomping → (lineBreak breaks : List Char) → List Char
  | .strip, _, _ => []
  | .clip, lineBreak, _ => lineBreak
  | .keep, lineBreak, breaks => lineBreak ++ breaks

/-- What stands for the break between two lines: a space or nothing when it is folded. -/
def blockJoint (folded : Bool) (line : List Char) (lineBreak : Char) (breaks : List Char)
    (next : List Char) : List Char :=
  let startsText (text : List Char) : Bool := !text.head?.any isWhite
  if folded && lineBreak == '\n' && startsText line && startsText next then
    (if breaks.isEmpty then [' '] else [])
  else [lineBreak]

/-- The lines of a block scalar from the first one on, its indentation dropped, and the text
below the last one. `breaks` are the breaks of the empty lines before it. -/
def readBlockLines (folded : Bool) (chomping : Chomping) (indentation : Nat)
    (breaks text : List Char) : List Char × List Char :=
  let line := text.takeWhile (!isBreak ·)
  match _line : text.dropWhile (!isBreak ·) with
  | [] => (breaks ++ line ++ chomping.ending [] [], [])
  | lineBreak :: below =>
      match _breaks : takeBlockBreaks indentation below with
      | (later, column, next) =>
          if column = indentation ∧ next ≠ [] then
            let (content, after) := readBlockLines folded chomping indentation later next
            (breaks ++ line ++ blockJoint folded line lineBreak later next ++ content, after)
          else (breaks ++ line ++ chomping.ending [lineBreak] later, below)
termination_by text.length
decreasing_by
  have outer := (List.dropWhile_suffix (l := text) (!isBreak ·)).length_le
  have inner := takeBlockBreaks_length_le indentation below
  simp only [_line, _breaks, List.length_cons] at outer inner
  omega

/-- The content of a block scalar after its indicator, and the text below it. Without a number
in the header the indentation is that of the first line, but at least that of the floor. -/
def readBlockScalar (folded : Bool) (floor : Nat) (text : List Char) :
    Except Fault (List Char × List Char) := do
  let (header, below) ← readBlockHeader text
  let least := max 1 floor
  let indentation := match header.indentation with
    | some number => least + number - 1
    | none => max least (leadingIndentation 0 below)
  match takeBlockBreaks indentation below with
  | (breaks, column, start) =>
      if column = indentation ∧ start ≠ [] then
        return readBlockLines folded header.chomping indentation breaks start
      else return (header.chomping.ending [] breaks, below)

end ClosureCapture.Yaml
