import ClosureCapture.Yaml.Character

/-!
# Places in a document

A place is the text that is still to be read, with the column of its first character. Blocks of
a document are told apart by their columns.
-/

namespace ClosureCapture.Yaml

/-- A place in a document. -/
structure Cursor where
  rest : List Char
  column : Nat
  deriving DecidableEq, Repr

namespace Cursor

/-- The column after a character. A byte order mark takes no room. -/
def columnAfter (column : Nat) (character : Char) : Nat :=
  if isBreak character then 0
  else if character = '\ufeff' then column
  else column + 1

/-- The place of a later part of the same text. -/
def advance (cursor : Cursor) (rest : List Char) : Cursor where
  rest := rest
  column := (cursor.rest.take (cursor.rest.length - rest.length)).foldl columnAfter cursor.column

/-- The text between two places. -/
def textTo (start finish : Cursor) : List Char :=
  start.rest.take (start.rest.length - finish.rest.length)

/-- The place after the spaces at the start. -/
def skipSpaces (cursor : Cursor) : Cursor :=
  cursor.advance (cursor.rest.dropWhile (· == ' '))

/-- Whether nothing but a comment is left of the line. -/
def endsLine (cursor : Cursor) : Bool :=
  cursor.rest.head?.all fun next => isBreak next || next == '#'

/-- Skip spaces, comments and line breaks. The flag says whether the place reached is the first
on its line; `inComment` and `fresh` tell where the text given starts. -/
def skipFrom (inComment fresh : Bool) (column : Nat) : List Char → Bool × Cursor
  | [] => (fresh, ⟨[], column⟩)
  | first :: rest =>
      if isBreak first then skipFrom false true 0 rest
      else if inComment || first == '#' then skipFrom true fresh (column + 1) rest
      else if first = ' ' then skipFrom false fresh (column + 1) rest
      else (fresh, ⟨first :: rest, column⟩)

/-- Skip what stands before the next content, and say whether that is the first on its line. -/
def skip (cursor : Cursor) : Bool × Cursor :=
  skipFrom false (cursor.column == 0) cursor.column cursor.rest

/-- The place of the next content. -/
def next (cursor : Cursor) : Cursor :=
  cursor.skip.2

end Cursor

end ClosureCapture.Yaml
