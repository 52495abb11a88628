import ClosureCapture.Text.Hexadecimal
import ClosureCapture.Yaml.Kind
import ClosureCapture.Yaml.Plain

/-!
# Writing scalars

A text is written without quotes if it would be read back as that text, in single quotes if it
consists of visible characters and of line breaks without spaces beside them, and otherwise in
double quotes with escapes. Lines are broken at single spaces once they are longer than the
line width; in double quotes the break itself is escaped.
-/

namespace ClosureCapture.Yaml

/-- The number of columns after which a line is broken. -/
def lineWidth : Nat :=
  80

/-- A run of spaces. -/
def spaces (width : Nat) : List Char :=
  List.replicate width ' '

/-- Whether a character can only be written by an escape: all but the visible ones and the line
feed. -/
def isSpecial (character : Char) : Bool :=
  !(character == '\n' || (' ' ≤ character && character ≤ '~'))

/-- The characters that cannot start a scalar without quotes. -/
def plainBarriers : List Char :=
  ['#', ',', '[', ']', '\x7b', '\x7d', '&', '*', '!', '|', '>', '\'', '"', '%', '@', '\x60']

/-- Whether a text cannot start a scalar without quotes. -/
def barsPlainStart : List Char → Bool
  | '-' :: '-' :: '-' :: _ => true
  | '.' :: '.' :: '.' :: _ => true
  | first :: rest =>
      plainBarriers.contains first || first == ' ' ||
        ((first == '?' || first == '-') && startsWithGap rest)
  | [] => true

/-- Whether a text holds what would end a scalar without quotes: a line break, a special
character, a colon before a gap, a space at the end, or a number sign after a space. -/
def barsPlain : List Char → Bool
  | [] => false
  | first :: rest =>
      first == '\n' || isSpecial first || (first == ':' && startsWithGap rest) ||
        (first == ' ' && (rest.isEmpty || rest.head? == some '#')) || barsPlain rest

/-- Whether a text is read back as itself when it is written without quotes. -/
def isPlainText (text : List Char) : Bool :=
  kindOf text = .string && !barsPlainStart text && !barsPlain text

/-- Whether a text cannot be written in single quotes: it holds a special character, or a space
beside a line break. -/
def barsSingle : List Char → Bool
  | [] => false
  | first :: rest =>
      isSpecial first || (first == ' ' && rest.head? == some '\n') ||
        (first == '\n' && rest.head? == some ' ') || barsSingle rest

/-- A text without quotes, broken at single spaces. `column` is where it starts, `afterSpace`
whether a space stands before it. -/
def foldPlain (indent : Nat) : (column : Nat) → (afterSpace : Bool) → List Char → List Char
  | _, _, [] => []
  | column, afterSpace, first :: rest =>
      if first = ' ' ∧ afterSpace = false ∧ rest.head? ≠ some ' ' ∧ lineWidth < column then
        '\n' :: spaces indent ++ foldPlain indent indent true rest
      else first :: foldPlain indent (column + 1) (first == ' ') rest

/-- A text between single quotes, broken at single spaces that are neither first nor last. A
quote is written twice, and a run of line breaks gets one more. -/
def foldSingle (indent : Nat) :
    (column : Nat) → (previous : Option Char) → List Char → List Char
  | _, _, [] => []
  | column, previous, first :: rest =>
      if first = '\n' then
        (if previous = some '\n' then [] else ['\n']) ++
          '\n' :: (if rest.head? = some '\n' then foldSingle indent 0 (some '\n') rest
            else spaces indent ++ foldSingle indent indent (some '\n') rest)
      else if first = ' ' ∧ previous ≠ none ∧ previous ≠ some ' ' ∧ rest ≠ [] ∧
          rest.head? ≠ some ' ' ∧ lineWidth < column then
        '\n' :: spaces indent ++ foldSingle indent indent (some ' ') rest
      else if first = '\'' then '\'' :: '\'' :: foldSingle indent (column + 2) (some first) rest
      else first :: foldSingle indent (column + 1) (some first) rest

/-- The letter of a character's short escape. -/
def escapeLetter? : Char → Option Char
  | '\x00' => some '0'
  | '\x07' => some 'a'
  | '\x08' => some 'b'
  | '\t' => some 't'
  | '\n' => some 'n'
  | '\x0b' => some 'v'
  | '\x0c' => some 'f'
  | '\r' => some 'r'
  | '\x1b' => some 'e'
  | '"' => some '"'
  | '\\' => some '\\'
  | '\u0085' => some 'N'
  | '\u00a0' => some '_'
  | '\u2028' => some 'L'
  | '\u2029' => some 'P'
  | _ => none

/-- The last digits of a code, in upper case. -/
def codeDigits (width : Nat) (character : Char) : List Char :=
  (Text.hexDigits width character.toNat).map Char.toUpper

/-- The escape of a character: a letter, or its code in two, four or eight digits. -/
def escape (character : Char) : List Char :=
  match escapeLetter? character with
  | some letter => ['\\', letter]
  | none =>
      if character.toNat ≤ 0xFF then '\\' :: 'x' :: codeDigits 2 character
      else if character.toNat ≤ 0xFFFF then '\\' :: 'u' :: codeDigits 4 character
      else '\\' :: 'U' :: codeDigits 8 character

/-- Whether a character is escaped between double quotes. -/
def isEscaped (character : Char) : Bool :=
  character == '\n' || character == '"' || character == '\\' || isSpecial character

/-- An escaped line break, and the indentation of the next line. A space that follows is
escaped, because it would be taken for indentation. -/
def escapedBreak (indent : Nat) (next : Option Char) : List Char :=
  '\\' :: '\n' :: spaces indent ++ if next = some ' ' then ['\\'] else []

/-- The column after an escaped line break. -/
def columnAfterBreak (indent : Nat) (next : Option Char) : Nat :=
  if next = some ' ' then indent + 1 else indent

/-- A text between double quotes. `pending` counts the characters since the last escape or
break: a line is broken before a space or after an escape, once it is too long. The text is not
broken at its first and last characters. -/
def foldDouble (indent : Nat) :
    (column pending : Nat) → (first : Bool) → List Char → List Char
  | _, _, _, [] => []
  | column, pending, isFirst, first :: rest =>
      let inside := !isFirst && !rest.isEmpty
      if isEscaped first then
        let written := escape first
        let reached := column + pending + written.length
        if inside && lineWidth + 1 < reached then
          written ++ escapedBreak indent rest.head? ++
            foldDouble indent (columnAfterBreak indent rest.head?) 0 false rest
        else written ++ foldDouble indent reached 0 false rest
      else if inside && (first == ' ' || pending == 0) && lineWidth < column + pending then
        escapedBreak indent (some first) ++
          first :: foldDouble indent (columnAfterBreak indent (some first)) 1 false rest
      else first :: foldDouble indent column (pending + 1) false rest

/-- A text as a scalar that starts in a column and goes on with an indentation. -/
def textScalar (indent column : Nat) (text : List Char) : List Char :=
  if isPlainText text then foldPlain indent column false text
  else if !barsSingle text then '\'' :: foldSingle indent (column + 1) none text ++ ['\'']
  else '"' :: foldDouble indent (column + 1) 0 true text ++ ['"']

end ClosureCapture.Yaml
