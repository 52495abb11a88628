import ClosureCapture.Text.Hexadecimal
import ClosureCapture.Text.Printable

/-!
# Quoted texts

Messages show a text between single quotes, or between double quotes when it holds single
quotes only. Backslashes, the closing quote and the common line controls are written with a
backslash; every other character that is not printable is written by its code.
-/

namespace ClosureCapture.Text

/-- A code point after a backslash: two, four or eight hexadecimal digits. -/
def codeEscape (code : Nat) : List Char :=
  if code ≤ 0xFF then '\\' :: 'x' :: hexDigits 2 code
  else if code ≤ 0xFFFF then '\\' :: 'u' :: hexDigits 4 code
  else '\\' :: 'U' :: hexDigits 8 code

/-- One character inside the given quotes. -/
def quotedCharacter (quote character : Char) : List Char :=
  if character == quote || character == '\\' then ['\\', character]
  else if character == '\n' then ['\\', 'n']
  else if character == '\r' then ['\\', 'r']
  else if character == '\t' then ['\\', 't']
  else if isPrintable character then [character]
  else codeEscape character.toNat

/-- The quote used around a text. -/
def quoteFor (text : List Char) : Char :=
  if text.contains '\'' && !text.contains '"' then '"' else '\''

/-- A text between quotes. -/
def quoted (text : String) : String :=
  let quote := quoteFor text.toList
  String.ofList ([quote] ++ text.toList.flatMap (quotedCharacter quote) ++ [quote])

end ClosureCapture.Text
