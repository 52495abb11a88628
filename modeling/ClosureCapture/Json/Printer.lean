import ClosureCapture.Text.Hexadecimal
import ClosureCapture.Value.Text

/-!
# Writing JSON

Values are written on one line, with a space after each comma and colon and the members of a
map in the order of their names. Only printable ASCII characters stand for themselves; all
others are escaped, characters of the upper planes as surrogate pairs.
-/

namespace ClosureCapture.Json

/-- A sixteen-bit unit as an escape. -/
def unitEscape (unit : Nat) : List Char :=
  '\\' :: 'u' :: Text.hexDigits 4 unit

/-- One character inside a string. -/
def escaped (character : Char) : List Char :=
  if character == '"' then ['\\', '"']
  else if character == '\\' then ['\\', '\\']
  else if character == '\n' then ['\\', 'n']
  else if character == '\r' then ['\\', 'r']
  else if character == '\t' then ['\\', 't']
  else if character == '\x0c' then ['\\', 'f']
  else if character == '\x08' then ['\\', 'b']
  else
    let code := character.toNat
    if 32 ≤ code && code < 127 then [character]
    else if code < 0x10000 then unitEscape code
    else
      let rest := code - 0x10000
      unitEscape (0xD800 + rest / 0x400) ++ unitEscape (0xDC00 + rest % 0x400)

/-- A text as a string. -/
def stringText (text : String) : List Char :=
  '"' :: text.toList.flatMap escaped ++ ['"']

/-- A number that is not finite by its name, any other by its shortest text. -/
def numberText : Binary64 → String
  | .nan => "NaN"
  | .infinity negative => if negative then "-Infinity" else "Infinity"
  | number => number.text

/-- A scalar. -/
def scalarText : Scalar → List Char
  | .null => "null".toList
  | .bool value => (if value then "true" else "false").toList
  | .int value => (toString value).toList
  | .float value => (numberText value).toList
  | .string value => stringText value
  | moment => stringText moment.display

/-- The name of a member. -/
def memberName : Scalar → List Char
  | .string value => stringText value
  | .null => stringText "null"
  | .bool value => stringText (if value then "true" else "false")
  | .float value => stringText (numberText value)
  | key => stringText key.display

/-- Texts joined by a comma and a space. -/
def commaJoined : List (List Char) → List Char
  | [] => []
  | [text] => text
  | text :: rest => text ++ [',', ' '] ++ commaJoined rest

mutual
/-- A value on one line. -/
def valueText : Value → List Char
  | .scalar value => scalarText value
  | .list items => '[' :: commaJoined (itemTexts items) ++ [']']
  | .map entries =>
      let members := (entryTexts entries).mergeSort fun first second => first.1 ≤ second.1
      '\x7b' :: commaJoined (members.map (·.2)) ++ ['\x7d']
  | .other object => stringText object.display

/-- The texts of the items of a list. -/
def itemTexts : List Value → List (List Char)
  | [] => []
  | item :: rest => valueText item :: itemTexts rest

/-- The texts of the members of a map, each with its name. -/
def entryTexts : List (Scalar × Value) → List (String × List Char)
  | [] => []
  | (key, value) :: rest =>
      (key.display, memberName key ++ [':', ' '] ++ valueText value) :: entryTexts rest
end

/-- A value as a JSON document. -/
def text (value : Value) : String :=
  String.ofList (valueText value)

end ClosureCapture.Json
