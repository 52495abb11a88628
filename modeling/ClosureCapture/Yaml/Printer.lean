import ClosureCapture.Value.Text
import ClosureCapture.Yaml.Style

/-!
# Writing YAML

Maps and lists are written by indentation, the items of a list in the column of the key they
belong to. Empty collections are written in brackets. The keys are names, written as they are.
-/

namespace ClosureCapture.Yaml

/-- A floating point number, which is read as one only with a point in it. -/
def floatText : Binary64 → String
  | .nan => ".nan"
  | .infinity negative => if negative then "-.inf" else ".inf"
  | number =>
      let digits := number.text.toList
      if digits.contains '.' then number.text
      else
        String.ofList (digits.takeWhile (· != 'e')) ++ ".0" ++
          String.ofList (digits.dropWhile (· != 'e'))

/-- A scalar that starts in a column and goes on with an indentation. -/
def scalarText (indent column : Nat) : Scalar → List Char
  | .null => "null".toList
  | .bool value => (if value then "true" else "false").toList
  | .int value => (toString value).toList
  | .float value => (floatText value).toList
  | .string text => textScalar indent column text.toList
  | .bytes bytes => (bytesLiteral bytes).toList
  | .date date => date.text.toList
  | .moment moment => moment.text.toList

mutual
/-- The entries of a map whose keys start in a column; the first is already there. -/
def entriesText (column : Nat) : List (Scalar × Value) → List Char
  | [] => []
  | (key, value) :: entries =>
      let name := key.display.toList
      let entry := name ++ ':' :: entryText column (column + name.length + 1) value
      if entries.isEmpty then entry else entry ++ spaces column ++ entriesText column entries

/-- The value of a key, up to the end of its last line; `indent` is the column of the keys and
`column` the one after the colon. -/
def entryText (indent column : Nat) : Value → List Char
  | .scalar value => ' ' :: scalarText (indent + 2) (column + 1) value ++ ['\n']
  | .list [] => " []\n".toList
  | .list items => '\n' :: spaces indent ++ itemsText indent items
  | .map [] => " \x7b\x7d\n".toList
  | .map entries => '\n' :: spaces (indent + 2) ++ entriesText (indent + 2) entries
  | .other object => ' ' :: object.display.toList ++ ['\n']

/-- The items of a list whose hyphens stand in a column; the first is already there. -/
def itemsText (column : Nat) : List Value → List Char
  | [] => []
  | item :: items =>
      let line := '-' :: ' ' :: itemText (column + 2) item
      if items.isEmpty then line else line ++ spaces column ++ itemsText column items

/-- An item of a list that starts in a column. -/
def itemText (column : Nat) : Value → List Char
  | .scalar value => scalarText column column value ++ ['\n']
  | .list [] => "[]\n".toList
  | .list items => itemsText column items
  | .map [] => "\x7b\x7d\n".toList
  | .map entries => entriesText column entries
  | .other object => object.display.toList ++ ['\n']
end

/-- The document of a value. -/
def text (value : Value) : String :=
  String.ofList (itemText 0 value)

end ClosureCapture.Yaml
