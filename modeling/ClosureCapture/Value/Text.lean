import ClosureCapture.Number.Shortest
import ClosureCapture.Text.Quoted
import ClosureCapture.Value.Basic

/-!
# Texts of values

Messages show a value in its literal form, in which texts are quoted and collections are
bracketed. Where a value takes the place of a text, as in generated code, it is shown in its
display form, which leaves texts bare. Whole numbers beyond a number of digits are not shown.
-/

namespace ClosureCapture

/-- Bytes between quotes, those that are no printable ASCII characters by their codes. -/
def bytesLiteral (bytes : List UInt8) : String :=
  let characters := bytes.map fun byte => Char.ofNat byte.toNat
  let quote := Text.quoteFor characters
  let shown (character : Char) : List Char :=
    if character.toNat < 0x7F then Text.quotedCharacter quote character
    else Text.codeEscape character.toNat
  String.ofList (['b', quote] ++ characters.flatMap shown ++ [quote])

/-- A scalar in literal form. -/
def Scalar.literal : Scalar → String
  | .null => "None"
  | .bool value => if value then "True" else "False"
  | .int value => toString value
  | .float value => value.text
  | .string value => Text.quoted value
  | .bytes value => bytesLiteral value
  | .date value => value.literal
  | .moment value => value.literal

/-- A scalar in display form. -/
def Scalar.display : Scalar → String
  | .string value => value
  | .date value => value.text
  | .moment value => value.text
  | scalar => scalar.literal

mutual
/-- A value in literal form. -/
def Value.literal : Value → String
  | .scalar value => value.literal
  | .list items => "[" ++ ", ".intercalate (itemLiterals items) ++ "]"
  | .map entries => "\x7b" ++ ", ".intercalate (entryLiterals entries) ++ "\x7d"
  | .other object => object.literal

/-- The literal forms of the items of a list. -/
def itemLiterals : List Value → List String
  | [] => []
  | item :: rest => item.literal :: itemLiterals rest

/-- The literal forms of the entries of a map. -/
def entryLiterals : List (Scalar × Value) → List String
  | [] => []
  | (key, value) :: rest => (key.literal ++ ": " ++ value.literal) :: entryLiterals rest
end

/-- A value in display form. -/
def Value.display : Value → String
  | .scalar value => value.display
  | .other object => object.display
  | value => value.literal

/-- The greatest number of decimal digits that a whole number is read from or shown with. -/
def digitLimit : Nat :=
  4300

/-- Whether a scalar is short enough to be shown. -/
def Scalar.isShowable : Scalar → Bool
  | .int value => value.natAbs < Nat.pow 10 digitLimit
  | _ => true

mutual
/-- Whether a value and all that it holds are short enough to be shown. -/
def Value.isShowable : Value → Bool
  | .scalar value => value.isShowable
  | .list items => areShowable items
  | .map entries => areShowableEntries entries
  | .other object => object.isShowable

/-- Whether the items of a list are short enough to be shown. -/
def areShowable : List Value → Bool
  | [] => true
  | item :: rest => item.isShowable && areShowable rest

/-- Whether the keys and values of a map are short enough to be shown. -/
def areShowableEntries : List (Scalar × Value) → Bool
  | [] => true
  | (key, value) :: rest => key.isShowable && value.isShowable && areShowableEntries rest
end

/-- Something that is shown by a text with a bracket at its start. -/
def Object.bracketed (bracket : Char) (rest : String) (isShowable : Bool)
    (noName : Text.isNameStart bracket = false) : Object where
  literal := String.ofList (bracket :: rest.toList)
  display := String.ofList (bracket :: rest.toList)
  isVoid := false
  isShowable := isShowable
  display_notName := by simp [Text.isName, noName]

/-- A set of scalars. -/
def Value.set (members : List Scalar) : Value :=
  if members.isEmpty then .other ⟨"set()", "set()", true, true, by decide +kernel⟩
  else
    .other (.bracketed '\x7b' (", ".intercalate (members.map Scalar.literal) ++ "\x7d")
      (members.all Scalar.isShowable) (by decide +kernel))

/-- A pair of values. -/
def Value.pair (first second : Value) : Value :=
  .other (.bracketed '(' (first.literal ++ ", " ++ second.literal ++ ")")
    (first.isShowable && second.isShowable) (by decide +kernel))

end ClosureCapture
