import ClosureCapture.Number.Binary64
import ClosureCapture.Text.Name
import ClosureCapture.Value.Moment

/-!
# Values of documents

The documents read and written by this library hold scalars, lists and maps, and now and then
something else, such as a set. A map keeps its entries in the order in which their keys first
appeared, and its keys are scalars. Two keys are the same when they are equal as values, so the
number one, its floating point form and the truth value name the same entry.
-/

namespace ClosureCapture

/-- A value without parts. -/
inductive Scalar where
  | null
  | bool (value : Bool)
  | int (value : Int)
  | float (value : Binary64)
  | string (value : String)
  | bytes (value : List UInt8)
  | date (value : Date)
  | moment (value : Moment)
  deriving DecidableEq, Repr

/-- Something that is no scalar, list or map, such as a set: it is known by its texts, by whether
it counts as nothing and by whether it is short enough to be shown. No such thing is shown as a
name. -/
structure Object where
  literal : String
  display : String
  isVoid : Bool
  isShowable : Bool
  display_notName : Text.isName display = false
  deriving DecidableEq

/-- A value of a document. -/
inductive Value where
  | scalar (value : Scalar)
  | list (items : List Value)
  | map (entries : List (Scalar × Value))
  | other (object : Object)
  deriving BEq

/-- A number, as far as equality and order of scalars are concerned. -/
inductive Quantity where
  | finite (value : Rat)
  | infinite (negative : Bool)
  | undefined

/-- The number that a scalar stands for, if it does. -/
def Scalar.quantity? : Scalar → Option Quantity
  | .bool value => some (.finite (if value then 1 else 0))
  | .int value => some (.finite value)
  | .float .nan => some .undefined
  | .float (.infinity negative) => some (.infinite negative)
  | .float number => number.toRat?.map .finite
  | _ => none

/-- Whether two quantities are equal. There is only one that is not a number. -/
def Quantity.same : Quantity → Quantity → Bool
  | .finite first, .finite second => first == second
  | .infinite first, .infinite second => first == second
  | .undefined, .undefined => true
  | _, _ => false

/-- Whether the first of two quantities comes before the second. What is not a number comes
before nothing and after nothing. -/
def Quantity.less : Quantity → Quantity → Bool
  | .finite first, .finite second => first < second
  | .finite _, .infinite negative => !negative
  | .infinite negative, .finite _ => negative
  | .infinite first, .infinite second => first && !second
  | .undefined, _ => false
  | _, .undefined => false

/-- Whether two scalars are equal as values. -/
def Scalar.same (first second : Scalar) : Bool :=
  match first.quantity?, second.quantity? with
  | some first, some second => first.same second
  | none, none =>
      match first, second with
      | .moment first, .moment second => first.same second
      | _, _ => first == second
  | _, _ => false

namespace Value

/-- The null value. -/
abbrev null : Value := .scalar .null

/-- A text as a value. -/
abbrev string (text : String) : Value := .scalar (.string text)

/-- A truth value as a value. -/
abbrev bool (value : Bool) : Value := .scalar (.bool value)

/-- A whole number as a value. -/
abbrev int (value : Int) : Value := .scalar (.int value)

instance : Inhabited Value := ⟨null⟩

/-- A map whose keys are texts. -/
def record (fields : List (String × Value)) : Value :=
  .map (fields.map fun (name, value) => (.string name, value))

/-- Whether a value counts as nothing: null, false, zero, or an empty text or collection. -/
def isVoid : Value → Bool
  | .scalar .null => true
  | .scalar (.bool value) => !value
  | .scalar (.int value) => value == 0
  | .scalar (.float value) => value.isZero
  | .scalar (.string value) => value.isEmpty
  | .scalar (.bytes value) => value.isEmpty
  | .scalar (.date _) => false
  | .scalar (.moment _) => false
  | .list items => items.isEmpty
  | .map entries => entries.isEmpty
  | .other object => object.isVoid

/-- The text held by a value, if it is one. -/
def text? : Value → Option String
  | .scalar (.string text) => some text
  | _ => none

end Value

/-- The entries of a map in order of their first appearance. -/
abbrev Entries (Item : Type := Value) := List (Scalar × Item)

namespace Entries

variable {Item : Type}

/-- The value of a key. -/
def get? (entries : Entries Item) (key : Scalar) : Option Item :=
  (entries.find? (·.1.same key)).map (·.2)

/-- The value of a text key. -/
def field? (entries : Entries Item) (name : String) : Option Item :=
  entries.get? (.string name)

/-- Give a key a value: in its place when the key is present, otherwise at the end. -/
def insert : Entries Item → Scalar → Item → Entries Item
  | [], key, value => [(key, value)]
  | (present, old) :: rest, key, value =>
      if present.same key then (present, value) :: rest
      else (present, old) :: insert rest key value

/-- Entries with repeated keys merged, the last value of a key winning. -/
def ofPairs (pairs : List (Scalar × Item)) : Entries Item :=
  pairs.foldl (fun entries (key, value) => entries.insert key value) []

/-- The first entries with the second ones written over them. -/
def overlay (lower upper : Entries Item) : Entries Item :=
  upper.foldl (fun entries (key, value) => entries.insert key value) lower

end Entries

mutual
/-- Whether two values are equal: scalars as values, lists item by item, maps entry by entry
whatever their order, and other things by their texts. -/
def Value.same : Value → Value → Bool
  | .scalar first, .scalar second => first.same second
  | .list first, .list second => sameItems first second
  | .map first, .map second => first.length == second.length && sameEntries first second
  | .other first, .other second => first.literal == second.literal
  | _, _ => false

/-- Whether two lists have equal items in the same order. -/
def sameItems : List Value → List Value → Bool
  | [], [] => true
  | first :: firsts, second :: seconds => first.same second && sameItems firsts seconds
  | _, _ => false

/-- Whether every entry of the first list has an equal one in the second. -/
def sameEntries : List (Scalar × Value) → List (Scalar × Value) → Bool
  | [], _ => true
  | (key, value) :: rest, second =>
      (match Entries.get? second key with
        | some other => value.same other
        | none => false) && sameEntries rest second
end

end ClosureCapture
