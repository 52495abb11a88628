import ClosureCapture.Clause
import ClosureCapture.Value.Text

/-!
# Records of capture lists

A capture list is stored as a map with its clauses and its body. A clause is stored as a map
with its mode, its method if it has one, and its identifier. Reading a record back checks its
shape and the modes, but takes over every name and the body as they are, whatever their value.
-/

namespace ClosureCapture

/-- Why a value is no record of a capture list. -/
inductive RecordFault where
  | notAMap (value : Value)
  | notACollection (value : Value)
  | unknownMode (mode : Value)
  | missingKey (key : String)

/-- The wording of a fault. -/
def RecordFault.message : RecordFault → String
  | .notAMap value => value.literal ++ " is not a map"
  | .notACollection value => value.literal ++ " has no items"
  | .unknownMode mode => mode.literal ++ " is not a valid CaptureMode"
  | .missingKey key => Text.quoted key

/-- The record of a clause. -/
def Clause.toValue (clause : Clause Value) : Value :=
  let method := match clause.mode.method? with
    | some name => [("method", name)]
    | none => []
  .record ([("mode", .string clause.mode.label)] ++ method ++ [("identifier", clause.identifier)])

/-- The record of a capture list. -/
def CaptureList.toValue (list : CaptureList Value) : Value :=
  .record [("clauses", .list (list.clauses.map (·.toValue))), ("body", list.body)]

/-- The record of a capture list whose names are texts. -/
def CaptureList.record (list : CaptureList String) : Value :=
  (list.map .string).toValue

namespace RecordFault

/-- The entries of a map. -/
def entriesOf : Value → Except RecordFault Entries
  | .map entries => .ok entries
  | value => .error (.notAMap value)

/-- The items met when walking a value: those of a list, the keys of a map, or the characters
of a text. -/
def itemsOf : Value → Except RecordFault (List Value)
  | .list items => .ok items
  | .map entries => .ok (entries.map fun (key, _) => .scalar key)
  | .scalar (.string text) =>
      .ok (text.toList.map fun character => .string (String.ofList [character]))
  | value => .error (.notACollection value)

/-- The value of a key that must be present. -/
def require (entries : Entries) (key : String) : Except RecordFault Value :=
  match entries.field? key with
  | some value => .ok value
  | none => .error (.missingKey key)

end RecordFault

open RecordFault

/-- The clause of a record. -/
def Clause.ofValue (value : Value) : Except RecordFault (Clause Value) := do
  let entries ← entriesOf value
  let label := (entries.field? "mode").getD .null
  match label.text? with
  | some "move" => return ⟨.move, ← require entries "identifier", none⟩
  | some "ref" => return ⟨.ref, ← require entries "identifier", none⟩
  | some "ref mut" => return ⟨.refMut, ← require entries "identifier", none⟩
  | some "method" =>
      let method ← require entries "method"
      return ⟨.method method, ← require entries "identifier", none⟩
  | _ => .error (.unknownMode label)

/-- The capture list of a record. A missing list of clauses is an empty one. -/
def CaptureList.ofValue (value : Value) : Except RecordFault (CaptureList Value) := do
  let entries ← entriesOf value
  let items ← itemsOf ((entries.field? "clauses").getD (.list []))
  let clauses ← items.mapM Clause.ofValue
  let body ← require entries "body"
  return ⟨clauses, body, none⟩

end ClosureCapture
