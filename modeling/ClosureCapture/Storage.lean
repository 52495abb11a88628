import ClosureCapture.Json.Printer
import ClosureCapture.Json.Reader
import ClosureCapture.Record
import ClosureCapture.Yaml.Printer
import ClosureCapture.Yaml.Reader

/-!
# Stored capture lists

A capture list is stored as the JSON or YAML text of its record. Reading a text back gives a list
whose names can be any values; the lists that are written hold texts.
-/

namespace ClosureCapture

/-- Why a text is no stored capture list. -/
inductive StorageFault where
  | json (fault : Json.Fault)
  | yaml (fault : Yaml.Fault)
  | record (fault : RecordFault)

/-- The name held by every place of a mode, if all are texts. -/
def Mode.texts? : Mode Value → Option (Mode String)
  | .move => some .move
  | .ref => some .ref
  | .refMut => some .refMut
  | .method name => name.text?.map .method

/-- A clause whose names are texts. -/
def Clause.texts? (clause : Clause Value) : Option (Clause String) := do
  return ⟨← clause.mode.texts?, ← clause.identifier.text?, clause.offset⟩

namespace CaptureList

/-- A list whose names and body are texts. -/
def texts? (list : CaptureList Value) : Option (CaptureList String) := do
  return ⟨← list.clauses.mapM (·.texts?), ← list.body.text?, list.bodyOffset⟩

/-- A list as a JSON text. -/
def toJson (list : CaptureList String) : String :=
  Json.text list.record

/-- A list as a YAML text. -/
def toYaml (list : CaptureList String) : String :=
  Yaml.text list.record

/-- The list of a record, as stored. -/
def ofRecord (value : Value) : Except StorageFault (CaptureList Value) :=
  (ofValue value).mapError .record

/-- The list stored in a JSON text. -/
def ofJson (text : List Char) : Except StorageFault (CaptureList Value) :=
  match Json.read text with
  | .ok value => ofRecord value
  | .error fault => .error (.json fault)

/-- The list stored in a YAML text. -/
def ofYaml (text : List Char) : Except StorageFault (CaptureList Value) :=
  match Yaml.read text with
  | .ok value => ofRecord value
  | .error fault => .error (.yaml fault)

/-- Whether reading a stored list gives a list back, the places of its parts apart. -/
def isRestored (list : CaptureList String)
    (stored : Except StorageFault (CaptureList Value)) : Bool :=
  (stored.toOption.bind texts?).any (·.unplaced = list.unplaced)

end CaptureList

end ClosureCapture
