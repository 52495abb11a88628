import ClosureCapture.Text.Line
import ClosureCapture.Text.Utf8
import ClosureCapture.Value.Order
import ClosureCapture.Yaml.Reader

/-!
# Platforms

Two things about settings are left to the platform: which value the bytes of a YAML document have,
and in which order scalars are listed where their own order leaves it open. The standard platform
reads a document as a text and keeps to the order in which the scalars come.
-/

namespace ClosureCapture

/-- Why bytes have no value as a YAML document. -/
inductive Yaml.StreamFault where
  | encoding (fault : Text.Utf8Fault)
  | document (fault : Fault)

/-- The value of the bytes of a YAML document, all of which are decoded first. -/
def Yaml.readBytes (content : List UInt8) : Except StreamFault Value := do
  let text ← (Text.decodeUtf8 content).mapError .encoding
  (Yaml.read (Text.unifyLineEnds text)).mapError .document

/-- What is decided outside of the tool. -/
structure Platform where
  /-- The value of the bytes of a YAML document. -/
  readYaml : List UInt8 → Except Yaml.StreamFault Value
  /-- The members of a set of scalars, sorted. -/
  listing : List Scalar → List Scalar

namespace Platform

/-- The platform that the tool comes with. -/
def standard : Platform :=
  ⟨Yaml.readBytes, Scalar.sort⟩

/-- The members of a set of scalars, sorted, if every two of them have an order. -/
def listing? (platform : Platform) (members : List Scalar) : Option (List Scalar) :=
  if Scalar.comparable members then some (platform.listing members) else none

end Platform

end ClosureCapture
