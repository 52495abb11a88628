import ClosureCapture.Text.Base64
import ClosureCapture.Yaml.Number
import ClosureCapture.Yaml.Timestamp

/-!
# What scalars stand for

A scalar without quotes and without a tag stands for a number, a date, a truth value or nothing
if it is spelled like one, and otherwise for its own text. Two spellings are keys with a role of
their own in mappings.
-/

namespace ClosureCapture.Yaml

/-- What a scalar stands for. -/
inductive Kind where
  | null
  | bool
  | int
  | float
  | moment
  | string
  | binary
  /-- The key under which the entries of other mappings are taken over. -/
  | mergeKey
  /-- The key of a default value. -/
  | defaultKey
  deriving DecidableEq, Repr

/-- The spellings of the null value. -/
def nullWords : List (List Char) :=
  [[], "~".toList, "null".toList, "Null".toList, "NULL".toList]

/-- The truth values by their words in lower case. -/
def truthWords : List (String × Bool) :=
  [("yes", true), ("no", false), ("true", true), ("false", false), ("on", true), ("off", false)]

/-- The truth value of a word in any case. -/
def truth? (text : List Char) : Option Bool :=
  truthWords.lookup (String.ofList (text.map Char.toLower))

/-- Whether a text is the word of a truth value in lower case, in upper case or with only its
first letter in upper case. -/
def isTruthWord (text : List Char) : Bool :=
  (truth? text).isSome &&
    (text.all Char.isLower || text.all Char.isUpper ||
      (text.head?.any Char.isUpper && text.tail.all Char.isLower))

/-- What a scalar without quotes and without a tag stands for. -/
def kindOf (text : List Char) : Kind :=
  if nullWords.contains text then .null
  else if isTruthWord text then .bool
  else if isFloat text then .float
  else if isInteger text then .int
  else if text = ['<', '<'] then .mergeKey
  else if isTimestamp text then .moment
  else if text = ['='] then .defaultKey
  else .string

/-- The kind of scalars with a tag's name. -/
def Kind.ofTag? : String → Option Kind
  | "tag:yaml.org,2002:null" => some .null
  | "tag:yaml.org,2002:bool" => some .bool
  | "tag:yaml.org,2002:int" => some .int
  | "tag:yaml.org,2002:float" => some .float
  | "tag:yaml.org,2002:timestamp" => some .moment
  | "tag:yaml.org,2002:str" => some .string
  | "tag:yaml.org,2002:binary" => some .binary
  | "tag:yaml.org,2002:merge" => some .mergeKey
  | "tag:yaml.org,2002:value" => some .defaultKey
  | _ => none

/-- The scalar of a kind written by a text. The keys with a role are no values. -/
def Kind.read (kind : Kind) (text : List Char) : Except Fault Scalar :=
  match kind with
  | .null => .ok .null
  | .bool =>
      match truth? text with
      | some value => .ok (.bool value)
      | none => .error (.notTruth (String.ofList (text.map Char.toLower)))
  | .int => (readInteger text).map .int
  | .float => (readFloat text).map .float
  | .moment => readTimestamp text
  | .string => .ok (.string (String.ofList text))
  | .binary =>
      match Text.readBase64? text with
      | some bytes => if text.all (·.toNat < 0x80) then .ok (.bytes bytes) else .error .malformed
      | none => .error .malformed
  | .mergeKey => .error .malformed
  | .defaultKey => .error .malformed

end ClosureCapture.Yaml
