/-!
# Faults of YAML documents

A document is malformed when it breaks the rules of the format. A well-formed one can still name
a thing that does not exist, such as the thirtieth of February or a character beyond the last
one, or be tagged as what it is not.
-/

namespace ClosureCapture.Yaml

/-- Why a text has no value as a document. -/
inductive Fault where
  | malformed
  /-- A number, a date or a character that does not exist. -/
  | outOfRange
  /-- A scalar tagged as a truth value that is none, in lower case. -/
  | notTruth (text : String)
  /-- A scalar tagged as a date that is none. -/
  | notMoment
  /-- A scalar tagged as a number that ends before its first digit. -/
  | noDigits
  /-- A mapping tagged as a date. -/
  | notScalar
  deriving DecidableEq, Repr

end ClosureCapture.Yaml
