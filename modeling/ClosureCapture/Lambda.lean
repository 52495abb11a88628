import ClosureCapture.Scope
import ClosureCapture.Text.Line
import ClosureCapture.Text.Name

/-!
# Lambda layout

In a language without block expressions, a scope becomes a lambda that is called at once: its
parameter shadows the captured name, and its argument is evaluated in the enclosing scope.
References are calls of two wrapper types. Captured names and methods must be names of the
language and none of its keywords; scopes are checked from the innermost outwards. A body whose
last line holds `#` is followed by a line break.
-/

namespace ClosureCapture.Lambda

/-- The names of the wrappers for shared and mutable references. -/
structure Wrappers where
  shared : String
  mutable : String
  deriving DecidableEq, Repr

/-- The words that are no names. -/
def reservedWords : List String :=
  ["False", "None", "True", "and", "as", "assert", "async", "await", "break", "class",
    "continue", "def", "del", "elif", "else", "except", "finally", "for", "from", "global",
    "if", "import", "in", "is", "lambda", "nonlocal", "not", "or", "pass", "raise", "return",
    "try", "while", "with", "yield"]

/-- Whether a text can name a variable or a method. -/
def isUsable (name : String) : Bool :=
  Text.isName name && !reservedWords.contains name

/-- A text that cannot name a variable or a method. -/
structure NameFault where
  name : String
  deriving DecidableEq, Repr

/-- The wording of a fault. -/
def NameFault.message (fault : NameFault) : String :=
  s!"'{fault.name}' is not a valid Python identifier"

/-- Accept a usable name. -/
def checkName (name : String) : Except NameFault Unit :=
  if isUsable name then .ok () else .error ⟨name⟩

/-- Whether the last line of a text may end in a comment. -/
def endsInComment (text : String) : Bool :=
  (Text.lastLine text.toList).contains '#'

/-- A body that nothing can be commented out behind. -/
def closeBody (text : String) : String :=
  if endsInComment text then text ++ "\n" else text

/-- The expression that a name is rebound to; the name is checked before the method. -/
def value (wrappers : Wrappers) (binding : Binding) : Except NameFault String := do
  let name := binding.name
  checkName name
  match binding.mode with
  | .move => return name
  | .ref => return wrappers.shared ++ "(" ++ name ++ ")"
  | .refMut => return wrappers.mutable ++ "(" ++ name ++ ")"
  | .method method =>
      checkName method
      return name ++ "." ++ method ++ "()"

/-- Scopes as nested calls around the body in parentheses. -/
def nested (wrappers : Wrappers) : Scope → Except NameFault String
  | .body text => .ok ("(" ++ closeBody text ++ ")")
  | .bind binding inner => do
      let inside ← nested wrappers inner
      let argument ← value wrappers binding
      return "(lambda " ++ binding.name ++ ": " ++ inside ++ ")(" ++ argument ++ ")"

/-- Scopes as an expression; a body without scopes is only closed. -/
def render (wrappers : Wrappers) (scope : Scope) : Except NameFault String :=
  match scope with
  | .body text => .ok (closeBody text)
  | scope => nested wrappers scope

end ClosureCapture.Lambda
