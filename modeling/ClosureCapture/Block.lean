import ClosureCapture.Scope
import ClosureCapture.Text.Line

/-!
# Block layout

Scopes become nested block expressions with one `let` each. The inline layout stays on one
line; the pretty layout gives every brace and every `let` a line of its own, four spaces deeper
for each scope, and leaves all lines of the body but the first as they are. A body whose last
line holds `//` is followed by a line break, so that nothing after it becomes part of a comment.
-/

namespace ClosureCapture.Block

/-- How the blocks are laid out. -/
inductive Layout where
  | inline
  | pretty
  deriving DecidableEq, Repr

/-- The word for a layout. -/
def Layout.label : Layout → String
  | .inline => "inline"
  | .pretty => "pretty"

/-- The layout named by a word. -/
def Layout.ofLabel? (label : String) : Option Layout :=
  [Layout.inline, .pretty].find? (·.label == label)

/-- The expression that a name is rebound to. -/
def value (binding : Binding) : String :=
  let name := binding.name
  match binding.mode with
  | .move => name
  | .ref => "&" ++ name
  | .refMut => "&mut " ++ name
  | .method method => name ++ "." ++ method ++ "()"

/-- The statement that rebinds a name. -/
def statement (binding : Binding) : String :=
  "let " ++ binding.name ++ " = " ++ value binding ++ ";"

/-- Whether a text holds two slashes in a row. -/
def hasSlashes : List Char → Bool
  | '/' :: '/' :: _ => true
  | _ :: rest => hasSlashes rest
  | [] => false

/-- Whether the last line of a text may end in a line comment. -/
def endsInComment (text : String) : Bool :=
  hasSlashes (Text.lastLine text.toList)

/-- A body that nothing can be commented out behind. -/
def closeBody (text : String) : String :=
  if endsInComment text then text ++ "\n" else text

/-- Scopes on one line. -/
def inlineText : Scope → String
  | .body text => text
  | .bind binding inner =>
      let inside := inlineText inner
      let gap := if endsInComment inside then "\n" else " "
      "\x7b " ++ statement binding ++ " " ++ inside ++ gap ++ "\x7d"

/-- The indentation of a level. -/
def indentation (level : Nat) : String :=
  String.ofList (List.replicate (4 * level) ' ')

/-- The lines of scopes at a level. -/
def prettyLines (level : Nat) : Scope → List String
  | .body text => [indentation level ++ text]
  | .bind binding inner =>
      [indentation level ++ "\x7b", indentation (level + 1) ++ statement binding] ++
        prettyLines (level + 1) inner ++ [indentation level ++ "\x7d"]

/-- Scopes as a block expression; a body without scopes is only closed. -/
def render (layout : Layout) (scope : Scope) : String :=
  match scope, layout with
  | .body text, _ => closeBody text
  | scope, .inline => inlineText scope
  | scope, .pretty => "\n".intercalate (prettyLines 0 scope)

end ClosureCapture.Block
