import ClosureCapture.Alias
import ClosureCapture.Block
import ClosureCapture.Lambda
import ClosureCapture.Value.Text

/-!
# Settings

Settings hold document values, because they are taken over from documents. A target or a layout
is recognised when it is used; a name setting is used by its display form, and the macro name
must be a text.
-/

namespace ClosureCapture

/-- The languages that scopes can be rendered in. -/
inductive Target where
  | rust
  | python
  deriving DecidableEq, Repr

/-- The word for a target. -/
def Target.label : Target → String
  | .rust => "rust"
  | .python => "python"

/-- The words for all targets. -/
def Target.labels : List String :=
  [Target.rust, .python].map (·.label)

/-- The target named by a value. -/
def Target.ofValue? (value : Value) : Option Target :=
  value.text?.bind fun label => [Target.rust, .python].find? (·.label == label)

/-- The words for all layouts. -/
def Block.Layout.labels : List String :=
  [Block.Layout.inline, .pretty].map (·.label)

/-- The layout named by a value. -/
def Block.Layout.ofValue? (value : Value) : Option Block.Layout :=
  value.text?.bind Block.Layout.ofLabel?

/-- The words for all policies. -/
def AliasPolicy.labels : List String :=
  [AliasPolicy.strict, .shadow].map (·.label)

/-- What the tool can be told. -/
structure Settings where
  aliasPolicy : AliasPolicy := .strict
  target : Value := .string "rust"
  renderMode : Value := .string "inline"
  macroName : Value := .string "capture"
  refType : Value := .string "SharedRef"
  refMutType : Value := .string "MutRef"

namespace Settings

/-- The wrappers for references in lambda layout. -/
def wrappers (settings : Settings) : Lambda.Wrappers :=
  ⟨settings.refType.display, settings.refMutType.display⟩

/-- The settings as a record, in their fixed order. -/
def toValue (settings : Settings) : Value :=
  .record
    [("alias_policy", .string settings.aliasPolicy.label), ("target", settings.target),
      ("render_mode", settings.renderMode), ("macro_name", settings.macroName),
      ("ref_type", settings.refType), ("ref_mut_type", settings.refMutType)]

end Settings

/-- Some words as a bracketed list of quoted texts. -/
def labelList (labels : List String) : String :=
  (Value.list (labels.map .string)).literal

end ClosureCapture
