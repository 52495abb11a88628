import ClosureCapture.CaptureList.Parser
import ClosureCapture.Settings.Basic

/-!
# Expansion of a capture list

A capture list is read, checked for alias conflicts, folded into scopes and rendered for a
target. Malformed input is told apart from settings that cannot be used: the former is reported
about the text, the latter stops the tool.
-/

namespace ClosureCapture

/-- Why a capture list has no expansion. -/
inductive ExpansionError where
  | grammar (error : GrammarError)
  | aliasing (conflict : AliasConflict)
  | name (fault : Lambda.NameFault)
  | unknownTarget (target : Value)
  | unknownLayout (layout : Value)

namespace ExpansionError

/-- The report of an error that the text is to blame for. -/
def diagnostic? : ExpansionError → Option Diagnostic
  | .grammar error => some error.diagnostic
  | .aliasing conflict => some conflict.diagnostic
  | .name fault => some ⟨fault.message, none⟩
  | .unknownTarget _ => none
  | .unknownLayout _ => none

/-- The wording of an error. -/
def message : ExpansionError → String
  | .grammar error => error.diagnostic.text
  | .aliasing conflict => conflict.diagnostic.text
  | .name fault => fault.message
  | .unknownTarget target =>
      "Unknown target: " ++ target.literal ++ " (expected one of " ++
        labelList Target.labels ++ ")"
  | .unknownLayout layout => layout.literal ++ " is not a valid RenderMode"

end ExpansionError

/-- Scopes as an expression of the target language. -/
def Scope.render (scope : Scope) (target : Value) (settings : Settings) :
    Except ExpansionError String :=
  match Target.ofValue? target with
  | some .rust =>
      match Block.Layout.ofValue? settings.renderMode with
      | some layout => .ok (Block.render layout scope)
      | none => .error (.unknownLayout settings.renderMode)
  | some .python =>
      match Lambda.render settings.wrappers scope with
      | .ok text => .ok text
      | .error fault => .error (.name fault)
  | none => .error (.unknownTarget target)

/-- The outcome of an expansion with the events on the way to it. -/
structure Expansion where
  outcome : Except ExpansionError String
  events : List Event

namespace CaptureList

/-- Check a list that has been read, and render it. -/
def expand (list : CaptureList String) (target : Value) (settings : Settings) : Expansion :=
  match list.checkAliasing settings.aliasPolicy with
  | .error conflict => ⟨.error (.aliasing conflict), []⟩
  | .ok warnings =>
      ⟨list.scope.render target settings,
        warnings ++ [.listExpanding list.clauses.length target.display]⟩

/-- Expand the capture list written by a text. -/
def expandText (text : List Char) (target : Value) (settings : Settings) : Expansion :=
  let reading := read text
  match reading.list with
  | .error error => ⟨.error (.grammar error), reading.events⟩
  | .ok list =>
      let expansion := list.expand target settings
      { expansion with events := reading.events ++ expansion.events }

end CaptureList

/-- The target asked for, or the one of the settings when none is. -/
def Settings.targetOr (settings : Settings) (asked : Value) : Value :=
  if asked.isVoid then settings.target else asked

end ClosureCapture
