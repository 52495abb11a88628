import ClosureCapture.Expansion

/-!
# Drafts of clauses and bindings

A caller can hand over clauses and bindings whose mode is only a label. A draft is accepted when
its label names a mode; otherwise the label is reported. Bindings are accepted one by one in the
order in which the layout writes them, so the fault met first is the one that the layout meets.
-/

namespace ClosureCapture

/-- A clause or binding with an unchecked mode. -/
structure Draft where
  name : String
  mode : Value
  method : Option String := none
  offset : Option Nat := none

/-- Why a draft is not accepted. -/
inductive DraftFault where
  | unsupportedMode (mode : Value)
  | missingMethod
  | expansion (error : ExpansionError)

/-- The wording for a mode that is not supported. -/
def unsupportedModeMessage (mode : Value) : String :=
  "Unsupported capture mode: " ++ mode.display

namespace Draft

/-- The mode named by the label, with the given method. -/
def modeWith (draft : Draft) (method : Except DraftFault String) :
    Except DraftFault (Mode String) :=
  match draft.mode.text? with
  | some "move" => .ok .move
  | some "ref" => .ok .ref
  | some "ref mut" => .ok .refMut
  | some "method" => method.map .method
  | _ => .error (.unsupportedMode draft.mode)

/-- The method, which must be there. -/
def requiredMethod (draft : Draft) : Except DraftFault String :=
  match draft.method with
  | some method => .ok method
  | none => .error .missingMethod

/-- The method, or the word for nothing. -/
def methodOrNone (draft : Draft) : String :=
  draft.method.getD Value.null.display

/-- The clause of a draft. -/
def clause (draft : Draft) : Except DraftFault (Clause String) := do
  let mode ← draft.modeWith (.ok draft.methodOrNone)
  return ⟨mode, draft.name, draft.offset⟩

/-- The binding of a draft in block layout, where a missing method is written as nothing. -/
def blockBinding (draft : Draft) : Except DraftFault Binding := do
  let mode ← draft.modeWith (.ok draft.methodOrNone)
  return ⟨draft.name, mode⟩

/-- Accept a name in lambda layout. -/
def checkName (name : String) : Except DraftFault Unit :=
  match Lambda.checkName name with
  | .ok () => .ok ()
  | .error fault => .error (.expansion (.name fault))

/-- The binding of a draft in lambda layout: its name is checked, then its mode, then its
method. -/
def lambdaBinding (draft : Draft) : Except DraftFault Binding := do
  checkName draft.name
  let mode ← draft.modeWith draft.requiredMethod
  match mode with
  | .method method => checkName method
  | _ => pure ()
  return ⟨draft.name, mode⟩

/-- The bindings of drafts, accepted from the innermost outwards. -/
def inwards (accept : Draft → Except DraftFault Binding) (drafts : List Draft) :
    Except DraftFault (List Binding) := do
  let bindings ← drafts.reverse.mapM accept
  return bindings.reverse

/-- The bindings of drafts, accepted in the order in which they are rendered. -/
def bindings (target : Value) (settings : Settings) (drafts : List Draft) :
    Except DraftFault (List Binding) :=
  match Target.ofValue? target with
  | some .python => inwards lambdaBinding drafts
  | some .rust =>
      match Block.Layout.ofValue? settings.renderMode with
      | some .inline => inwards blockBinding drafts
      | some .pretty => drafts.mapM blockBinding
      | none => .error (.expansion (.unknownLayout settings.renderMode))
  | none => .error (.expansion (.unknownTarget target))

/-- Render a body inside drafted bindings, the first outermost. -/
def render (drafts : List Draft) (body : String) (target : Value) (settings : Settings) :
    Except DraftFault String := do
  let accepted ← bindings target settings drafts
  match (Scope.ofBindings accepted body).render target settings with
  | .ok text => return text
  | .error error => .error (.expansion error)

end Draft

end ClosureCapture
