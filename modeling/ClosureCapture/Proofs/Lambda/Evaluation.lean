import ClosureCapture.Proofs.Lambda.Delimiting
import Mathlib.Data.List.DropRight
import Mathlib.Logic.Function.Basic

/-!
# Evaluation of rendered scopes

Rendered scopes are run by a host language.  This file describes the part of that language that
rendering uses, by a reader of texts and an evaluator: names, calls of a name with a name, method
calls without arguments, groups in parentheses, and lambdas that are called at once.  The argument
of such a lambda is evaluated where it stands, and then its body where its parameter is bound.
All other expressions keep a meaning that is left open, and so do values, calls and methods.  A
name is looked up by its canonical spelling, and one name can be read but never bound.

Evaluation happens in an arbitrary monad, so that calls and methods can fail and have effects.
-/

namespace ClosureCapture.Lambda

universe u

/-- What reading a name does, for each canonical spelling: it gives a value, or fails. -/
abbrev Surroundings (m : Type u → Type u) (Meaning : Type u) := String → m Meaning

/-- The host language, as far as rendering leaves it open. -/
structure Host (m : Type u → Type u) (Meaning : Type u) where
  /-- The spelling by which a name is looked up and bound. -/
  canonical : String → String
  /-- Calling a value with another one. -/
  call : Meaning → Meaning → m Meaning
  /-- Calling a method of a value by its name. -/
  method : String → Meaning → m Meaning
  /-- Evaluating an expression of any other form. -/
  other : List Char → Surroundings m Meaning → m Meaning

/-- The name that cannot be bound. -/
def unbindable : String := "__debug__"

/-! ### Reading expressions -/

/-- An expression that a name is rebound to. -/
inductive Argument where
  | name (name : String)
  | call (function argument : String)
  | method (object method : String)
  deriving DecidableEq, Repr

/-- The name at the start of a text, and the text behind it. -/
def takeName (text : List Char) : String × List Char :=
  (String.ofList (text.takeWhile Text.isNamePart), text.dropWhile Text.isNamePart)

/-- The argument that makes up a text. -/
def readArgument (text : List Char) : Option Argument :=
  let (name, behind) := takeName text
  if isUsable name then
    match behind with
    | [] => some (.name name)
    | '(' :: rest =>
        let (argument, last) := takeName rest
        if isUsable argument ∧ last = [')'] then some (.call name argument) else none
    | '.' :: rest =>
        let (method, last) := takeName rest
        if isUsable method ∧ last = ['(', ')'] then some (.method name method) else none
    | _ => none
  else none

/-- Whether a text is a group, or a group that is called. -/
def isPrimary (text : List Char) : Bool :=
  match takeGroup text with
  | none => false
  | some (_, []) => true
  | some (_, behind) => (takeGroup behind).any (·.2.isEmpty)

/-- The parameter of a lambda and the text of its body, which must be in parentheses. -/
def readLambda : List Char → Option (String × List Char)
  | 'l' :: 'a' :: 'm' :: 'b' :: 'd' :: 'a' :: ' ' :: text =>
      match takeName text with
      | (parameter, ':' :: ' ' :: inner) =>
          if isUsable parameter ∧ isPrimary inner then some (parameter, inner) else none
      | _ => none
  | _ => none

/-- The form of an expression. -/
inductive Form where
  | argument (argument : Argument)
  | group (inside : List Char)
  | invocation (parameter : String) (inner : List Char) (argument : Argument)
  | other
  deriving DecidableEq, Repr

/-- A lambda and the argument it is called with. -/
def readInvocation (function behind : List Char) : Form :=
  match readLambda function, takeGroup behind with
  | some (parameter, inner), some (text, []) =>
      match readArgument text with
      | some argument => .invocation parameter inner argument
      | none => .other
  | _, _ => .other

/-- The form of the expression that makes up a text. -/
def readForm (text : List Char) : Form :=
  match readArgument text, takeGroup text with
  | some argument, _ => .argument argument
  | none, some (inside, []) => .group inside
  | none, some (function, behind) => readInvocation function behind
  | none, none => .other

/-- Whether a character is white space inside parentheses. -/
def isSpace (character : Char) : Bool :=
  [' ', '\t', '\n', '\r', '\x0c'].contains character

/-- A text without the white space around it. -/
def strip (text : List Char) : List Char :=
  (text.rdropWhile isSpace).dropWhile isSpace

theorem strip_length_le (text : List Char) : (strip text).length ≤ text.length :=
  Nat.le_trans (List.dropWhile_suffix isSpace).length_le
    (List.rdropWhile_prefix isSpace text).length_le

theorem takeName_length_le (text : List Char) : (takeName text).2.length ≤ text.length :=
  (List.dropWhile_suffix Text.isNamePart).length_le

theorem readLambda_length_lt {text inner : List Char} {parameter : String}
    (read : readLambda text = some (parameter, inner)) : inner.length < text.length := by
  unfold readLambda at read
  split at read
  · next rest =>
      split at read
      · next name later taken =>
          split at read
          · have shorter := takeName_length_le rest
            rw [taken] at shorter
            simp only [Option.some.injEq, Prod.mk.injEq] at read
            obtain ⟨-, rfl⟩ := read
            simp only [List.length_cons] at shorter ⊢
            omega
          · simp at read
      · simp at read
  · simp at read

theorem readForm_group_length_lt {text inside : List Char}
    (read : readForm text = .group inside) : inside.length < text.length := by
  unfold readForm at read
  split at read
  · simp at read
  · next taken =>
      have shorter := takeGroup_length taken
      obtain rfl := Form.group.inj read
      omega
  · unfold readInvocation at read
    repeat' split at read
    all_goals simp at read
  · simp at read

theorem readForm_invocation_length_lt {text inner : List Char} {parameter : String}
    {argument : Argument} (read : readForm text = .invocation parameter inner argument) :
    inner.length < text.length := by
  unfold readForm at read
  split at read
  · simp at read
  · simp at read
  · next function behind taken =>
      have shorter := takeGroup_length taken
      unfold readInvocation at read
      split at read
      · next function' inner' text' isLambda grouped =>
          split at read
          · obtain ⟨rfl, rfl, rfl⟩ := Form.invocation.inj read
            have := readLambda_length_lt isLambda
            omega
          · simp at read
      · simp at read
  · simp at read

/-! ### Evaluating expressions -/

namespace Host

variable {m : Type u → Type u} {Meaning : Type u} [Monad m] (host : Host m Meaning)

/-- Reading a name. -/
def read (surroundings : Surroundings m Meaning) (name : String) : m Meaning :=
  surroundings (host.canonical name)

/-- The surroundings in which a name is bound to a value. -/
def bind (surroundings : Surroundings m Meaning) (name : String) (value : Meaning) :
    Surroundings m Meaning :=
  Function.update surroundings (host.canonical name) (pure value)

/-- Evaluating an argument.  The function of a call is read before its argument. -/
def argument (surroundings : Surroundings m Meaning) : Argument → m Meaning
  | .name name => host.read surroundings name
  | .call function argument => do
      let callee ← host.read surroundings function
      let value ← host.read surroundings argument
      host.call callee value
  | .method object method => do
      let value ← host.read surroundings object
      host.method method value

/-- Evaluating the expression that makes up a text. -/
def evaluate (text : List Char) (surroundings : Surroundings m Meaning) : m Meaning :=
  match _form : readForm (strip text) with
  | .argument argument => host.argument surroundings argument
  | .group inside => evaluate inside surroundings
  | .invocation parameter inner argument =>
      if host.canonical parameter = unbindable then host.other (strip text) surroundings
      else do
        let value ← host.argument surroundings argument
        evaluate inner (host.bind surroundings parameter value)
  | .other => host.other (strip text) surroundings
termination_by text.length
decreasing_by
  · exact Nat.lt_of_lt_of_le (readForm_group_length_lt _form) (strip_length_le text)
  · exact Nat.lt_of_lt_of_le (readForm_invocation_length_lt _form) (strip_length_le text)

theorem evaluate_of_other {text : List Char} (form : readForm (strip text) = .other)
    (surroundings : Surroundings m Meaning) :
    host.evaluate text surroundings = host.other (strip text) surroundings := by
  rw [evaluate]
  split <;> simp_all

theorem evaluate_of_group {text inside : List Char}
    (form : readForm (strip text) = .group inside) (surroundings : Surroundings m Meaning) :
    host.evaluate text surroundings = host.evaluate inside surroundings := by
  rw [evaluate]
  split <;> simp_all

theorem evaluate_of_invocation {text inner : List Char} {parameter : String}
    {argument : Argument} (form : readForm (strip text) = .invocation parameter inner argument)
    (bindable : host.canonical parameter ≠ unbindable) (surroundings : Surroundings m Meaning) :
    host.evaluate text surroundings =
      host.argument surroundings argument >>= fun value =>
        host.evaluate inner (host.bind surroundings parameter value) := by
  rw [evaluate]
  split <;> simp_all

/-- White space at the end of an expression makes no difference. -/
theorem evaluate_of_strip_eq {first second : List Char} (same : strip first = strip second)
    (surroundings : Surroundings m Meaning) :
    host.evaluate first surroundings = host.evaluate second surroundings := by
  rw [evaluate, evaluate, same]

end Host

end ClosureCapture.Lambda
