import ClosureCapture.Text.Numeral

/-!
# Options of a command line

An option has names with one or two hyphens, and takes a value or none. It can be written in
full, by a beginning that no other option shares if it has two hyphens, with its value after an
equals sign, or, with one hyphen, with its value or further options right after its letter. What
starts with a hyphen is an option, unless it is a lone hyphen, a negative number or holds a space
without naming an option. After a double hyphen there are only operands.
-/

namespace ClosureCapture.Command

/-- Why a command line is not carried out. -/
inductive UsageStop where
  | help
  | refused
  deriving DecidableEq, Repr

/-- What an option does. -/
inductive SwitchUse where
  | help
  | flag
  /-- Take a value, one of the given choices if there are any. -/
  | value (choices : List String)
  deriving DecidableEq, Repr

/-- An option of a command. -/
structure Switch where
  names : List String
  use : SwitchUse
  deriving DecidableEq, Repr

/-- A text joined to an option, after an equals sign or right after its letter. -/
structure Joined where
  byEquals : Bool
  text : List Char
  deriving DecidableEq, Repr

/-- An option as it is met: by one of its names, and perhaps with a text joined to it. -/
structure Mention where
  switch : Switch
  name : String
  joined : Option Joined
  deriving DecidableEq, Repr

/-- The kinds of arguments. -/
inductive ArgumentKind where
  | operand
  | separator
  | mention (mention : Mention)
  | unknown
  deriving DecidableEq, Repr

/-- An argument with its kind. -/
structure Argument where
  text : String
  kind : ArgumentKind
  deriving DecidableEq, Repr

/-- The option with a name. -/
def named? (switches : List Switch) (name : String) : Option Switch :=
  switches.find? (·.names.contains name)

/-- The text before the first equals sign and the one after it, if there is one. -/
def splitEquals (text : List Char) : List Char × Option Joined :=
  match text.dropWhile (· != '=') with
  | [] => (text, none)
  | _ :: value => (text.takeWhile (· != '='), some ⟨true, value⟩)

/-- How a name can be meant by a text that is no name itself. -/
def mentionOf? (switch : Switch) (name : String) (text : List Char) : Option Mention :=
  match text with
  | '-' :: '-' :: _ =>
      let (beginning, joined) := splitEquals text
      if beginning.isPrefixOf name.toList then some ⟨switch, name, joined⟩ else none
  | _ =>
      if name.toList = text.take 2 then some ⟨switch, name, some ⟨false, text.drop 2⟩⟩
      else if text.isPrefixOf name.toList then some ⟨switch, name, none⟩
      else none

/-- All options that can be meant by a text that is no name itself. -/
def mentions (switches : List Switch) (text : List Char) : List Mention :=
  switches.flatMap fun switch => switch.names.filterMap fun name => mentionOf? switch name text

/-- Whether a text is a negative number. -/
def isNegativeNumber : List Char → Bool
  | '-' :: digits =>
      let fraction := digits.dropWhile Text.isDigit
      if fraction.isEmpty then !digits.isEmpty
      else
        fraction.head? = some '.' && !fraction.tail.isEmpty && fraction.tail.all Text.isDigit
  | _ => false

/-- The kind of an argument before the first separator. Two options must not be meant at
once. -/
def classify (switches : List Switch) (text : String) : Except UsageStop ArgumentKind :=
  let characters := text.toList
  if characters.head? ≠ some '-' then .ok .operand
  else
    match named? switches text with
    | some switch => .ok (.mention ⟨switch, text, none⟩)
    | none =>
        if characters.length = 1 then .ok .operand
        else
          let (start, joined) := splitEquals characters
          match joined, named? switches (String.ofList start) with
          | some value, some switch =>
              .ok (.mention ⟨switch, String.ofList start, some value⟩)
          | _, _ =>
              match mentions switches characters with
              | [mention] => .ok (.mention mention)
              | _ :: _ :: _ => .error .refused
              | [] =>
                  if isNegativeNumber characters || characters.contains ' ' then .ok .operand
                  else .ok .unknown

/-- The kinds of all arguments. -/
def classifyAll (switches : List Switch) : List String → Except UsageStop (List Argument)
  | [] => .ok []
  | text :: rest =>
      if text = "--" then
        .ok (⟨text, .separator⟩ :: rest.map fun later => ⟨later, .operand⟩)
      else do
        let kind ← classify switches text
        return ⟨text, kind⟩ :: (← classifyAll switches rest)

/-- What a mention asks for: flags, and an option whose value is joined or still to come. A
letter that is no option is left over. -/
structure Demand where
  flags : List Switch
  last : Option (Switch × Option (List Char))
  surplus : Bool

/-- What an option asks for when nothing is joined to it. -/
def Switch.demand (switch : Switch) : Demand :=
  match switch.use with
  | .value _ => ⟨[], some (switch, none), false⟩
  | _ => ⟨[switch], none, false⟩

/-- What an option with one hyphen and a joined text asks for. A flag passes the text on as
further options, unless it stands after an equals sign or starts with a hyphen. -/
def demandLetters (switches : List Switch) (switch : Switch) (byEquals : Bool)
    (text : List Char) : Except UsageStop Demand :=
  match switch.use, byEquals, text with
  | .value _, _, _ => .ok ⟨[], some (switch, some text), false⟩
  | _, true, _ => .error .refused
  | _, false, [] => .error .refused
  | _, false, '-' :: _ => .error .refused
  | _, false, letter :: rest =>
      match named? switches (String.ofList ['-', letter]) with
      | none => .ok ⟨[switch], none, true⟩
      | some next =>
          let later : Except UsageStop Demand := match rest with
            | [] => .ok next.demand
            | '=' :: value => demandLetters switches next true value
            | further => demandLetters switches next false further
          later.map fun demand => { demand with flags := switch :: demand.flags }
termination_by text.length
decreasing_by
  · exact Nat.lt_succ_of_lt (Nat.lt_succ_self _)
  · exact Nat.lt_succ_self _

/-- What a mention asks for. A flag with two hyphens refuses a joined text. -/
def Mention.demand (switches : List Switch) (mention : Mention) : Except UsageStop Demand :=
  match mention.joined with
  | none => .ok mention.switch.demand
  | some ⟨byEquals, text⟩ =>
      demandLetters switches mention.switch
        (byEquals || "--".toList.isPrefixOf mention.name.toList) text

end ClosureCapture.Command
