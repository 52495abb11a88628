import ClosureCapture.Command.Switch
import ClosureCapture.Settings.Basic

/-!
# Requests

A command line asks for one of five actions: to expand a capture list, to expand the sites of a
file, to print a capture list, to report on one, or to show the settings. Options for all actions
come before the name of the action; everything after it belongs to the action.
-/

namespace ClosureCapture.Command

/-- The formats in which a capture list is printed. -/
inductive PrintFormat where
  | yaml
  | json
  deriving DecidableEq, Repr

/-- What is asked for. -/
inductive Action where
  | expand (text : String) (target : Option String) (pretty : Bool)
  | expandFile (file : String) (output target renderMode macroName : Option String)
  | parse (text : String) (format : PrintFormat)
  | report (text : String)
  | config
  deriving DecidableEq, Repr

/-- An action with the options for all actions. -/
structure Request where
  configPath : Option String
  aliasPolicy : Option String
  verbose : Bool
  action : Action
  deriving DecidableEq, Repr

/-- What has been collected from the arguments read so far. -/
structure Collected where
  /-- The options met, with their values if they take any; the last one first. -/
  settings : List (Switch × Option String)
  /-- The operands taken. -/
  operands : List String
  /-- Whether there was an argument that nothing takes. -/
  surplus : Bool

namespace Collected

/-- Nothing yet. -/
def none : Collected :=
  ⟨[], [], false⟩

/-- Add an option without a value. -/
def addFlag (collected : Collected) (switch : Switch) : Except UsageStop Collected :=
  match switch.use with
  | .help => .error .help
  | _ => .ok { collected with settings := (switch, .none) :: collected.settings }

/-- Add an option with its value. -/
def addValue (collected : Collected) (switch : Switch) (value : String) :
    Except UsageStop Collected :=
  match switch.use with
  | .value choices =>
      if choices.isEmpty || choices.contains value then
        .ok { collected with settings := (switch, some value) :: collected.settings }
      else .error .refused
  | _ => .error .refused

/-- Add several flags in order. -/
def addFlags (collected : Collected) (flags : List Switch) : Except UsageStop Collected :=
  flags.foldlM addFlag collected

/-- Whether an option was met. -/
def has (collected : Collected) (switch : Switch) : Bool :=
  collected.settings.any (·.1 = switch)

/-- The last value of an option. -/
def value? (collected : Collected) (switch : Switch) : Option String :=
  (collected.settings.lookup switch).join

end Collected

/-- What becomes of operands: an action takes up to a number of them, and the name of an action
takes all that follows. -/
inductive OperandUse where
  | upTo (count : Nat)
  | rest
  deriving DecidableEq, Repr

/-- Arguments without a separator at their start. -/
def dropSeparator : List Argument → List Argument
  | ⟨_, .separator⟩ :: rest => rest
  | arguments => arguments

theorem dropSeparator_length_le (arguments : List Argument) :
    (dropSeparator arguments).length ≤ arguments.length := by
  unfold dropSeparator
  split
  · exact Nat.le_succ _
  · exact Nat.le_refl _

/-- Collect the options and operands of some arguments. A separator beside an operand that is
taken belongs to it. -/
def collect (switches : List Switch) (use : OperandUse) (collected : Collected)
    (arguments : List Argument) : Except UsageStop Collected :=
  match arguments with
  | [] => .ok collected
  | argument :: rest =>
      match argument.kind with
      | .unknown => collect switches use { collected with surplus := true } rest
      | .operand =>
          match use with
          | .rest => .ok { collected with operands := argument.text :: rest.map (·.text) }
          | .upTo count =>
              if collected.operands.length < count then
                collect switches use
                  { collected with operands := collected.operands ++ [argument.text] }
                  (dropSeparator rest)
              else collect switches use { collected with surplus := true } rest
      | .separator =>
          match use with
          | .rest => .error .refused
          | .upTo count =>
              if collected.operands.length < count && !rest.isEmpty then
                collect switches use collected rest
              else collect switches use { collected with surplus := true } rest
      | .mention mention => do
          let demand ← mention.demand switches
          let left := { collected with surplus := collected.surplus || demand.surplus }
          match demand.last with
          | none => collect switches use (← left.addFlags demand.flags) rest
          | some (switch, some value) =>
              let flagged ← left.addFlags demand.flags
              collect switches use (← flagged.addValue switch (String.ofList value)) rest
          | some (switch, none) =>
              match rest with
              | ⟨value, .operand⟩ :: later =>
                  let flagged ← left.addFlags demand.flags
                  collect switches use (← flagged.addValue switch value) later
              | _ => .error .refused
termination_by arguments.length
decreasing_by
  · exact Nat.lt_succ_self _
  · exact Nat.lt_succ_of_le (dropSeparator_length_le rest)
  · exact Nat.lt_succ_self _
  · exact Nat.lt_succ_self _
  · exact Nat.lt_succ_self _
  · exact Nat.lt_succ_self _
  · exact Nat.lt_succ_self _
  · exact Nat.lt_succ_of_lt (Nat.lt_succ_self _)

/-- Collect the options of an action and exactly the operands it needs. -/
def collectExactly (switches : List Switch) (count : Nat) (arguments : List String) :
    Except UsageStop Collected := do
  let collected ← collect switches (.upTo count) .none (← classifyAll switches arguments)
  if collected.operands.length = count && !collected.surplus then return collected
  else .error .refused

/-- The option that asks for help. -/
def helpSwitch : Switch := ⟨["-h", "--help"], .help⟩

/-- The option for the settings file. -/
def configSwitch : Switch := ⟨["--config"], .value []⟩

/-- The option for the alias policy. -/
def policySwitch : Switch := ⟨["--alias-policy"], .value AliasPolicy.labels⟩

/-- The option that shows all events. -/
def verboseSwitch : Switch := ⟨["-v", "--verbose"], .flag⟩

/-- The option for the target. -/
def targetSwitch : Switch := ⟨["--target"], .value Target.labels⟩

/-- The option for the pretty layout. -/
def prettySwitch : Switch := ⟨["--pretty"], .flag⟩

/-- The option for the output file. -/
def outputSwitch : Switch := ⟨["-o", "--output"], .value []⟩

/-- The option for the layout. -/
def layoutSwitch : Switch := ⟨["--render-mode"], .value Block.Layout.labels⟩

/-- The option for the macro name. -/
def macroSwitch : Switch := ⟨["--macro-name"], .value []⟩

/-- The option for the print format. -/
def formatSwitch : Switch := ⟨["--format"], .value ["yaml", "json"]⟩

/-- The options for all actions. -/
def sharedSwitches : List Switch :=
  [helpSwitch, configSwitch, policySwitch, verboseSwitch]

/-- The single operand of an action. -/
def Collected.operand (collected : Collected) : String :=
  collected.operands.headD ""

/-- The action with a name and its arguments. -/
def Action.ofArguments (name : String) (arguments : List String) : Except UsageStop Action :=
  match name with
  | "expand" => do
      let found ← collectExactly [helpSwitch, targetSwitch, prettySwitch] 1 arguments
      return .expand found.operand (found.value? targetSwitch) (found.has prettySwitch)
  | "rewrite" => do
      let switches := [helpSwitch, outputSwitch, targetSwitch, layoutSwitch, macroSwitch]
      let found ← collectExactly switches 1 arguments
      return .expandFile found.operand (found.value? outputSwitch) (found.value? targetSwitch)
        (found.value? layoutSwitch) (found.value? macroSwitch)
  | "parse" => do
      let found ← collectExactly [helpSwitch, formatSwitch] 1 arguments
      return .parse found.operand
        (if found.value? formatSwitch = some "json" then .json else .yaml)
  | "report" => do
      let found ← collectExactly [helpSwitch] 1 arguments
      return .report found.operand
  | "config" => do
      let _ ← collectExactly [helpSwitch] 0 arguments
      return .config
  | _ => .error .refused

/-- The request of a command line. -/
def Request.ofArguments (arguments : List String) : Except UsageStop Request := do
  let found ← collect sharedSwitches .rest .none (← classifyAll sharedSwitches arguments)
  match found.operands with
  | [] => .error .refused
  | name :: rest =>
      let action ← Action.ofArguments name rest
      if found.surplus then .error .refused
      else
        return ⟨found.value? configSwitch, found.value? policySwitch, found.has verboseSwitch,
          action⟩

/-- The settings that a request overrides. -/
def Request.overrides (request : Request) : Entries :=
  let given (key : String) (value : Option String) : Entries :=
    (value.map fun text => (.string key, .string text)).toList
  given "alias_policy" request.aliasPolicy ++
    match request.action with
    | .expand _ target pretty =>
        given "target" target ++ given "render_mode" (if pretty then some "pretty" else none)
    | .expandFile _ _ target renderMode macroName =>
        given "target" target ++ given "render_mode" renderMode ++ given "macro_name" macroName
    | _ => []

/-- The paths that a request reads or writes, besides those of settings files found without
being named. -/
def Request.paths (request : Request) : List String :=
  request.configPath.toList ++
    match request.action with
    | .expandFile file output _ _ _ => file :: output.toList
    | _ => []

end ClosureCapture.Command
