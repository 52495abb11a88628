/-!
# Events

Each step of the tool leaves events behind, which a command shows according to their level. An
event knows what happened; its level, its topic and its wording are functions of it.
-/

namespace ClosureCapture

/-- The weight of an event. -/
inductive Level where
  | debug
  | info
  | warning
  deriving DecidableEq, Repr

/-- The word for a level. -/
def Level.label : Level → String
  | .debug => "DEBUG"
  | .info => "INFO"
  | .warning => "WARNING"

/-- Something that happened while the tool worked. -/
inductive Event where
  | clauseMatched (mode identifier : String)
  | listParsed (clauses : Nat)
  | aliasShadowed (description : String)
  | listExpanding (clauses : Nat) (target : String)
  | siteFailed (line : Nat) (message : String)
  | sitesExpanded (expanded sites : Nat) (macroName : String)
  | settingsLoading (path : String)
  deriving DecidableEq, Repr

namespace Event

/-- The level of an event. -/
def level : Event → Level
  | .aliasShadowed _ => .warning
  | .sitesExpanded .. => .info
  | _ => .debug

/-- The part of the tool that an event belongs to. -/
def topic : Event → String
  | .clauseMatched .. => "capture.parser"
  | .listParsed _ => "capture.parser"
  | .aliasShadowed _ => "capture.analyzer"
  | .listExpanding .. => "capture.expander"
  | .siteFailed .. => "capture.sites"
  | .sitesExpanded .. => "capture.sites"
  | .settingsLoading _ => "capture.config"

/-- The wording of an event. -/
def message : Event → String
  | .clauseMatched mode identifier => s!"Matched {mode} clause for '{identifier}'"
  | .listParsed clauses => s!"Parsed capture list with {clauses} clause(s)"
  | .aliasShadowed description => s!"Shadowing past a mutable alias: {description}"
  | .listExpanding clauses target => s!"Expanding {clauses} clause(s) for target {target}"
  | .siteFailed line message => s!"Site on line {line} failed: {message}"
  | .sitesExpanded expanded sites macroName =>
      s!"Expanded {expanded} of {sites} {macroName}! site(s)"
  | .settingsLoading path => s!"Loading configuration from {path}"

/-- The messages of the warnings among some events. -/
def warnings (events : List Event) : List String :=
  (events.filter (·.level == .warning)).map message

/-- An event as one line of a log. -/
def line (event : Event) : String :=
  event.level.label ++ " " ++ event.topic ++ ": " ++ event.message ++ "\n"

end Event

end ClosureCapture
