import ClosureCapture.Command.Request
import ClosureCapture.Report
import ClosureCapture.Settings.Loading
import ClosureCapture.SourceFile
import ClosureCapture.Storage

/-!
# Carrying out requests

A run loads the settings and carries out one action in a folder. It ends with an exit status: zero
when all went well, one when the input is malformed, two when the request or the settings cannot
be used. Events are shown before the messages they led to, warnings always and the others on
demand. Faults that a run does not answer for break it off.
-/

namespace ClosureCapture.Command

/-- A fault that breaks a run off. -/
inductive Breakdown where
  | settings (fault : LoadFault)
  | source (fault : SourceFileFault)
  | expansion (error : ExpansionError)
  | output (fault : PathFault)

/-- What a run that is carried out to its end leaves behind. -/
structure Finish where
  status : Nat
  output : String
  errors : String
  folder : Folder

/-- How a command line ends. -/
inductive Ending where
  | usage (stop : UsageStop)
  | finished (finish : Finish)
  | broken (breakdown : Breakdown)

/-- The status of a run on malformed input. -/
def malformedStatus : Nat := 1

/-- The status of a run that cannot be carried out. -/
def usageStatus : Nat := 2

/-- The lines of the events that are shown. -/
def eventLines (verbose : Bool) (events : List Event) : String :=
  String.join ((events.filter fun event => verbose || event.level == .warning).map Event.line)

/-- A message about what went wrong. -/
def errorLine (message : String) : String :=
  "error: " ++ message ++ "\n"

/-- A text with blanks up to a width. -/
def padded (width : Nat) (text : String) : String :=
  text ++ String.ofList (List.replicate (width - text.length) ' ')

/-- A titled line of a report, left out when there is nothing to list. -/
def titledNames (title : String) (names : List String) : List String :=
  if names.isEmpty then [] else [title ++ ", ".intercalate names]

/-- Warnings with their numbers. -/
def numberedWarnings (number : Nat) : List String → List String
  | [] => []
  | warning :: rest =>
      ("  " ++ toString number ++ ". " ++ warning) :: numberedWarnings (number + 1) rest

/-- The lines of a report. -/
def reportLines (report : Report) : List String :=
  ["Clauses:      " ++ toString report.totalClauses] ++
    (report.modeCounts.toList.map fun (mode, count) =>
      "  " ++ padded 10 mode ++ " " ++ toString count) ++
    ["Identifiers:  " ++
      (if report.identifiers.isEmpty then "(none)" else ", ".intercalate report.identifiers)] ++
    titledNames "Methods:      " report.methods ++
    titledNames "Shadowed:     " report.shadowed ++
    (if report.warnings.isEmpty then [] else "Warnings:" :: numberedWarnings 1 report.warnings)

/-- Lines as a text. -/
def joinLines (lines : List String) : String :=
  String.join (lines.map (· ++ "\n"))

/-- The end of a run that changes no file. -/
def Finish.unchanged (folder : Folder) (status : Nat) (output errors : String) : Ending :=
  .finished ⟨status, output, errors, folder⟩

/-- Expand a capture list. -/
def runExpand (folder : Folder) (settings : Settings) (log : List Event → String)
    (text : String) : Ending :=
  let expansion := CaptureList.expandText text.toList settings.target settings
  match expansion.outcome with
  | .ok result => Finish.unchanged folder 0 (result ++ "\n") (log expansion.events)
  | .error error =>
      match error.diagnostic? with
      | some diagnostic =>
          Finish.unchanged folder malformedStatus ""
            (log expansion.events ++ errorLine diagnostic.text)
      | none => .broken (.expansion error)

/-- The lines about the reports on a file. -/
def siteLines (file : String) (reports : List SiteReport) : String :=
  joinLines (reports.map fun report =>
    file ++ ":" ++ toString report.line ++ ": " ++ report.message)

/-- Hand over the expansion of a file: into another one, or as output. -/
def deliver (folder : Folder) (output : Option String) (errors : String)
    (expansion : SourceExpansion) : Ending :=
  let status := if expansion.ok then 0 else malformedStatus
  let path := output.getD ""
  if path.isEmpty then Finish.unchanged folder status (String.ofList expansion.text) errors
  else
    match folder.writeText path expansion.text with
    | .ok changed => .finished ⟨status, "", errors, changed⟩
    | .error .missing =>
        Finish.unchanged folder usageStatus ""
          (errors ++ errorLine ("[Errno 2] No such file or directory: " ++ Text.quoted path))
    | .error fault => .broken (.output fault)

/-- Expand the sites of a file. -/
def runExpandFile (folder : Folder) (settings : Settings) (log : List Event → String)
    (file : String) (output : Option String) : Ending :=
  match settings.expandFile folder file with
  | .ok expansion =>
      deliver folder output (log expansion.events ++ siteLines file expansion.reports) expansion
  | .error (.read (.path .missing)) =>
      Finish.unchanged folder usageStatus "" (log [] ++ errorLine (sourceNotFound file))
  | .error (.read (.encoding fault)) =>
      Finish.unchanged folder usageStatus ""
        (log [] ++ errorLine (file ++ " is not UTF-8 text: " ++ fault.message))
  | .error fault => .broken (.source fault)

/-- Show what is made of a capture list. -/
def runShow (folder : Folder) (log : List Event → String) (text : String)
    (render : CaptureList String → String) : Ending :=
  let reading := CaptureList.read text.toList
  match reading.list with
  | .ok list => Finish.unchanged folder 0 (render list) (log reading.events)
  | .error error =>
      Finish.unchanged folder malformedStatus ""
        (log reading.events ++ errorLine error.diagnostic.text)

/-- Carry out an action. -/
def Action.run (folder : Folder) (settings : Settings) (log : List Event → String) :
    Action → Ending
  | .expand text _ _ => runExpand folder settings log text
  | .expandFile file output _ _ _ => runExpandFile folder settings log file output
  | .parse text .json => runShow folder log text (·.toJson ++ "\n")
  | .parse text .yaml => runShow folder log text (·.toYaml)
  | .report text => runShow folder log text fun list => joinLines (reportLines list.report)
  | .config => Finish.unchanged folder 0 (Yaml.text settings.toValue) (log [])

/-- Carry out a request in a folder and an environment. -/
def Request.runOn (platform : Platform) (request : Request) (folder : Folder)
    (environment : Environment) : Ending :=
  let loading := Settings.loadEvents folder request.configPath
  let log (events : List Event) : String := eventLines request.verbose (loading ++ events)
  match Settings.loadOn platform folder request.configPath environment
      request.overrides.asGiven with
  | .ok settings => request.action.run folder settings log
  | .error (.refused error) =>
      Finish.unchanged folder usageStatus "" (log [] ++ errorLine error.message)
  | .error fault => .broken (.settings fault)

/-- Carry out a command line in a folder and an environment. -/
def runOn (platform : Platform) (arguments : List String) (folder : Folder)
    (environment : Environment) : Ending :=
  match Request.ofArguments arguments with
  | .ok request => request.runOn platform folder environment
  | .error stop => .usage stop

/-- Carry out a command line on the standard platform. -/
def run (arguments : List String) (folder : Folder) (environment : Environment) : Ending :=
  runOn .standard arguments folder environment

end ClosureCapture.Command
