import ClosureCapture.Command.Run

/-!
# The command line

The files that a request can reach are gathered into a folder, the request is carried out in it,
and what it leaves behind is handed over: the output, the messages, the output file and the exit
status.
-/

namespace ClosureCapture.Command

/-- What a path leads to on disk. -/
def probe (path : String) : IO (Option FolderItem) := do
  try
    if ← (← IO.FS.realPath path).isDir then return some .folder
    else return some (.file (← IO.FS.readBinFile path).toList)
  catch _ => return none

/-- A path and all paths that it passes through. -/
def passedPaths (path : String) : List String :=
  let names := path.splitOn "/"
  (List.range names.length).map fun count => "/".intercalate (names.take (count + 1))

/-- The files and folders that a request can reach. -/
def gather (request : Request) : IO Folder := do
  let paths := (Settings.defaultPaths ++ request.paths.flatMap passedPaths).eraseDups
  let found ← paths.filterMapM fun path => do
    return (← probe path).map fun item => (path, item)
  return .ofPaths found

/-- The variables of the environment that set something. -/
def gatherEnvironment : IO Environment :=
  Settings.variableKeys.filterMapM fun (name, _) => do
    return (← IO.getEnv name).map fun value => (name, value)

/-- How the command line is used. -/
def usageText : String :=
  "usage: capture [-h] [--config CONFIG] [--alias-policy \x7bstrict,shadow\x7d] [-v]\n" ++
    "               \x7bexpand,rewrite,parse,report,config\x7d ...\n"

/-- Write the output file of a request if the run has changed it. -/
def handOver (request : Request) (before after : Folder) : IO Unit := do
  match request.action with
  | .expandFile _ (some path) _ _ _ =>
      match after.read path with
      | .ok content =>
          if (before.read path).toOption ≠ some content then
            IO.FS.writeBinFile path (ByteArray.mk content.toArray)
      | .error _ => return
  | _ => return

/-- Carry out a command line and give its exit status. -/
def carryOut (arguments : List String) : IO UInt32 := do
  match Request.ofArguments arguments with
  | .error .help =>
      IO.print usageText
      return 0
  | .error .refused =>
      IO.eprint usageText
      return 2
  | .ok request =>
      let folder ← gather request
      match request.runOn .standard folder (← gatherEnvironment) with
      | .finished finish =>
          handOver request folder finish.folder
          IO.eprint finish.errors
          IO.print finish.output
          return finish.status.toUInt32
      | .usage _ => return 2
      | .broken _ =>
          IO.eprint "capture: the run broke off\n"
          return 1

end ClosureCapture.Command

/-- The command line of the tool. -/
def main (arguments : List String) : IO UInt32 :=
  ClosureCapture.Command.carryOut arguments
