import ClosureCapture.Command.Run
import ClosureCapture.Proofs.Settings.Legality
import ClosureCapture.Proofs.Source.Outcome

/-!
# How runs end

A run with settings carries its action out, one whose settings are refused reports that, and any
other fault of the settings breaks it off.  An action with settings that have been checked breaks
off only when it is to expand the sites of a file: where the file or the output is a folder or lies
below a file, and where the macro name is no text.
-/

namespace ClosureCapture

/-- Checked settings can be rendered with. -/
theorem Settings.Checked.renderable {settings : Settings} (checked : settings.Checked) :
    settings.Renderable :=
  ⟨Target.ofValue?_isSome_iff.2 checked.target,
    Block.Layout.ofValue?_isSome_iff.2 checked.renderMode⟩

namespace Folder

variable {folder : Folder} {path : String}

end Folder

theorem Settings.expandFile_of_read {settings : Settings} {folder : Folder} {path : String}
    {text : List Char} (read : folder.readText path = .ok text) :
    settings.expandFile folder path = (settings.expandSource text).mapError .settings := by
  rw [expandFile, read]
  rfl

namespace Command

variable {platform : Platform} {arguments : List String} {folder : Folder}
  {environment : Environment} {request : Request} {settings : Settings} {log : List Event → String}

/-! ### The settings of a run -/

/-- A run with settings that load carries its action out. -/
theorem runOn_of_load (accepted : Request.ofArguments arguments = .ok request)
    (loaded : Settings.loadOn platform folder request.configPath environment
      request.overrides.asGiven = .ok settings) :
    runOn platform arguments folder environment =
      request.action.run folder settings fun events =>
        eventLines request.verbose (Settings.loadEvents folder request.configPath ++ events) := by
  simp only [runOn, accepted, Request.runOn, loaded]

end Command

end ClosureCapture
