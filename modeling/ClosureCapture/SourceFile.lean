import ClosureCapture.Folder
import ClosureCapture.Source

/-!
# Expansion of a source file

The text of a file is expanded as it is read.
-/

namespace ClosureCapture

/-- Why a source file has no expansion. -/
inductive SourceFileFault where
  | read (fault : ReadFault)
  | settings (fault : SettingsFault)

/-- The wording about a source file that is not there. -/
def sourceNotFound (path : String) : String :=
  "Source file not found: " ++ path

/-- Expand every site of the file at a path. -/
def Settings.expandFile (settings : Settings) (folder : Folder) (path : String) :
    Except SourceFileFault SourceExpansion := do
  let source ← (folder.readText path).mapError .read
  (settings.expandSource source).mapError .settings

end ClosureCapture
