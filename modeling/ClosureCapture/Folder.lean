import ClosureCapture.Text.Line
import ClosureCapture.Text.Utf8

/-!
# Folders of files

A folder maps paths to the bytes of files and to further folders. A folder exists if it is named
itself or if something is inside it. Texts are read as UTF-8 with all line ends turned into line
feeds, and written as UTF-8 as they are.
-/

namespace ClosureCapture

/-- What a path leads to. -/
inductive FolderItem where
  | file (content : List UInt8)
  | folder
  deriving DecidableEq, Repr

/-- Files and folders by the names on their paths. -/
structure Folder where
  items : List (List String × FolderItem)

/-- Why a path does not lead to a file. -/
inductive PathFault where
  | missing
  | isFolder
  | notAFolder
  deriving DecidableEq, Repr

/-- The names on a path. Empty names and single dots stay where they are, and double dots go
back. -/
def pathNames (path : String) : List String :=
  ((path.toList.splitOn '/').map String.ofList).foldl
    (fun names name =>
      if name = "" ∨ name = "." then names
      else if name = ".." then names.dropLast
      else names ++ [name])
    []

/-- The bytes of a text. -/
def encodeText (text : List Char) : List UInt8 :=
  text.flatMap String.utf8EncodeChar

namespace Folder

/-- The folder with the given files and folders in it. -/
def ofPaths (paths : List (String × FolderItem)) : Folder :=
  ⟨paths.map fun (path, item) => (pathNames path, item)⟩

/-- What names lead to. -/
def item? (folder : Folder) (names : List String) : Option FolderItem :=
  match folder.items.lookup names with
  | some item => some item
  | none =>
      if names.isEmpty || folder.items.any (fun (inside, _) => names.isPrefixOf inside) then
        some .folder
      else none

/-- The names on a path, when all that it passes through are folders. -/
def locate (folder : Folder) (path : String) : Except PathFault (List String) :=
  let names := pathNames path
  let passed := (List.range names.length).map fun count => folder.item? (names.take count)
  if path.isEmpty then .error .missing
  else
    match passed.find? (· ≠ some .folder) with
    | none => .ok names
    | some none => .error .missing
    | some (some _) => .error .notAFolder

/-- Whether a path leads to something. -/
def contains (folder : Folder) (path : String) : Bool :=
  match folder.locate path with
  | .ok names => (folder.item? names).isSome
  | .error _ => false

/-- The bytes of the file at a path. -/
def read (folder : Folder) (path : String) : Except PathFault (List UInt8) := do
  match folder.item? (← folder.locate path) with
  | some (.file content) => return content
  | some .folder => .error .isFolder
  | none => .error .missing

/-- The folder with a file put at a path, in place of one that is there. -/
def write (folder : Folder) (path : String) (content : List UInt8) : Except PathFault Folder := do
  let names ← folder.locate path
  match folder.item? names with
  | some .folder => .error .isFolder
  | _ => return ⟨(names, .file content) :: folder.items.filter (·.1 ≠ names)⟩

end Folder

/-- Why a path does not lead to a text. -/
inductive ReadFault where
  | path (fault : PathFault)
  | encoding (fault : Text.Utf8Fault)

namespace Folder

/-- The text of the file at a path. -/
def readText (folder : Folder) (path : String) : Except ReadFault (List Char) := do
  let content ← (folder.read path).mapError .path
  let text ← (Text.decodeUtf8 content).mapError .encoding
  return Text.unifyLineEnds text

/-- The folder with a text put at a path. -/
def writeText (folder : Folder) (path : String) (text : List Char) : Except PathFault Folder :=
  folder.write path (encodeText text)

end Folder

end ClosureCapture
