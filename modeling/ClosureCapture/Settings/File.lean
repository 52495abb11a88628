import ClosureCapture.Folder
import ClosureCapture.Json.Reader
import ClosureCapture.Platform
import ClosureCapture.Settings.Basic

/-!
# Settings files

A settings file holds a map, in YAML if its name says so and in JSON otherwise. A YAML document
without content is an empty map. A file that is refused is told apart from a file that cannot be
read at all, and a refusal that can be worded from one that cannot.
-/

namespace ClosureCapture

/-- Why settings are refused. -/
inductive SettingsError where
  | fileNotFound (path : String)
  | malformedFile
  | notAMap (path : String)
  | unknownKeys (keys : List Scalar)
  | invalidPolicy (value : Value)
  | invalidTarget (value : Value)
  | invalidLayout (value : Value)
  | invalidName (key : String) (value : Value)

/-- The wording of a refusal. -/
def SettingsError.message : SettingsError → String
  | .fileNotFound path => "Configuration file not found: " ++ path
  | .malformedFile => "Invalid configuration file format"
  | .notAMap path => "Configuration in " ++ path ++ " must be a mapping"
  | .unknownKeys keys =>
      "Unknown configuration keys: " ++ (Value.list (keys.map .scalar)).literal
  | .invalidPolicy value => invalid "alias_policy" value AliasPolicy.labels
  | .invalidTarget value => invalid "target" value Target.labels
  | .invalidLayout value => invalid "render_mode" value Block.Layout.labels
  | .invalidName key value =>
      "Invalid " ++ key ++ ": " ++ value.literal ++ " is not an identifier"
where
  invalid (key : String) (value : Value) (labels : List String) : String :=
    "Invalid " ++ key ++ ": " ++ value.literal ++ " (expected one of " ++ labelList labels ++ ")"

/-- Whether all that a refusal has to show is short enough. -/
def SettingsError.isShowable : SettingsError → Bool
  | .fileNotFound _ | .malformedFile | .notAMap _ => true
  | .unknownKeys keys => keys.all Scalar.isShowable
  | .invalidPolicy value | .invalidTarget value | .invalidLayout value => value.isShowable
  | .invalidName _ value => value.isShowable

/-- Why settings cannot be loaded. -/
inductive LoadFault where
  | refused (error : SettingsError)
  /-- A refusal that cannot be worded. -/
  | unshowable
  /-- The file is there but cannot be read. -/
  | unreadable (fault : ReadFault)
  /-- A well-formed document without a value. -/
  | worthless (fault : Yaml.Fault)
  /-- A number with too many digits. -/
  | longNumber
  /-- Unknown keys that have no order in which to report them. -/
  | unorderedKeys

/-- Refuse settings, if the refusal can be worded. -/
def LoadFault.ofError (error : SettingsError) : LoadFault :=
  if error.isShowable then .refused error else .unshowable

namespace Settings

/-- The paths at which a settings file is looked for. -/
def defaultPaths : List String :=
  ["capture.yaml", "capture.yml", "capture.json"]

/-- The first of some paths that leads to something; the default paths if none are given. -/
def findFile (folder : Folder) (paths : List String) : Option String :=
  (if paths.isEmpty then defaultPaths else paths).find? folder.contains

/-- Whether a file holds YAML by its name. -/
def isYamlPath (path : String) : Bool :=
  ".yaml".toList.isSuffixOf path.toList || ".yml".toList.isSuffixOf path.toList

/-- The value of the bytes of a settings file. -/
def readFile (platform : Platform) (path : String) (content : List UInt8) :
    Except LoadFault Value :=
  if isYamlPath path then
    match platform.readYaml content with
    | .ok value => .ok (if value.isVoid then .map [] else value)
    | .error (.encoding fault) => .error (.unreadable (.encoding fault))
    | .error (.document .malformed) => .error (.refused .malformedFile)
    | .error (.document fault) => .error (.worthless fault)
  else
    match Text.decodeUtf8 content with
    | .ok text =>
        match Json.read (Text.unifyLineEnds text) with
        | .ok value => .ok value
        | .error .malformed => .error (.refused .malformedFile)
        | .error .longNumber => .error .longNumber
    | .error fault => .error (.unreadable (.encoding fault))

/-- The entries of the settings file at a path. -/
def loadFile (platform : Platform) (folder : Folder) (path : String) :
    Except LoadFault Entries := do
  if folder.contains path then
    let content ← (folder.read path).mapError (.unreadable ∘ .path)
    match ← readFile platform path content with
    | .map entries => return entries
    | _ => .error (.refused (.notAMap path))
  else .error (.refused (.fileNotFound path))

end Settings

end ClosureCapture
