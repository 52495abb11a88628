import ClosureCapture.Event
import ClosureCapture.Settings.File
import ClosureCapture.Text.Blank
import ClosureCapture.Text.Name

/-!
# Loading settings

Settings come from a file, from the environment and from overrides, each of which wins over the
ones before it, key by key. Overrides can hold a policy in place of a value that names it. What
the three agree on is checked once, in a fixed order: first the keys, then the values.
-/

namespace ClosureCapture

/-- The variables of an environment. -/
abbrev Environment := List (String × String)

/-- What an entry of settings can be given as. -/
inductive Given where
  | document (value : Value)
  | policy (policy : AliasPolicy)

/-- A policy in display form. -/
def AliasPolicy.display : AliasPolicy → String
  | .strict => "AliasPolicy.STRICT"
  | .shadow => "AliasPolicy.SHADOW"

/-- A policy as something to be shown. -/
def AliasPolicy.object (policy : AliasPolicy) : Object where
  literal := "<" ++ policy.display ++ ": " ++ Text.quoted policy.label ++ ">"
  display := policy.display
  isVoid := false
  isShowable := true
  display_notName := by cases policy <;> decide +kernel

/-- What is given, as a value. -/
def Given.value : Given → Value
  | .document value => value
  | .policy chosen => .other chosen.object

/-- Entries of a document as they are given. -/
def Entries.asGiven (entries : Entries) : Entries Given :=
  entries.map fun (key, value) => (key, .document value)

namespace Settings

/-- The variables that set something, with the keys they set. -/
def variableKeys : List (String × String) :=
  [("CAPTURE_ALIAS_POLICY", "alias_policy"), ("CAPTURE_TARGET", "target"),
    ("CAPTURE_RENDER_MODE", "render_mode"), ("CAPTURE_MACRO_NAME", "macro_name")]

/-- The entries set by an environment. An empty variable sets nothing; the blanks around a value
are dropped. -/
def ofEnvironment (environment : Environment) : Entries :=
  variableKeys.filterMap fun (name, key) =>
    match environment.lookup name with
    | some value =>
        if value.isEmpty then none
        else some (.string key, .string (String.ofList (Text.trim value.toList)))
    | none => none

/-- The overrides that are not null. -/
def givenOverrides (overrides : Entries Given) : Entries Given :=
  overrides.filter fun (_, given) =>
    match given with
    | .document (.scalar .null) => false
    | _ => true

/-- The keys of all settings. -/
def keys : List String :=
  ["alias_policy", "target", "render_mode", "macro_name", "ref_type", "ref_mut_type"]

/-- Whether a key names a setting. -/
def isKnownKey : Scalar → Bool
  | .string name => keys.contains name
  | _ => false

/-- The keys of entries that name no setting. -/
def unknownKeys {Item : Type} (entries : Entries Item) : List Scalar :=
  (entries.map (·.1)).filter (!isKnownKey ·)

/-- Refuse entries whose keys name no setting. -/
def checkKeys (platform : Platform) (entries : Entries Given) : Except LoadFault Unit :=
  let unknown := unknownKeys entries
  if unknown.isEmpty then .ok ()
  else
    match platform.listing? unknown with
    | some listed => .error (.ofError (.unknownKeys listed))
    | none => .error .unorderedKeys

/-- The policy that is given, or named by a value in any case. -/
def policyOf? : Given → Option AliasPolicy
  | .policy policy => some policy
  | .document value =>
      value.text?.bind fun label =>
        AliasPolicy.ofLabel? (String.ofList (label.toList.map Char.toLower))

/-- The policy among some entries. -/
def policyIn (entries : Entries Given) (default : AliasPolicy) : Except LoadFault AliasPolicy :=
  match entries.field? "alias_policy" with
  | none => .ok default
  | some given =>
      match policyOf? given with
      | some policy => .ok policy
      | none => .error (.ofError (.invalidPolicy given.value))

/-- The value of a key among some entries, which must pass a check. -/
def valueIn (entries : Entries Given) (key : String) (default : Value) (passes : Value → Bool)
    (error : Value → SettingsError) : Except LoadFault Value :=
  match entries.field? key with
  | none => .ok default
  | some given =>
      if passes given.value then .ok given.value else .error (.ofError (error given.value))

/-- The name of a key among some entries, which must be one in its display form. -/
def nameIn (entries : Entries Given) (key : String) (default : Value) : Except LoadFault Value :=
  valueIn entries key default (Text.isName ·.display) (.invalidName key)

/-- The settings of some entries, the defaults standing in for missing ones. -/
def ofEntries (platform : Platform) (entries : Entries Given) : Except LoadFault Settings := do
  let default : Settings := {}
  checkKeys platform entries
  let aliasPolicy ← policyIn entries default.aliasPolicy
  let target ← valueIn entries "target" default.target
    (fun value => (Target.ofValue? value).isSome) .invalidTarget
  let renderMode ← valueIn entries "render_mode" default.renderMode
    (fun value => (Block.Layout.ofValue? value).isSome) .invalidLayout
  let macroName ← nameIn entries "macro_name" default.macroName
  let refType ← nameIn entries "ref_type" default.refType
  let refMutType ← nameIn entries "ref_mut_type" default.refMutType
  return ⟨aliasPolicy, target, renderMode, macroName, refType, refMutType⟩

/-- The path of the settings file: the given one unless it is empty, or else the first of the
default paths that leads to something. -/
def filePath? (folder : Folder) (given : Option String) : Option String :=
  match given with
  | some path => if path.isEmpty then findFile folder [] else some path
  | none => findFile folder []

/-- The entries of the settings file, if there is one. -/
def fileEntries (platform : Platform) (folder : Folder) (given : Option String) :
    Except LoadFault Entries :=
  match filePath? folder given with
  | some path => loadFile platform folder path
  | none => .ok []

/-- The entries of a file, of the environment and of overrides, the later ones winning. -/
def merged (file : Entries) (environment : Environment) (overrides : Entries Given) :
    Entries Given :=
  (file.overlay (ofEnvironment environment)).asGiven.overlay (givenOverrides overrides)

/-- Load settings from a file in a folder, from the environment and from overrides. -/
def loadOn (platform : Platform) (folder : Folder) (given : Option String)
    (environment : Environment) (overrides : Entries Given) : Except LoadFault Settings := do
  ofEntries platform (merged (← fileEntries platform folder given) environment overrides)

/-- Load settings on the standard platform, with values of documents as overrides. -/
def load (folder : Folder) (given : Option String) (environment : Environment)
    (overrides : Entries) : Except LoadFault Settings :=
  loadOn .standard folder given environment overrides.asGiven

/-- The events of loading settings. -/
def loadEvents (folder : Folder) (given : Option String) : List Event :=
  ((filePath? folder given).map .settingsLoading).toList

end Settings

end ClosureCapture
