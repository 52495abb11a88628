import ClosureCapture.Command.Run
import ClosureCapture.Proofs.Settings.Legality

/-!
# Printed settings are loaded again

Settings whose values are texts are printed as a row.  A file with this document is loaded as the
row, every field of which passes its check again, because it has passed it before.
-/

namespace ClosureCapture

theorem Yaml.Row.field?_entries {row : Yaml.Row} (record : row.IsRecord) {name text : String}
    (member : (name, text) ∈ row) : row.entries.field? name = some (.string text) := by
  have fields : row.entries =
      Entries.ofFields (row.map fun field => (field.1, .string field.2)) := by
    simp [Yaml.Row.entries, Entries.ofFields]
  rw [fields]
  refine Entries.field?_ofFields ?_ (List.mem_map_of_mem member)
  rw [List.map_map]
  exact record.distinct

namespace Settings

/-- Settings whose values are all texts. -/
structure IsTextual (settings : Settings) : Prop where
  target : settings.target = .string settings.target.display
  renderMode : settings.renderMode = .string settings.renderMode.display
  macroName : settings.macroName = .string settings.macroName.display
  refType : settings.refType = .string settings.refType.display
  refMutType : settings.refMutType = .string settings.refMutType.display

/-- The texts of settings by their keys. -/
def row (settings : Settings) : Yaml.Row :=
  [("alias_policy", settings.aliasPolicy.label), ("target", settings.target.display),
    ("render_mode", settings.renderMode.display), ("macro_name", settings.macroName.display),
    ("ref_type", settings.refType.display), ("ref_mut_type", settings.refMutType.display)]

theorem isKey_of_mem_keys {name : String} (member : name ∈ keys) : Yaml.IsKey name.toList := by
  simp only [keys, List.mem_cons, List.not_mem_nil, or_false] at member
  rcases member with rfl | rfl | rfl | rfl | rfl | rfl
  all_goals exact ⟨by decide, by decide, by decide, by decide⟩

theorem row_isRecord (settings : Settings) : settings.row.IsRecord where
  nonempty := by simp [row]
  keys := by
    intro field member
    exact isKey_of_mem_keys (List.mem_map_of_mem (f := Prod.fst) member)
  distinct := show keys.Nodup by decide

section Textual

variable {settings : Settings} (textual : settings.IsTextual)

include textual

theorem toValue_eq_row : settings.toValue = settings.row.value := by
  rw [toValue, textual.target, textual.renderMode, textual.macroName, textual.refType,
    textual.refMutType]
  rfl

/-- The texts of checked settings pass the checks again. -/
theorem ofEntries_row (checked : settings.Checked) :
    ofEntries .standard settings.row.entries.asGiven = .ok settings := by
  have field : ∀ {name text : String}, (name, text) ∈ settings.row →
      settings.row.entries.asGiven.field? name = some (.document (.string text)) := by
    intro name text member
    rw [field?_asGiven, Yaml.Row.field?_entries settings.row_isRecord member]
    rfl
  have value : ∀ (name : String) {text : String} {value : Value}, value = .string text →
      (name, text) ∈ settings.row → valueOf? settings.row.entries.asGiven name = some value := by
    rintro name text _ rfl member
    rw [valueOf?, field member]
    rfl
  have policy := field (show ("alias_policy", settings.aliasPolicy.label) ∈ _ by simp [row])
  have target := value "target" textual.target (by simp [row])
  have renderMode := value "render_mode" textual.renderMode (by simp [row])
  have macroName := value "macro_name" textual.macroName (by simp [row])
  have refType := value "ref_type" textual.refType (by simp [row])
  have refMutType := value "ref_mut_type" textual.refMutType (by simp [row])
  have taken : ∀ {found : Option Value} {value default : Value},
      found = some value → value = found.getD default := by
    rintro _ _ _ rfl
    rfl
  refine ofEntries_eq_ok_iff.2 ⟨rfl, ⟨?_, ?_, ?_, ?_, ?_, ?_⟩, ?_, ?_, ?_⟩
  · rw [policy]
    cases settings.aliasPolicy <;> decide
  · exact taken target
  · exact taken renderMode
  · exact taken macroName
  · exact taken refType
  · exact taken refMutType
  · rw [target]
    exact Target.ofValue?_isSome_iff.2 checked.target
  · rw [renderMode]
    exact Block.Layout.ofValue?_isSome_iff.2 checked.renderMode
  · intro key member
    simp only [List.mem_cons, List.not_mem_nil, or_false] at member
    rcases member with rfl | rfl | rfl
    · rw [macroName]
      exact checked.names _ (by simp)
    · rw [refType]
      exact checked.names _ (by simp)
    · rw [refMutType]
      exact checked.names _ (by simp)

end Textual

theorem load_row {settings : Settings} (checked : settings.Checked)
    (textual : settings.IsTextual) {home saved : Folder} {given : Option String}
    (located : filePath? saved given = some "capture.yaml")
    (written : home.writeText "capture.yaml" (Yaml.text settings.toValue).toList = .ok saved) :
    load saved given [] [] = .ok settings := by
  rw [Yaml.text, String.toList_ofList, toValue_eq_row textual] at written
  rw [load, loadOn, fileEntries_of_writeText settings.row_isRecord (by decide) written located]
  exact ofEntries_row textual checked

theorem isTextual_of_checked {settings : Settings} (checked : settings.Checked)
    (names : ∀ name ∈ [settings.macroName, settings.refType, settings.refMutType],
      ∃ text, name = .string text) : settings.IsTextual := by
  have textOf : ∀ {value : Value}, (∃ text, value = .string text) →
      value = .string value.display := by
    rintro _ ⟨text, rfl⟩
    rfl
  have labelled : ∀ {value : Value} {labels : List String}, value ∈ labels.map Value.string →
      value = .string value.display := by
    intro value labels member
    obtain ⟨label, -, same⟩ := List.mem_map.1 member
    exact textOf ⟨label, same.symm⟩
  exact ⟨labelled checked.target, labelled checked.renderMode, textOf (names _ (by simp)),
    textOf (names _ (by simp)), textOf (names _ (by simp))⟩

/-- What the configuration command prints for loaded settings, saved as a settings file, is loaded
as these settings, whether the file is looked for or named. -/
theorem load_saved_config {folder : Folder} {given : Option String} {environment : Environment}
    {overrides : Entries} {settings : Settings}
    (loaded : load folder given environment overrides = .ok settings)
    (names : ∀ name ∈ [settings.macroName, settings.refType, settings.refMutType],
      ∃ text, name = .string text) (log : List Event → String) :
    ∃ finish, Command.Action.run folder settings log .config = .finished finish ∧
      finish.status = 0 ∧
      ∀ home saved : Folder, home.writeText "capture.yaml" finish.output.toList = .ok saved →
        load saved none [] [] = .ok settings ∧
          load saved (some "capture.yaml") [] [] = .ok settings := by
  have checked := checked_of_loadOn loaded
  have textual := isTextual_of_checked checked names
  refine ⟨_, rfl, rfl, ?_⟩
  intro home saved written
  have contained : saved.contains "capture.yaml" = true := Folder.contains_of_write written
  have found : filePath? saved none = some "capture.yaml" := by
    simp [filePath?, findFile, defaultPaths, contained]
  exact ⟨load_row checked textual found written, load_row checked textual rfl written⟩

/-- Names that a document would take for a truth value and for null are loaded as texts. -/
theorem load_saved_config_words :
    ∃ settings finish saved, settings.macroName = .string "on" ∧
      settings.refType = .string "null" ∧
      Command.Action.run ⟨[]⟩ settings (fun _ => "") .config = .finished finish ∧
      (⟨[]⟩ : Folder).writeText "capture.yaml" finish.output.toList = .ok saved ∧
      load saved none [] [] = .ok settings := by
  have loaded : load ⟨[]⟩ none [("CAPTURE_ALIAS_POLICY", "Shadow")]
      [(.string "macro_name", .string "on"), (.string "ref_type", .string "null")] =
      .ok { aliasPolicy := .shadow, macroName := .string "on", refType := .string "null" } := by
    with_unfolding_all rfl
  obtain ⟨finish, printed, -, reloads⟩ := load_saved_config loaded (by simp) fun _ => ""
  obtain ⟨saved, written⟩ := Folder.exists_writeText_empty
    (show pathNames "capture.yaml" = ["capture.yaml"] by decide) (by decide) finish.output.toList
  exact ⟨_, finish, saved, rfl, rfl, printed, written, (reloads _ saved written).1⟩

end Settings

end ClosureCapture
