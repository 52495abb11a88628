import ClosureCapture.Proofs.Folder.Writing
import ClosureCapture.Proofs.Result.Chaining
import ClosureCapture.Proofs.Value.Overlay
import ClosureCapture.Proofs.Yaml.Document
import ClosureCapture.Settings.Loading

/-!
# Settings files on a platform

A platform keeps to the laws of documents and of sorting: the map of a YAML document has different
keys, and a list is sorted when it has the same members and none of them stands right behind one
that it comes before.  The standard platform does.  The entries of a settings file are then a
mapping, and a row that is written to a file is loaded again.
-/

namespace ClosureCapture

/-! ### Maps that are read -/

theorem Yaml.distinct_of_nodeValue {handles : Handles} {node : Node} {entries : Entries}
    (valued : node.value handles = .ok (.map entries)) : entries.Distinct := by
  cases node with
  | scalar properties plain text =>
      rw [Node.value] at valued
      obtain ⟨form, -, valued⟩ := bind_eq_ok_iff.1 valued
      split at valued
      · obtain ⟨scalar, -, read⟩ := bind_eq_ok_iff.1 valued
        simp [pure, Except.pure] at read
      · simp at valued
  | sequence properties items =>
      rw [Node.value] at valued
      obtain ⟨form, -, valued⟩ := bind_eq_ok_iff.1 valued
      split at valued
      · simp at valued
      · obtain ⟨values, -, listed⟩ := bind_eq_ok_iff.1 valued
        simp [pure, Except.pure] at listed
      · obtain ⟨values, -, listed⟩ := bind_eq_ok_iff.1 valued
        simp [pure, Except.pure] at listed
      · simp at valued
  | mapping properties nodes =>
      rw [Node.value] at valued
      obtain ⟨form, -, valued⟩ := bind_eq_ok_iff.1 valued
      split at valued
      · obtain ⟨scalar, -, read⟩ := bind_eq_ok_iff.1 valued
        simp [pure, Except.pure] at read
      · obtain ⟨contents, collected, same⟩ := bind_eq_ok_iff.1 valued
        obtain rfl := Value.map.inj (Except.ok.inj same)
        split at collected
        · obtain ⟨pairs, -, rfl⟩ := map_eq_ok_iff.1 collected
          exact Entries.distinct_ofPairs pairs
        · simp at collected
      · obtain ⟨contents, -, same⟩ := bind_eq_ok_iff.1 valued
        simp only [pure, Except.pure, Except.ok.injEq, Value.set] at same
        split at same <;> simp at same
      · simp at valued
  | reference name => simp [Node.value] at valued

theorem Yaml.distinct_of_read {text : List Char} {entries : Entries}
    (read : Yaml.read text = .ok (.map entries)) : entries.Distinct := by
  rw [Yaml.read] at read
  split at read
  · obtain ⟨document, -, valued⟩ := bind_eq_ok_iff.1 read
    cases document with
    | none => simp [pure, Except.pure, Value.null] at valued
    | some document =>
        obtain ⟨resolved, -, valued⟩ := bind_eq_ok_iff.1 valued
        exact distinct_of_nodeValue (mapError_eq_ok_iff.1 valued)
  · simp at read

theorem Json.distinct_of_readValue {fuel : Nat} {text rest : List Char} {entries : Entries}
    (valued : Json.readValue fuel text = .ok (.map entries, rest)) : entries.Distinct := by
  unfold Json.readValue at valued
  split at valued
  · simp at valued
  · obtain ⟨content, -, same⟩ := bind_eq_ok_iff.1 valued
    simp [pure, Except.pure, Value.string] at same
  · split at valued
    · simp at valued
    · obtain ⟨items, -, same⟩ := bind_eq_ok_iff.1 valued
      simp [pure, Except.pure] at same
  · split at valued
    · simp only [Except.ok.injEq, Prod.mk.injEq, Value.map.injEq] at valued
      rw [← valued.1]
      exact List.Pairwise.nil
    · obtain ⟨⟨members, after⟩, -, collected⟩ := bind_eq_ok_iff.1 valued
      simp only [pure, Except.pure, Except.ok.injEq, Prod.mk.injEq, Value.map.injEq] at collected
      rw [← collected.1]
      exact Entries.distinct_ofPairs members
  · obtain ⟨scalar, -, same⟩ := bind_eq_ok_iff.1 valued
    simp [pure, Except.pure] at same

theorem Json.distinct_of_read {text : List Char} {entries : Entries}
    (read : Json.read text = .ok (.map entries)) : entries.Distinct := by
  obtain ⟨⟨value, rest⟩, valued, taken⟩ := bind_eq_ok_iff.1 read
  dsimp only at taken
  split at taken
  · obtain rfl := Except.ok.inj taken
    exact distinct_of_readValue valued
  · simp at taken

/-! ### Platforms -/

/-- The laws that a platform keeps to. -/
structure Platform.Lawful (platform : Platform) : Prop where
  distinct : ∀ content (entries : Entries),
    platform.readYaml content = .ok (.map entries) → entries.Distinct
  perm : ∀ members, (platform.listing members).Perm members
  unbroken : ∀ members, Scalar.Unbroken (platform.listing members)

theorem Platform.lawful_standard : Platform.standard.Lawful where
  distinct content entries read := by
    obtain ⟨text, -, read⟩ := bind_eq_ok_iff.1 (show Yaml.readBytes content = _ from read)
    exact Yaml.distinct_of_read (mapError_eq_ok_iff.1 read)
  perm := Scalar.sort_perm
  unbroken := Scalar.unbroken_sort

namespace Settings

variable {platform : Platform} {folder : Folder} {given : Option String} {path : String}
  {content : List UInt8} {entries : Entries}

theorem distinct_of_readFile (lawful : platform.Lawful)
    (read : readFile platform path content = .ok (.map entries)) : entries.Distinct := by
  rw [readFile] at read
  split at read
  · split at read
    · next value valued =>
        split at read
        · obtain rfl := Value.map.inj (Except.ok.inj read)
          exact List.Pairwise.nil
        · obtain rfl := Except.ok.inj read
          exact lawful.distinct content entries valued
    all_goals simp at read
  · split at read
    · split at read
      · next value valued =>
          obtain rfl := Except.ok.inj read
          exact Json.distinct_of_read valued
      all_goals simp at read
    · simp at read

theorem loadFile_eq_ok_iff (stored : folder.read path = .ok content) :
    loadFile platform folder path = .ok entries ↔
      readFile platform path content = .ok (.map entries) := by
  rw [loadFile, if_pos (Folder.contains_of_read stored), stored]
  change (readFile platform path content >>= _) = _ ↔ _
  rw [bind_eq_ok_iff]
  constructor
  · rintro ⟨value, read, taken⟩
    split at taken
    · obtain rfl := Except.ok.inj taken
      exact read
    · simp at taken
  · intro read
    exact ⟨_, read, rfl⟩

theorem exists_read_of_loadFile (found : loadFile platform folder path = .ok entries) :
    ∃ content, folder.read path = .ok content := by
  rw [loadFile] at found
  split at found
  · obtain ⟨content, read, -⟩ := bind_eq_ok_iff.1 found
    exact ⟨content, mapError_eq_ok_iff.1 read⟩
  · simp at found

theorem distinct_of_fileEntries (lawful : platform.Lawful)
    (found : fileEntries platform folder given = .ok entries) : entries.Distinct := by
  rw [fileEntries] at found
  split at found
  · obtain ⟨content, stored⟩ := exists_read_of_loadFile found
    exact distinct_of_readFile lawful ((loadFile_eq_ok_iff stored).1 found)
  · obtain rfl := Except.ok.inj found
    exact List.Pairwise.nil

/-- A file that the document of a row has been written to is loaded as the row. -/
theorem fileEntries_of_writeText {home saved : Folder} {row : Yaml.Row} (record : row.IsRecord)
    (isYaml : isYamlPath path = true)
    (written : home.writeText path (Yaml.itemText 0 row.value) = .ok saved)
    (located : filePath? saved given = some path) :
    fileEntries .standard saved given = .ok row.entries := by
  have stored : saved.read path = .ok (encodeText (Yaml.itemText 0 row.value)) :=
    Folder.read_of_write written
  have something : row.value.isVoid = false := by
    simpa [Yaml.Row.value, Value.isVoid, Yaml.Row.entries] using record.nonempty
  have document : Platform.standard.readYaml (encodeText (Yaml.itemText 0 row.value)) =
      .ok row.value := by
    change Yaml.readBytes _ = _
    rw [Yaml.readBytes, Text.decodeUtf8_encodeText]
    change (Yaml.read (Text.unifyLineEnds _)).mapError _ = _
    rw [Text.unifyLineEnds_eq (Yaml.tidy_row record).return_notMem, Yaml.read_row record]
    rfl
  have read : readFile .standard path (encodeText (Yaml.itemText 0 row.value)) =
      .ok row.value := by
    rw [readFile, if_pos isYaml, document]
    simp [something]
  rw [fileEntries, located]
  exact (loadFile_eq_ok_iff stored).2 read

end Settings

end ClosureCapture
