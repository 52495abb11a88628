import ClosureCapture.Proofs.Text.Utf8

/-!
# What is written to a folder is read back

A file can be written at a path when all that the path passes through are folders.  They still are
afterwards, so that the path leads to the file.  A text without carriage returns is read back as it
was written.
-/

namespace ClosureCapture

theorem Text.unifyLineEnds_eq {text : List Char} (plain : '\r' ∉ text) :
    unifyLineEnds text = text := by
  induction text with
  | nil => rfl
  | cons first text ih =>
      obtain ⟨notReturn, later⟩ := not_or.1 (mt List.mem_cons.2 plain)
      rw [unifyLineEnds.eq_def]
      split
      · next same => simp at same
      · next same => exact absurd (List.cons.inj same).1.symm notReturn
      · next same => exact absurd (List.cons.inj same).1.symm notReturn
      · next same =>
          obtain ⟨rfl, rfl⟩ := List.cons.inj same
          rw [ih later]

theorem Text.return_notMem_unifyLineEnds (text : List Char) : '\r' ∉ unifyLineEnds text := by
  fun_induction unifyLineEnds text with
  | case1 => exact List.not_mem_nil
  | case2 rest ih => simpa using ih
  | case3 rest notFeed ih => simpa using ih
  | case4 character rest notPair notReturn ih =>
      exact mt List.mem_cons.1 (not_or.2 ⟨fun same => notReturn same.symm, ih⟩)

/-- Unifying line ends keeps exactly the texts without carriage returns. -/
theorem Text.unifyLineEnds_eq_iff {text : List Char} : unifyLineEnds text = text ↔ '\r' ∉ text :=
  ⟨fun same => same ▸ return_notMem_unifyLineEnds text, unifyLineEnds_eq⟩

namespace Folder

variable {folder saved : Folder} {path : String} {names : List String} {content : List UInt8}

theorem locate_eq_ok_iff :
    folder.locate path = .ok names ↔
      path ≠ "" ∧ names = pathNames path ∧
        ∀ count < names.length, folder.item? (names.take count) = some .folder := by
  unfold locate
  by_cases empty : path = ""
  · simp [empty]
  · simp only [String.isEmpty_iff, empty, if_false]
    split
    · next passes =>
        rw [List.find?_eq_none] at passes
        simp only [List.mem_map, List.mem_range, forall_exists_index, and_imp,
          forall_apply_eq_imp_iff₂, decide_eq_true_eq, ne_eq, Decidable.not_not] at passes
        constructor
        · intro located
          obtain rfl := Except.ok.inj located
          exact ⟨empty, rfl, passes⟩
        · rintro ⟨-, rfl, -⟩
          rfl
    all_goals
      next stuck =>
        have blocked := List.find?_some stuck
        have member := List.mem_of_find?_eq_some stuck
        simp only [List.mem_map, List.mem_range] at member
        obtain ⟨count, within, item⟩ := member
        constructor
        · intro located
          simp at located
        · rintro ⟨-, rfl, passes⟩
          rw [passes count within] at item
          simp [← item] at blocked

/-- The folder with a file put at some names. -/
def put (folder : Folder) (names : List String) (content : List UInt8) : Folder :=
  ⟨(names, .file content) :: folder.items.filter (·.1 ≠ names)⟩

theorem item?_put (folder : Folder) (names : List String) (content : List UInt8) :
    (folder.put names content).item? names = some (.file content) := by
  simp [item?, put]

theorem lookup_filter_ne (items : List (List String × FolderItem)) {other : List String}
    (different : other ≠ names) :
    (items.filter (·.1 ≠ names)).lookup other = items.lookup other := by
  induction items with
  | nil => rfl
  | cons item items ih =>
      obtain ⟨place, stored⟩ := item
      by_cases same : place = names
      · have apart : (other == place) = false := beq_false_of_ne (same ▸ different)
        rw [List.filter_cons_of_neg (by simpa using same), ih, List.lookup_cons, apart]
      · rw [List.filter_cons_of_pos (by simpa using same), List.lookup_cons, List.lookup_cons, ih]

theorem item?_take_put {count : Nat} (within : count < names.length)
    (passed : folder.item? (names.take count) = some .folder) :
    (folder.put names content).item? (names.take count) = some .folder := by
  have shorter : names.take count ≠ names := by
    intro same
    have lengths := congrArg List.length same
    rw [List.length_take] at lengths
    omega
  have kept : (folder.put names content).items.lookup (names.take count) =
      folder.items.lookup (names.take count) := by
    rw [put, List.lookup_cons, beq_false_of_ne shorter]
    exact lookup_filter_ne _ shorter
  rw [item?] at passed ⊢
  rw [kept]
  split
  · next item found => simpa [found] using passed
  · rw [if_pos]
    simp [put, List.take_prefix]

theorem write_eq_ok_iff :
    folder.write path content = .ok saved ↔
      ∃ names, folder.locate path = .ok names ∧ folder.item? names ≠ some .folder ∧
        saved = folder.put names content := by
  rw [write]
  cases located : folder.locate path with
  | error fault => simp [bind, Except.bind]
  | ok names =>
      simp only [bind, Except.bind, Except.ok.injEq, exists_eq_left']
      split
      · next isFolder => simp [isFolder]
      · next other =>
          have notFolder : folder.item? names ≠ some .folder := fun same => other same
          simp [notFolder, pure, Except.pure, put, @eq_comm _ saved]

/-- After a file has been written its path leads to it. -/
theorem locate_of_write (written : folder.write path content = .ok saved) :
    ∃ names, saved.locate path = .ok names ∧ saved.item? names = some (.file content) := by
  obtain ⟨names, located, -, rfl⟩ := write_eq_ok_iff.1 written
  obtain ⟨nonempty, named, passes⟩ := locate_eq_ok_iff.1 located
  refine ⟨names, locate_eq_ok_iff.2 ⟨nonempty, named, ?_⟩, item?_put folder names content⟩
  intro count within
  exact item?_take_put within (passes count within)

theorem read_eq_ok_iff :
    folder.read path = .ok content ↔
      ∃ names, folder.locate path = .ok names ∧ folder.item? names = some (.file content) := by
  rw [read, bind_eq_ok_iff]
  refine exists_congr fun names => and_congr_right fun _ => ?_
  split
  · next stored found => simp [found, pure, Except.pure]
  · next found => simp [found]
  · next found => simp [found]

theorem contains_of_read (stored : folder.read path = .ok content) :
    folder.contains path = true := by
  obtain ⟨names, located, found⟩ := read_eq_ok_iff.1 stored
  simp [contains, located, found]

theorem read_of_write (written : folder.write path content = .ok saved) :
    saved.read path = .ok content :=
  read_eq_ok_iff.2 (locate_of_write written)

theorem contains_of_write (written : folder.write path content = .ok saved) :
    saved.contains path = true :=
  contains_of_read (read_of_write written)

theorem readText_eq_ok_iff {text : List Char} :
    folder.readText path = .ok text ↔
      ∃ content, folder.read path = .ok content ∧
        ∃ decoded, Text.decodeUtf8 content = .ok decoded ∧ Text.unifyLineEnds decoded = text := by
  simp only [readText, bind_eq_ok_iff, mapError_eq_ok_iff, pure, Except.pure, Except.ok.injEq]

/-- A text can be put right into a folder that holds nothing. -/
theorem exists_writeText_empty {name : String} (single : pathNames path = [name])
    (nonempty : path ≠ "") (text : List Char) :
    ∃ saved, (⟨[]⟩ : Folder).writeText path text = .ok saved := by
  have located : (⟨[]⟩ : Folder).locate path = .ok [name] :=
    locate_eq_ok_iff.2 ⟨nonempty, single.symm, by simp [item?]⟩
  exact ⟨_, write_eq_ok_iff.2 ⟨_, located, by simp [item?], rfl⟩⟩

end Folder

end ClosureCapture
