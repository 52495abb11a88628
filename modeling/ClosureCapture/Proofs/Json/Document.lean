import ClosureCapture.Proofs.Json.Quoted
import ClosureCapture.Proofs.Value.Entries

/-!
# Documents of texts are read back

A document is written with the fields of every record in the order of their names.  Hence it is
not read back as the value that it was written for, but as that value with its records sorted.
This file proves it of all values that are made of texts by lists and by records with different
names.

The statement about a written value says what is read when any text follows it and the fuel is at
least its length, so that the values of a list or of a record can be put together.
-/

namespace ClosureCapture

namespace Value

/-- A value made of texts by lists and by records with different names. -/
inductive IsTextual : Value → Prop
  | text (content : String) : IsTextual (.string content)
  | list {items : List Value} : (∀ item ∈ items, IsTextual item) → IsTextual (.list items)
  | record {fields : List (String × Value)} : (fields.map Prod.fst).Nodup →
      (∀ field ∈ fields, IsTextual field.2) → IsTextual (.record fields)

mutual
/-- A value with the entries of its maps in the order of their names. -/
def sorted : Value → Value
  | .scalar content => .scalar content
  | .list items => .list (sortedItems items)
  | .map entries =>
      .map ((sortedEntries entries).mergeSort fun first second =>
        first.1.display ≤ second.1.display)
  | .other object => .other object

/-- Items with their maps sorted. -/
def sortedItems : List Value → List Value
  | [] => []
  | item :: items => item.sorted :: sortedItems items

/-- Entries with the maps in their values sorted. -/
def sortedEntries : List (Scalar × Value) → List (Scalar × Value)
  | [] => []
  | (key, value) :: entries => (key, value.sorted) :: sortedEntries entries
end

/-- Fields in the order of their names. -/
def sortedFields (fields : List (String × Value)) : List (String × Value) :=
  fields.mergeSort fun first second => first.1 ≤ second.1

theorem sortedFields_perm (fields : List (String × Value)) :
    (sortedFields fields).Perm fields :=
  List.mergeSort_perm fields _

theorem sorted_list (items : List Value) :
    (Value.list items).sorted = .list (items.map sorted) := by
  have each : sortedItems items = items.map sorted := by
    induction items with
    | nil => rfl
    | cons item items ih => rw [sortedItems, ih, List.map_cons]
  rw [sorted, each]

theorem sorted_record (fields : List (String × Value)) :
    (Value.record fields).sorted =
      .record ((sortedFields fields).map fun field => (field.1, field.2.sorted)) := by
  let entry (field : String × Value) : Scalar × Value := (.string field.1, field.2.sorted)
  have each : sortedEntries (Entries.ofFields fields) = fields.map entry := by
    induction fields with
    | nil => rfl
    | cons field fields ih =>
        rw [List.map_cons, ← ih]
        rfl
  have order : ((sortedFields fields).map entry) =
      (fields.map entry).mergeSort fun first second => first.1.display ≤ second.1.display :=
    List.map_mergeSort fun _ _ _ _ => rfl
  calc
    (Value.record fields).sorted =
        .map ((sortedEntries (Entries.ofFields fields)).mergeSort fun first second =>
          first.1.display ≤ second.1.display) := rfl
    _ = .map ((sortedFields fields).map entry) := by rw [each, order]
    _ = _ := by simp [record, entry]

/-- Sorting a record keeps the value of every field, sorted in turn. -/
theorem exists_sorted_record_eq {fields : List (String × Value)}
    (distinct : (fields.map Prod.fst).Nodup) :
    ∃ entries : Entries, (Value.record fields).sorted = .map entries ∧
      ∀ name value, (name, value) ∈ fields → entries.field? name = some value.sorted := by
  have perm := sortedFields_perm fields
  have names : (((sortedFields fields).map fun field => (field.1, field.2.sorted)).map
      Prod.fst).Nodup := by
    rw [List.map_map]
    exact (perm.map Prod.fst).nodup_iff.2 distinct
  refine ⟨Entries.ofFields _, sorted_record fields, ?_⟩
  intro name value member
  apply Entries.field?_ofFields names
  exact List.mem_map.2 ⟨(name, value), perm.mem_iff.2 member, rfl⟩

end Value

namespace Json

/-! ### Written values -/

/-- A text whose first character is no space and closes no list or record. -/
def StartsValue (written : List Char) : Prop :=
  ∃ first rest, written = first :: rest ∧ isSpace first = false ∧ first ≠ ']' ∧ first ≠ '\x7d'

/-- A text that is read as a value, whatever follows it. -/
structure ReadsAs (written : List Char) (value : Value) : Prop where
  starts : StartsValue written
  read : ∀ (fuel : Nat) (rest : List Char), written.length ≤ fuel →
    readValue fuel (written ++ rest) = .ok (value, rest)

theorem StartsValue.append {written : List Char} (starts : StartsValue written)
    (rest : List Char) : StartsValue (written ++ rest) := by
  obtain ⟨first, tail, rfl, visible, notClosing⟩ := starts
  exact ⟨first, tail ++ rest, rfl, visible, notClosing⟩

theorem skipSpace_cons {first : Char} (visible : isSpace first = false) (rest : List Char) :
    skipSpace (first :: rest) = first :: rest :=
  List.dropWhile_cons_of_neg (by simp [visible])

theorem StartsValue.skipSpace_eq {written : List Char} (starts : StartsValue written) :
    skipSpace written = written := by
  obtain ⟨first, tail, rfl, visible, -⟩ := starts
  exact skipSpace_cons visible tail

theorem StartsValue.skipSpace_space {written : List Char} (starts : StartsValue written) :
    skipSpace (' ' :: written) = written := by
  rw [skipSpace, List.dropWhile_cons_of_pos (by decide)]
  exact starts.skipSpace_eq

theorem stringText_append (content : String) (rest : List Char) :
    stringText content ++ rest = '"' :: (content.toList.flatMap escaped ++ '"' :: rest) := by
  simp [stringText]

theorem startsValue_stringText (content : String) : StartsValue (stringText content) :=
  ⟨'"', _, rfl, by decide, by decide, by decide⟩

theorem readsAs_stringText (content : String) :
    ReadsAs (stringText content) (.string content) where
  starts := startsValue_stringText content
  read := by
    intro fuel rest enough
    cases fuel with
    | zero => simp [stringText] at enough
    | succ fuel =>
        rw [stringText_append, readValue, readString_escaped]
        rfl

theorem commaJoined_cons_cons (first second : List Char) (rest : List (List Char)) :
    commaJoined (first :: second :: rest) =
      first ++ ',' :: ' ' :: commaJoined (second :: rest) := by
  simp [commaJoined]

theorem StartsValue.commaJoined {written : List Char} (starts : StartsValue written)
    (rest : List (List Char)) : StartsValue (commaJoined (written :: rest)) := by
  cases rest with
  | nil => exact starts
  | cons second rest =>
      rw [commaJoined_cons_cons]
      exact starts.append _

/-! ### Lists -/

theorem readItems_last {written : List Char} {item : Value} (reads : ReadsAs written item)
    {fuel : Nat} (enough : written.length ≤ fuel) (rest : List Char) :
    readItems (fuel + 1) (written ++ ']' :: rest) = .ok ([item], rest) := by
  have closes : skipSpace (']' :: rest) = ']' :: rest := skipSpace_cons (by decide) rest
  simp [readItems, reads.read fuel _ enough, bind, Except.bind, closes, pure, Except.pure]

theorem readItems_cons {written later : List Char} {item : Value} {items : List Value}
    (reads : ReadsAs written item) {fuel : Nat} (enough : written.length ≤ fuel)
    {rest : List Char} (starts : StartsValue later)
    (readLater : readItems fuel later = .ok (items, rest)) :
    readItems (fuel + 1) (written ++ ',' :: ' ' :: later) = .ok (item :: items, rest) := by
  have separates : skipSpace (',' :: ' ' :: later) = ',' :: ' ' :: later :=
    skipSpace_cons (by decide) _
  simp [readItems, reads.read fuel _ enough, bind, Except.bind, separates,
    starts.skipSpace_space, readLater, pure, Except.pure]

theorem readItems_commaJoined {items : List Value} (nonempty : items ≠ [])
    (each : ∀ item ∈ items, ReadsAs (valueText item) item.sorted) (fuel : Nat) (rest : List Char)
    (enough : (commaJoined (items.map valueText)).length < fuel) :
    readItems fuel (commaJoined (items.map valueText) ++ ']' :: rest) =
      .ok (items.map Value.sorted, rest) := by
  induction items generalizing fuel with
  | nil => exact absurd rfl nonempty
  | cons item items ih =>
      obtain ⟨fuel, rfl⟩ : ∃ less, fuel = less + 1 := ⟨fuel - 1, by omega⟩
      have reads := each item (by simp)
      cases items with
      | nil =>
          simp only [List.map_cons, List.map_nil, commaJoined] at enough ⊢
          exact readItems_last reads (by omega) rest
      | cons next items =>
          have later : ∀ other ∈ next :: items, ReadsAs (valueText other) other.sorted := by
            intro other member
            exact each other (List.mem_cons_of_mem _ member)
          rw [List.map_cons, List.map_cons, commaJoined_cons_cons, ← List.map_cons] at enough ⊢
          simp only [List.length_append, List.length_cons] at enough
          rw [List.append_assoc, List.cons_append, List.cons_append]
          apply readItems_cons reads (by omega)
          · exact ((later next (by simp)).starts.commaJoined _).append _
          · exact ih (by simp) later fuel (by omega)

theorem valueText_list (items : List Value) :
    valueText (.list items) = '[' :: (commaJoined (items.map valueText) ++ [']']) := by
  have each : itemTexts items = items.map valueText := by
    induction items with
    | nil => rfl
    | cons item items ih => rw [itemTexts, ih, List.map_cons]
  rw [valueText, each]
  rfl

theorem readValue_list_of_items {inside rest : List Char} (starts : StartsValue inside) {fuel : Nat}
    {items : List Value} (read : readItems fuel inside = .ok (items, rest)) :
    readValue (fuel + 1) ('[' :: inside) = .ok (.list items, rest) := by
  obtain ⟨first, tail, rfl, visible, notClosing⟩ := starts
  simp only [readValue, skipSpace_cons visible]
  split
  · next after same => exact absurd (List.cons.inj same).1 notClosing.1
  · rw [read]
    rfl

theorem readsAs_list {items : List Value}
    (each : ∀ item ∈ items, ReadsAs (valueText item) item.sorted) :
    ReadsAs (valueText (.list items)) (Value.list items).sorted where
  starts := ⟨'[', _, valueText_list items, by decide, by decide, by decide⟩
  read := by
    intro fuel rest enough
    rw [valueText_list] at enough ⊢
    rw [Value.sorted_list]
    simp only [List.length_cons, List.length_append, List.length_nil] at enough
    obtain ⟨fuel, rfl⟩ : ∃ less, fuel = less + 1 := ⟨fuel - 1, by omega⟩
    rw [List.cons_append, List.append_assoc, List.singleton_append]
    cases items with
    | nil =>
        have closes : skipSpace (']' :: rest) = ']' :: rest := skipSpace_cons (by decide) rest
        simp [commaJoined, readValue, closes]
    | cons item items =>
        have read := readItems_commaJoined (by simp) each fuel rest (by omega)
        apply readValue_list_of_items _ read
        exact ((each item (by simp)).starts.commaJoined _).append _

/-! ### Records -/

/-- A field as it is written. -/
def fieldText (field : String × Value) : List Char :=
  stringText field.1 ++ ':' :: ' ' :: valueText field.2

theorem startsValue_fieldText (field : String × Value) : StartsValue (fieldText field) :=
  (startsValue_stringText field.1).append _

section Field

variable {field : String × Value} (reads : ReadsAs (valueText field.2) field.2.sorted) {fuel : Nat}
  (enough : (fieldText field).length ≤ fuel)

include reads enough

theorem readValue_fieldText (after : List Char) :
    readValue fuel (skipSpace (' ' :: (valueText field.2 ++ after))) =
      .ok (field.2.sorted, after) := by
  have shorter : (valueText field.2).length ≤ fuel := by
    simp only [fieldText, List.length_append, List.length_cons] at enough
    omega
  rw [(reads.starts.append after).skipSpace_space]
  exact reads.read fuel after shorter

theorem readMembers_last (rest : List Char) :
    readMembers (fuel + 1) (fieldText field ++ '\x7d' :: rest) =
      .ok ([(.string field.1, field.2.sorted)], rest) := by
  have separates : ∀ later, skipSpace (':' :: later) = ':' :: later := skipSpace_cons (by decide)
  have closes : skipSpace ('\x7d' :: rest) = '\x7d' :: rest := skipSpace_cons (by decide) rest
  rw [fieldText, List.append_assoc, stringText_append, readMembers, readString_escaped]
  simp [Fault.require, bind, Except.bind, separates, readValue_fieldText reads enough, closes, pure,
    Except.pure]

theorem readMembers_cons {later rest : List Char} {members : List (Scalar × Value)}
    (starts : StartsValue later) (readLater : readMembers fuel later = .ok (members, rest)) :
    readMembers (fuel + 1) (fieldText field ++ ',' :: ' ' :: later) =
      .ok ((.string field.1, field.2.sorted) :: members, rest) := by
  have separates : ∀ later, skipSpace (':' :: later) = ':' :: later := skipSpace_cons (by decide)
  have goesOn : ∀ later, skipSpace (',' :: later) = ',' :: later := skipSpace_cons (by decide)
  rw [fieldText, List.append_assoc, stringText_append, readMembers, readString_escaped]
  simp [Fault.require, bind, Except.bind, separates, readValue_fieldText reads enough, goesOn,
    starts.skipSpace_space, readLater, pure, Except.pure]

end Field

theorem readMembers_commaJoined {fields : List (String × Value)} (nonempty : fields ≠ [])
    (each : ∀ field ∈ fields, ReadsAs (valueText field.2) field.2.sorted) (fuel : Nat)
    (rest : List Char) (enough : (commaJoined (fields.map fieldText)).length < fuel) :
    readMembers fuel (commaJoined (fields.map fieldText) ++ '\x7d' :: rest) =
      .ok (Entries.ofFields (fields.map fun field => (field.1, field.2.sorted)), rest) := by
  induction fields generalizing fuel with
  | nil => exact absurd rfl nonempty
  | cons field fields ih =>
      obtain ⟨fuel, rfl⟩ : ∃ less, fuel = less + 1 := ⟨fuel - 1, by omega⟩
      have reads := each field (by simp)
      cases fields with
      | nil =>
          simp only [List.map_cons, List.map_nil, commaJoined] at enough ⊢
          exact readMembers_last reads (by omega) rest
      | cons next fields =>
          have later : ∀ other ∈ next :: fields, ReadsAs (valueText other.2) other.2.sorted := by
            intro other member
            exact each other (List.mem_cons_of_mem _ member)
          rw [List.map_cons, List.map_cons, commaJoined_cons_cons, ← List.map_cons] at enough ⊢
          simp only [List.length_append, List.length_cons] at enough
          rw [List.append_assoc, List.cons_append, List.cons_append]
          apply readMembers_cons reads (by omega)
          · exact ((startsValue_fieldText next).commaJoined _).append _
          · exact ih (by simp) later fuel (by omega)

theorem valueText_record (fields : List (String × Value)) :
    valueText (.record fields) =
      '\x7b' :: (commaJoined ((Value.sortedFields fields).map fieldText) ++ ['\x7d']) := by
  let named (field : String × Value) : String × List Char := (field.1, fieldText field)
  have each : entryTexts (Entries.ofFields fields) = fields.map named := by
    induction fields with
    | nil => rfl
    | cons field fields ih =>
        rw [List.map_cons, ← ih]
        simp [Entries.ofFields, entryTexts, named, fieldText, memberName, Scalar.display]
  have order : (Value.sortedFields fields).map named =
      (fields.map named).mergeSort fun first second => first.1 ≤ second.1 :=
    List.map_mergeSort fun _ _ _ _ => rfl
  have texts : ((Value.sortedFields fields).map named).map (·.2) =
      (Value.sortedFields fields).map fieldText := by
    rw [List.map_map]
    rfl
  change valueText (.map (Entries.ofFields fields)) = _
  rw [valueText, each, ← order, texts]
  rfl

theorem readValue_map_of_members {inside rest : List Char} (starts : StartsValue inside)
    {fuel : Nat} {members : List (Scalar × Value)}
    (read : readMembers fuel inside = .ok (members, rest)) :
    readValue (fuel + 1) ('\x7b' :: inside) = .ok (.map (Entries.ofPairs members), rest) := by
  obtain ⟨first, tail, rfl, visible, notClosing⟩ := starts
  simp only [readValue, skipSpace_cons visible]
  split
  · next after same => exact absurd (List.cons.inj same).1 notClosing.2
  · rw [read]
    rfl

theorem readsAs_record {fields : List (String × Value)} (distinct : (fields.map Prod.fst).Nodup)
    (each : ∀ field ∈ fields, ReadsAs (valueText field.2) field.2.sorted) :
    ReadsAs (valueText (.record fields)) (Value.record fields).sorted where
  starts := ⟨'\x7b', _, valueText_record fields, by decide, by decide, by decide⟩
  read := by
    intro fuel rest enough
    have perm := Value.sortedFields_perm fields
    rw [valueText_record] at enough ⊢
    rw [Value.sorted_record]
    generalize Value.sortedFields fields = ordered at enough perm ⊢
    simp only [List.length_cons, List.length_append, List.length_nil] at enough
    obtain ⟨fuel, rfl⟩ : ∃ less, fuel = less + 1 := ⟨fuel - 1, by omega⟩
    rw [List.cons_append, List.append_assoc, List.singleton_append]
    cases ordered with
    | nil =>
        have closes : skipSpace ('\x7d' :: rest) = '\x7d' :: rest := skipSpace_cons (by decide) rest
        simp [commaJoined, readValue, closes, Value.record]
    | cons field ordered =>
        have read := readMembers_commaJoined (by simp)
          (fun other member => each other (perm.subset member)) fuel rest (by omega)
        have starts := ((startsValue_fieldText field).commaJoined (ordered.map fieldText)).append
          ('\x7d' :: rest)
        have names : ((field :: ordered).map fun field => (field.1, field.2.sorted)).map Prod.fst =
            (field :: ordered).map Prod.fst := by
          rw [List.map_map]
          rfl
        have collected := Entries.ofPairs_eq_self (Entries.pairwise_ofFields
          (names ▸ (perm.map Prod.fst).nodup_iff.2 distinct))
        rw [← List.map_cons] at starts
        rw [readValue_map_of_members starts read, collected]
        rfl

/-! ### Documents -/

theorem readsAs_valueText {value : Value} (textual : value.IsTextual) :
    ReadsAs (valueText value) value.sorted := by
  induction textual with
  | text content => exact readsAs_stringText content
  | list _ each => exact readsAs_list each
  | record distinct _ each => exact readsAs_record distinct each

theorem read_text {value : Value} (textual : value.IsTextual) :
    read (text value).toList = .ok value.sorted := by
  have reads := readsAs_valueText textual
  have read := reads.read ((valueText value).length + 1) [] (Nat.le_succ _)
  rw [List.append_nil] at read
  rw [text, String.toList_ofList, Json.read, reads.starts.skipSpace_eq, read]
  rfl

end Json

end ClosureCapture
