import ClosureCapture.Proofs.Json.Document
import ClosureCapture.Proofs.Yaml.Document
import ClosureCapture.Storage

/-!
# Stored lists are restored

A capture list is stored as the document of its record.  The record is a table: the clauses are
its rows, with one field more where a method is called, and the body is its text.  Hence a YAML
document is read back as the record, and the record as the list.  Only the places of its parts
are lost, because they are not stored.

A JSON document gives the fields back in another order.  The list does not depend on that order,
because the names of the fields are different and every field is looked up by its name.
-/

namespace ClosureCapture

/-! ### Clauses as rows -/

namespace Clause

/-- The fields of a clause. -/
def row (clause : Clause String) : Yaml.Row :=
  ("mode", clause.mode.label) :: (clause.mode.method?.toList.map fun name => ("method", name)) ++
    [("identifier", clause.identifier)]

theorem toValue_map_string (clause : Clause String) :
    (clause.map .string).toValue = clause.row.value := by
  obtain ⟨mode, identifier, offset⟩ := clause
  cases mode with
  | move => rfl
  | ref => rfl
  | refMut => rfl
  | method name => rfl

theorem ofValue_row (clause : Clause String) :
    ofValue clause.row.value = .ok (clause.unplaced.map .string) := by
  obtain ⟨mode, identifier, offset⟩ := clause
  cases mode with
  | move => rfl
  | ref => rfl
  | refMut => rfl
  | method name => rfl

/-- The names of the fields, whichever of them a clause has. -/
theorem row_names_sublist (clause : Clause String) :
    (clause.row.map Prod.fst).Sublist ["mode", "method", "identifier"] := by
  obtain ⟨mode, identifier, offset⟩ := clause
  cases mode with
  | move => exact .cons_cons _ (.cons _ (.refl _))
  | ref => exact .cons_cons _ (.cons _ (.refl _))
  | refMut => exact .cons_cons _ (.cons _ (.refl _))
  | method name => exact .refl _

theorem row_isRecord (clause : Clause String) : clause.row.IsRecord where
  nonempty := by simp [row]
  keys := by
    intro field member
    have named := clause.row_names_sublist.subset (List.mem_map_of_mem (f := Prod.fst) member)
    simp only [List.mem_cons, List.not_mem_nil, or_false] at named
    rcases named with name | name | name
    · rw [name]
      exact ⟨by decide, by decide, by decide, by decide⟩
    · rw [name]
      exact ⟨by decide, by decide, by decide, by decide⟩
    · rw [name]
      exact ⟨by decide, by decide, by decide, by decide⟩
  distinct := clause.row_names_sublist.nodup (by decide)

end Clause

/-! ### Lists as tables -/

namespace CaptureList

/-- A list as a table of its clauses and its body. -/
def table (list : CaptureList String) : Yaml.Table where
  listKey := "clauses"
  textKey := "body"
  rows := list.clauses.map (·.row)
  text := list.body
  listKey_isKey := ⟨by decide, by decide, by decide, by decide⟩
  textKey_isKey := ⟨by decide, by decide, by decide, by decide⟩
  keys_distinct := by decide
  records := by
    intro row member
    obtain ⟨clause, -, rfl⟩ := List.mem_map.1 member
    exact clause.row_isRecord

theorem record_eq_table (list : CaptureList String) : list.record = .map list.table.entries := by
  have clauses : (list.clauses.map (·.map Value.string)).map (·.toValue) =
      (list.clauses.map (·.row)).map Yaml.Row.value := by
    rw [List.map_map, List.map_map]
    exact List.map_congr_left fun clause _ => clause.toValue_map_string
  simp only [record, toValue, map, clauses]
  rfl

theorem mapM_ofValue {form : Clause String → Value}
    (reads : ∀ clause, Clause.ofValue (form clause) = .ok (clause.unplaced.map .string))
    (clauses : List (Clause String)) :
    (clauses.map form).mapM Clause.ofValue =
      .ok (clauses.map fun clause => clause.unplaced.map .string) := by
  induction clauses with
  | nil => rfl
  | cons clause clauses ih =>
      simp only [List.map_cons, List.mapM_cons, reads, ih]
      rfl

/-- A list is read from any entries that hold its body and its clauses in a form that each clause is
read from. -/
theorem ofValue_of_entries (list : CaptureList String) {entries : Entries}
    {form : Clause String → Value}
    (listed : entries.field? "clauses" = some (.list (list.clauses.map form)))
    (ended : entries.field? "body" = some (.string list.body))
    (reads : ∀ clause, Clause.ofValue (form clause) = .ok (clause.unplaced.map .string)) :
    ofValue (.map entries) = .ok (list.unplaced.map .string) := by
  have unplaced : list.unplaced.map Value.string =
      ⟨list.clauses.map fun clause => clause.unplaced.map .string, .string list.body, none⟩ := by
    simp [CaptureList.unplaced, CaptureList.map]
  rw [unplaced]
  simp only [ofValue, RecordFault.entriesOf, RecordFault.itemsOf, RecordFault.require, listed,
    ended, Option.getD_some, mapM_ofValue reads, Yaml.ok_bind, Yaml.pure_eq_ok]

/-- The record of a list is read back as the list without its places. -/
theorem ofValue_record (list : CaptureList String) :
    ofValue list.record = .ok (list.unplaced.map .string) := by
  have listed : list.table.entries.field? "clauses" =
      some (.list (list.clauses.map fun clause => clause.row.value)) :=
    congrArg (some <| Value.list ·) List.map_map
  rw [record_eq_table]
  exact list.ofValue_of_entries listed rfl Clause.ofValue_row

/-- A list that is written as a document and read back is the same list, the places of its parts
apart, whatever texts its names and its body are. -/
theorem ofYaml_toYaml (list : CaptureList String) :
    ofYaml list.toYaml.toList = .ok (list.unplaced.map .string) := by
  have read : Yaml.read list.toYaml.toList = .ok list.record := by
    rw [toYaml, Yaml.text, String.toList_ofList, record_eq_table]
    exact list.table.read_document
  rw [ofYaml, read]
  simp only [ofRecord, ofValue_record]
  rfl

end CaptureList

/-! ### Fields in any order -/

namespace Clause

/-- The fields of a clause as values. -/
def fields (clause : Clause String) : List (String × Value) :=
  clause.row.map fun (name, text) => (name, .string text)

theorem row_value_eq_record (clause : Clause String) : clause.row.value = .record clause.fields := by
  simp [Yaml.Row.value, Yaml.Row.entries, Value.record, fields]

theorem fields_nodup (clause : Clause String) : (clause.fields.map Prod.fst).Nodup := by
  have names : clause.fields.map Prod.fst = clause.row.map Prod.fst := by
    rw [fields, List.map_map]
    rfl
  rw [names]
  exact clause.row_isRecord.distinct

/-- A clause is read from any entries that hold its fields. -/
theorem ofValue_of_fields (clause : Clause String) {entries : Entries}
    (holds : ∀ name text, (name, text) ∈ clause.row → entries.field? name = some (.string text)) :
    ofValue (.map entries) = .ok (clause.unplaced.map .string) := by
  obtain ⟨mode, identifier, offset⟩ := clause
  have named : entries.field? "mode" = some (.string mode.label) :=
    holds _ _ (by simp [row])
  have captured : entries.field? "identifier" = some (.string identifier) :=
    holds _ _ (by simp [row])
  simp only [ofValue, RecordFault.entriesOf, Yaml.ok_bind, named, Option.getD_some,
    RecordFault.require, captured]
  cases mode with
  | move => rfl
  | ref => rfl
  | refMut => rfl
  | method name =>
      have called : entries.field? "method" = some (.string name) :=
        holds _ _ (by simp [row, Mode.method?])
      simp only [Mode.label, Value.text?, called]
      rfl

theorem ofValue_sorted_fields (clause : Clause String) :
    ofValue (Value.record clause.fields).sorted = .ok (clause.unplaced.map .string) := by
  obtain ⟨entries, same, holds⟩ := Value.exists_sorted_record_eq clause.fields_nodup
  rw [same]
  apply clause.ofValue_of_fields
  intro name text member
  exact holds name (.string text) (List.mem_map.2 ⟨(name, text), member, rfl⟩)

end Clause

namespace CaptureList

/-- The fields of a list. -/
def fields (list : CaptureList String) : List (String × Value) :=
  [("clauses", .list (list.clauses.map fun clause => .record clause.fields)),
    ("body", .string list.body)]

theorem record_eq_fields (list : CaptureList String) : list.record = .record list.fields := by
  have rows : (list.clauses.map (·.row)).map Yaml.Row.value =
      list.clauses.map fun clause => .record clause.fields := by
    rw [List.map_map]
    exact List.map_congr_left fun clause _ => clause.row_value_eq_record
  rw [record_eq_table, fields, ← rows]
  rfl

theorem fields_nodup (list : CaptureList String) : (list.fields.map Prod.fst).Nodup := by
  simp [fields]

theorem record_isTextual (list : CaptureList String) : list.record.IsTextual := by
  rw [record_eq_fields]
  apply Value.IsTextual.record list.fields_nodup
  intro field member
  simp only [fields, List.mem_cons, List.not_mem_nil, or_false] at member
  rcases member with rfl | rfl
  · apply Value.IsTextual.list
    intro item listed
    obtain ⟨clause, -, rfl⟩ := List.mem_map.1 listed
    apply Value.IsTextual.record clause.fields_nodup
    intro entry stored
    obtain ⟨named, -, rfl⟩ := List.mem_map.1 stored
    exact .text named.2
  · exact .text list.body

/-- The sorted record of a list is read back as the list without its places. -/
theorem ofValue_sorted_record (list : CaptureList String) :
    ofValue list.record.sorted = .ok (list.unplaced.map .string) := by
  obtain ⟨entries, same, holds⟩ := Value.exists_sorted_record_eq list.fields_nodup
  have listed : entries.field? "clauses" =
      some (.list (list.clauses.map fun clause => (Value.record clause.fields).sorted)) := by
    rw [holds "clauses" _ (List.mem_cons_self ..), Value.sorted_list, List.map_map]
    rfl
  have ended : entries.field? "body" = some (.string list.body) :=
    holds "body" (.string list.body) (by simp [fields])
  rw [record_eq_fields, same]
  exact list.ofValue_of_entries listed ended Clause.ofValue_sorted_fields

/-- A list that is written as a JSON text and read back is the same list, the places of its parts
apart, whatever texts its names and its body are. -/
theorem ofJson_toJson (list : CaptureList String) :
    ofJson list.toJson.toList = .ok (list.unplaced.map .string) := by
  have read : Json.read list.toJson.toList = .ok list.record.sorted :=
    Json.read_text list.record_isTextual
  rw [ofJson, read]
  simp only [ofRecord, ofValue_sorted_record]
  rfl

end CaptureList

end ClosureCapture
