import ClosureCapture.Proofs.Value.Entries
import ClosureCapture.Proofs.Yaml.Section

/-!
# Rows and tables are read back

A table is a record with a list of rows under one key and a text under another.  This file proves
that the document written for a row or a table is read back as it: the reader of blocks gives the
nodes it was written for, none of them has properties to resolve, and their values are those of
the row or table.
-/

namespace ClosureCapture

namespace Yaml

variable (handles : Handles)

/-! ### Nodes without properties -/

theorem resolve_scalar (anchors : Anchors) (plain : Bool) (text : List Char) :
    (Node.scalar {} plain text).resolve handles anchors = .ok (.scalar {} plain text, anchors) :=
  rfl

theorem resolveEntries_row (anchors : Anchors) (row : Row) :
    resolveEntries handles anchors row.nodes = .ok (row.nodes, anchors) := by
  induction row with
  | nil => rfl
  | cons field row ih => simp [resolveEntries, textNode, resolve_scalar, ih]

theorem resolve_row (anchors : Anchors) (row : Row) :
    row.node.resolve handles anchors = .ok (row.node, anchors) := by
  rw [Row.node, Node.resolve, resolveEntries_row]
  rfl

theorem resolveItems_rows (anchors : Anchors) (rows : List Row) :
    resolveItems handles anchors (rows.map Row.node) = .ok (rows.map Row.node, anchors) := by
  induction rows with
  | nil => rfl
  | cons row rows ih => simp [resolveItems, resolve_row, ih]

/-! ### Values of nodes -/

theorem form_scalar (plain : Bool) (text : List Char) :
    (Node.scalar {} plain text).form handles =
      .ok (.scalar (if plain then kindOf text else .string)) := by
  simp [Node.form, taggedForm]

theorem readAs_string (plain : Bool) (text : String) :
    (Node.scalar {} plain text.toList).readAs handles .string = .ok (.string text) := by
  simp [Node.readAs, Node.scalarText, Kind.read]

theorem value_textNode (text : String) :
    (textNode text.toList).value handles = .ok (.string text) := by
  have kind : (if isPlainText text.toList then kindOf text.toList else Kind.string) =
      .string := by
    split
    · next plain =>
        simp only [isPlainText, Bool.and_eq_true, decide_eq_true_eq] at plain
        exact plain.1.1
    · rfl
  simp [textNode, Node.value, form_scalar, kind, readAs_string, Defect.here]

section Entry

variable {name : String} (key : IsKey name.toList)

include key

theorem canMerge_cons (node : Node) (nodes : List (Node × Node)) :
    canMerge handles ((.scalar {} true name.toList, node) :: nodes) = canMerge handles nodes := by
  simp [canMerge, form_scalar, key.kind]

theorem entryValues_cons {node : Node} {value : Value} (read : node.value handles = .ok value)
    {nodes : List (Node × Node)} {entries : Entries}
    (readRest : entryValues handles nodes = (.ok [], .ok entries)) :
    entryValues handles ((.scalar {} true name.toList, node) :: nodes) =
      (.ok [], .ok ((.string name, value) :: entries)) := by
  simp [entryValues, readRest, form_scalar, key.kind, read, Node.key, readAs_string, Defect.here,
    Defect.together, Defect.cons, Except.map]

end Entry

theorem canMerge_row {row : Row} (keys : row.HasKeys) : canMerge handles row.nodes = true := by
  induction row with
  | nil => simp [canMerge]
  | cons field row ih =>
      rw [Row.nodes_cons, canMerge_cons handles keys.head]
      exact ih keys.tail

theorem entryValues_row {row : Row} (keys : row.HasKeys) :
    entryValues handles row.nodes = (.ok [], .ok row.entries) := by
  induction row with
  | nil => simp [entryValues]
  | cons field row ih =>
      have readText := value_textNode handles field.2
      exact entryValues_cons handles keys.head readText (ih keys.tail)

/-- The value of a mapping that takes over no entries and whose keys are different. -/
theorem value_mapping {nodes : List (Node × Node)} {entries : Entries}
    (merges : canMerge handles nodes = true)
    (read : entryValues handles nodes = (.ok [], .ok entries))
    (distinct : entries.Pairwise fun first second => first.1.same second.1 = false) :
    (Node.mapping {} nodes).value handles = .ok (.map entries) := by
  have whole : Entries.ofPairs entries = entries := Entries.ofPairs_eq_self distinct
  simp [Node.value, Node.form, taggedForm, merges, read, whole, Defect.here, Defect.below,
    Defect.append, Defect.together, Except.map]

theorem Row.IsRecord.pairwise {row : Row} (record : row.IsRecord) :
    row.entries.Pairwise fun first second => first.1.same second.1 = false := by
  have distinct := record.distinct
  rw [List.Nodup, List.pairwise_map] at distinct
  rw [Row.entries, List.pairwise_map]
  refine distinct.imp ?_
  intro first second different
  rw [Scalar.same_string]
  exact decide_eq_false different

theorem value_row {row : Row} (record : row.IsRecord) :
    row.node.value handles = .ok row.value :=
  value_mapping handles (canMerge_row handles record.keys) (entryValues_row handles record.keys)
    record.pairwise

theorem value_rows {rows : List Row} (records : ∀ row ∈ rows, row.IsRecord) :
    (Node.sequence {} (rows.map Row.node)).value handles =
      .ok (.list (rows.map Row.value)) := by
  have read : itemValues handles (rows.map Row.node) = .ok (rows.map Row.value) := by
    induction rows with
    | nil => simp [itemValues]
    | cons row rows ih =>
        have readRest := ih fun row member => records row (List.mem_cons_of_mem _ member)
        have readRow := value_row handles (records row (by simp))
        simp [itemValues, readRow, readRest, Defect.cons, Defect.together, Except.map]
  simp [Node.value, Node.form, taggedForm, read, Defect.here, Defect.below]

/-! ### Steps that suffice -/

theorem length_le_entriesText (column : Nat) (row : Row) :
    row.length ≤ (entriesText column row.entries).length := by
  induction row with
  | nil => simp
  | cons field row ih =>
      rw [Row.entries_cons, entriesText_cons]
      cases row with
      | nil =>
          simp only [List.length_append, List.length_cons, List.length_nil]
          omega
      | cons next row =>
          simp only [List.length_append, List.length_cons, Row.entries_cons, List.isEmpty_cons,
            Bool.false_eq_true, if_false] at ih ⊢
          omega

theorem length_le_itemsText (column : Nat) (items : List Value) :
    items.length ≤ (itemsText column items).length := by
  induction items with
  | nil => simp
  | cons item items ih =>
      rw [itemsText_cons]
      cases items with
      | nil =>
          simp only [List.length_append, List.length_cons, List.length_nil]
          omega
      | cons next items =>
          simp only [List.length_append, List.length_cons, List.isEmpty_cons,
            Bool.false_eq_true, if_false] at ih ⊢
          omega

theorem itemText_length_le (column : Nat) {item : Value} {items : List Value}
    (member : item ∈ items) :
    (itemText (column + 2) item).length ≤ (itemsText column items).length := by
  induction items with
  | nil => simp at member
  | cons first items ih =>
      rw [itemsText_cons]
      rcases List.mem_cons.1 member with rfl | later
      · simp only [List.length_append, List.length_cons]
        omega
      · have something : items.isEmpty = false := by
          cases items with
          | nil => simp at later
          | cons next items => rfl
        have rest := ih later
        simp only [List.length_append, List.length_cons, something, Bool.false_eq_true, if_false]
        omega

/-! ### Mappings as documents -/

section Mapping

variable {name : String} {value : Value} {others : Entries} {nodes : List (Node × Node)}
  {text : List Char} {reached : Nat} (key : IsKey name.toList)
  (written : text = entriesText 0 ((.string name, value) :: others))

include key written

theorem startsNode_mapping : StartsNode text := by
  have starts := startsNode_entriesText key 0 value others []
  rwa [List.append_nil, ← written] at starts

/-- The reader of blocks gives the nodes that the entries are written for. -/
theorem readWhole_mapping
    (readEntries : readBlockEntries 0 (4 * text.length + 7) ⟨text, 0⟩ =
      .ok (nodes, ⟨['\n'], reached⟩)) :
    readWhole ⟨text, 0⟩ = .ok (.mapping {} nodes) := by
  have starts := startsNode_mapping key written
  obtain ⟨found, tried⟩ :=
    exists_readKey?_entriesText key 0 value others [] (4 * text.length + 6) 0
  rw [List.append_nil, ← written] at tried
  have read := readNode_mapping (starts.skip 0) starts (show (false || true) = true from rfl)
    (Nat.le_refl 0) tried readEntries false
  have fuel : readingFuel text = 4 * text.length + 7 + 1 := rfl
  simp [readWhole, fuel, read, Cursor.next, Cursor.skip_newline, Cursor.skipFrom]

theorem readDocument_mapping (tidy : Tidy true text)
    (readEntries : readBlockEntries 0 (4 * text.length + 7) ⟨text, 0⟩ =
      .ok (nodes, ⟨['\n'], reached⟩)) :
    readDocument text = .ok (some (standardHandles, .mapping {} nodes)) := by
  have starts := startsNode_mapping key written
  have notDirective : text.head? ≠ some '%' := by
    obtain ⟨first, rest, spelled, lower⟩ := key.exists_cons
    rw [written, entriesText_cons, spelled, List.cons_append, List.head?_cons]
    intro same
    rw [Option.some.inj same] at lower
    exact absurd lower (by decide)
  have place : (Cursor.mk text 0).next = ⟨text, 0⟩ := by
    rw [Cursor.next, starts.skip]
  have whole := readWhole_mapping key written readEntries
  simp [readDocument, tidy.takeSection_eq, place, starts.isEmpty, notDirective, whole, endsText]

/-- The document of a mapping is read as the value of the nodes that it is written for. -/
theorem read_mapping (tidy : Tidy true text)
    (readEntries : readBlockEntries 0 (4 * text.length + 7) ⟨text, 0⟩ =
      .ok (nodes, ⟨['\n'], reached⟩))
    (resolved : (Node.mapping {} nodes).resolve standardHandles [] = .ok (.mapping {} nodes, []))
    {result : Value} (valued : (Node.mapping {} nodes).value standardHandles = .ok result) :
    read text = .ok result := by
  have prepared : dropOrderMark (unifyBreaks text) = text := by
    rw [tidy.unifyBreaks_eq, tidy.dropOrderMark_eq]
  simp only [read, tidy.all_isReadable, prepared, readDocument_mapping key written tidy readEntries,
    ok_bind, resolved, valued, if_true]
  rfl

end Mapping

theorem tidy_row {row : Row} (record : row.IsRecord) : Tidy true (itemText 0 row.value) := by
  have tidy := Row.tidy record.keys .nil record.nonempty 0 true
  rwa [List.append_nil, ← itemText_row record.nonempty] at tidy

/-- The document of a row is read back as the row. -/
theorem read_row {row : Row} (record : row.IsRecord) :
    read (itemText 0 row.value) = .ok row.value := by
  have tidy := tidy_row record
  have bound := length_le_entriesText 0 row
  have enough : row.length + 3 ≤ 4 * (entriesText 0 row.entries).length + 7 := by omega
  obtain ⟨reached, readEntries⟩ := readBlockEntries_row (show 0 + 2 < lineWidth by decide)
    record.nonempty record.keys (.inl rfl) enough
  rw [List.append_nil] at readEntries
  rw [itemText_row record.nonempty] at tidy ⊢
  obtain ⟨field, others, rfl⟩ := List.exists_cons_of_ne_nil record.nonempty
  have written := congrArg (entriesText 0) (Row.entries_cons field others)
  exact read_mapping record.keys.head written tidy readEntries
    (resolve_row standardHandles [] _) (value_row standardHandles record)

/-! ### Tables -/

/-- A record with a list of rows under one key and a text under another. -/
structure Table where
  listKey : String
  textKey : String
  rows : List Row
  text : String
  listKey_isKey : IsKey listKey.toList
  textKey_isKey : IsKey textKey.toList
  keys_distinct : listKey ≠ textKey
  records : ∀ row ∈ rows, row.IsRecord

namespace Table

variable (table : Table)

/-- The entries that a table is stored as. -/
def entries : Entries :=
  [(.string table.listKey, .list (table.rows.map Row.value)),
    (.string table.textKey, .string table.text)]

/-- The nodes that a table is written for. -/
def nodes : List (Node × Node) :=
  [(.scalar {} true table.listKey.toList, .sequence {} (table.rows.map Row.node)),
    (.scalar {} true table.textKey.toList, textNode table.text.toList)]

/-- The text after the list of a table, which is a row of its own. -/
def footer : Row :=
  [(table.textKey, table.text)]

theorem footer_hasKeys : table.footer.HasKeys := by
  intro field member
  rw [footer, List.mem_singleton] at member
  rw [member]
  exact table.textKey_isKey

/-- The document of a table. -/
def document : List Char :=
  itemText 0 (.map table.entries)

theorem document_eq_entriesText : table.document = entriesText 0 table.entries := by
  simp [document, entries, itemText]

theorem document_eq :
    table.document = table.listKey.toList ++ ':' ::
      (entryText 0 (table.listKey.toList.length + 1) (.list (table.rows.map Row.value)) ++
        entriesText 0 table.footer.entries) := by
  rw [document_eq_entriesText, entries, entriesText_cons]
  simp [footer, spaces]

theorem tidy_document : Tidy true table.document := by
  have ending : entriesText 0 table.footer.entries =
      entriesText 0 table.footer.entries ++ [] := by simp
  rw [document_eq, ending]
  exact table.listKey_isKey.tidy (.visible (by decide) (by simp) (tidy_rows table.records
    (Row.tidy table.footer_hasKeys .nil (by simp [footer]) 0 true) _ _)) true

theorem length_itemsText_le (nonempty : table.rows ≠ []) :
    (itemsText 0 (table.rows.map Row.value)).length ≤ table.document.length := by
  have items : table.rows.map Row.value ≠ [] := by simpa using nonempty
  rw [document_eq, entryText_list items]
  simp only [List.length_append, List.length_cons]
  omega

theorem rows_length_le : table.rows.length ≤ table.document.length := by
  by_cases empty : table.rows = []
  · simp [empty]
  · have items := length_le_itemsText 0 (table.rows.map Row.value)
    rw [List.length_map] at items
    exact Nat.le_trans items (table.length_itemsText_le empty)

theorem row_length_le {row : Row} (member : row ∈ table.rows) :
    row.length ≤ table.document.length := by
  have fields : row.length ≤ (itemText (0 + 2) row.value).length := by
    rw [itemText_row (table.records row member).nonempty]
    exact length_le_entriesText (0 + 2) row
  have item := itemText_length_le 0 (List.mem_map_of_mem (f := Row.value) member)
  have whole := table.length_itemsText_le (List.ne_nil_of_mem member)
  omega

theorem readBlockEntries_document :
    ∃ reached, readBlockEntries 0 (4 * table.document.length + 7) ⟨table.document, 0⟩ =
      .ok (table.nodes, ⟨['\n'], reached⟩) := by
  have rowsBound := table.rows_length_le
  have enoughRows : table.rows.length + table.document.length + 4 ≤
      4 * table.document.length + 4 := by omega
  have enoughText : table.footer.length + 3 ≤ 4 * table.document.length + 6 := by
    have single : table.footer.length = 1 := rfl
    omega
  have footerStarts : StartsNode (entriesText 0 table.footer.entries ++ []) :=
    Row.startsNode (by simp [footer]) table.footer_hasKeys 0 []
  obtain ⟨place, readList⟩ := readNode_rows (show 0 + 4 < lineWidth by decide) table.records
    (fun row member => table.row_length_le member) footerStarts enoughRows
    (table.listKey.toList.length + 1) (0 + table.listKey.toList.length)
  obtain ⟨reached, readText⟩ := readBlockEntries_row (show 0 + 2 < lineWidth by decide)
    (by simp [footer]) table.footer_hasKeys (.inl rfl) enoughText
  have readEntry := readBlockEntry_of_isKey table.listKey_isKey
    (startsWithGap_entryText _ _ _ _) readList
  have readEntries := readBlockEntries_cons readEntry footerStarts readText
  exact ⟨reached, by simpa [spaces, nodes, footer, document_eq] using readEntries⟩

theorem resolve_nodes (anchors : Anchors) :
    (Node.mapping {} table.nodes).resolve handles anchors =
      .ok (.mapping {} table.nodes, anchors) := by
  simp [nodes, Node.resolve, resolveEntries, resolveItems_rows, textNode,
    Properties.checkHandle, Anchors.add]

theorem value_nodes :
    (Node.mapping {} table.nodes).value handles = .ok (.map table.entries) := by
  have readList := value_rows handles table.records
  have readText := entryValues_row handles table.footer_hasKeys
  have merges := canMerge_row handles table.footer_hasKeys
  refine value_mapping handles ?_ ?_ ?_
  · rw [nodes, canMerge_cons handles table.listKey_isKey]
    exact merges
  · exact entryValues_cons handles table.listKey_isKey readList readText
  · have different := table.keys_distinct
    simp [entries, Scalar.same_string, different]

/-- The document of a table is read back as the table. -/
theorem read_document : read table.document = .ok (.map table.entries) := by
  obtain ⟨reached, readEntries⟩ := table.readBlockEntries_document
  exact read_mapping table.listKey_isKey table.document_eq_entriesText table.tidy_document
    readEntries (table.resolve_nodes standardHandles []) (table.value_nodes standardHandles)

end Table

end Yaml

end ClosureCapture
