import ClosureCapture.Proofs.Yaml.Scalar
import ClosureCapture.Yaml.Printer

/-!
# Collections are read back

The entries of a map start in one column, and so do the items of a list.  What is written for the
value of a key stands deeper, so that the reader of blocks finds the end of every entry and item
in the next line.  This file proves that a row, which is a map from names to texts, and a list of
rows are read back as the nodes they are written for.
-/

namespace ClosureCapture.Yaml

/-! ### Steps of the readers -/

@[simp] theorem ok_bind {Error First Second : Type} (result : First)
    (next : First → Except Error Second) : (Except.ok result >>= next) = next result :=
  rfl

@[simp] theorem pure_eq_ok {Error Result : Type} (result : Result) :
    (pure result : Except Error Result) = .ok result :=
  rfl

/-! ### Skipping to the next content -/

theorem Cursor.skipFrom_spaces (fresh : Bool) (column width : Nat) {first : Char}
    (dark : IsDark first) (notSign : first ≠ '#') (rest : List Char) :
    Cursor.skipFrom false fresh column (spaces width ++ first :: rest) =
      (fresh, ⟨first :: rest, column + width⟩) := by
  induction width generalizing column with
  | zero => simp [spaces, Cursor.skipFrom, dark.isBreak, notSign, dark.notBlank]
  | succ width ih =>
      have unfolded : spaces (width + 1) = ' ' :: spaces width := rfl
      have shifted : column + 1 + width = column + (width + 1) := by omega
      simp [unfolded, Cursor.skipFrom, isBreak, ih, shifted]

theorem Cursor.skip_newline (rest : List Char) (column : Nat) :
    (Cursor.mk ('\n' :: rest) column).skip = Cursor.skipFrom false true 0 rest := by
  simp [Cursor.skip, Cursor.skipFrom, isBreak]

theorem Cursor.skip_line (width : Nat) {first : Char} (dark : IsDark first)
    (notSign : first ≠ '#') (rest : List Char) (column : Nat) :
    (Cursor.mk ('\n' :: (spaces width ++ first :: rest)) column).skip =
      (true, ⟨first :: rest, width⟩) := by
  rw [Cursor.skip_newline, Cursor.skipFrom_spaces true 0 width dark notSign, Nat.zero_add]

/-- The lines behind a break start in a column before the given one, or there are none. -/
def Dedents (column : Nat) (tail : List Char) : Prop :=
  tail = [] ∨ ∃ width first rest, tail = spaces width ++ first :: rest ∧ IsDark first ∧
    first ≠ '#' ∧ width < column

namespace Dedents

variable {column : Nat} {tail : List Char}

theorem endsBlock (dedents : Dedents column tail) (positive : 0 < column) :
    EndsBlock column tail := by
  rcases dedents with rfl | ⟨width, first, rest, rfl, dark, -, shallow⟩
  · exact positive
  · rw [EndsBlock, takePlainLines_spaces 0 width dark rest, Nat.zero_add]
    exact shallow

theorem mono (dedents : Dedents column tail) {other : Nat} (le : column ≤ other) :
    Dedents other tail := by
  rcases dedents with rfl | ⟨width, first, rest, rfl, dark, notSign, shallow⟩
  · exact .inl rfl
  · exact .inr ⟨width, first, rest, rfl, dark, notSign, by omega⟩

end Dedents

namespace StartsNode

variable {text : List Char}

theorem exists_cons (starts : StartsNode text) :
    ∃ first rest, text = first :: rest ∧ IsDark first ∧ first ≠ '#' := by
  obtain ⟨first, rest, same, dark, unmarked⟩ := starts.dark
  simp only [List.mem_cons, not_or] at unmarked
  exact ⟨first, rest, same, dark, unmarked.1⟩

theorem skip (starts : StartsNode text) (column : Nat) :
    (Cursor.mk text column).skip = (column == 0, ⟨text, column⟩) := by
  obtain ⟨first, rest, rfl, dark, notSign⟩ := starts.exists_cons
  exact Cursor.skipFrom_spaces (column == 0) column 0 dark notSign rest

theorem skip_space (starts : StartsNode text) (column : Nat) :
    (Cursor.mk (' ' :: text) (column + 1)).skip = (false, ⟨text, column + 2⟩) := by
  obtain ⟨first, rest, rfl, dark, notSign⟩ := starts.exists_cons
  exact Cursor.skipFrom_spaces false (column + 1) 1 dark notSign rest

theorem skip_line (starts : StartsNode text) (column width : Nat) :
    (Cursor.mk ('\n' :: (spaces width ++ text)) column).skip = (true, ⟨text, width⟩) := by
  obtain ⟨first, rest, rfl, dark, notSign⟩ := starts.exists_cons
  exact Cursor.skip_line width dark notSign rest column

theorem dedents (starts : StartsNode text) {width column : Nat} (shallow : width < column) :
    Dedents column (spaces width ++ text) := by
  obtain ⟨first, rest, rfl, dark, notSign⟩ := starts.exists_cons
  exact .inr ⟨width, first, rest, rfl, dark, notSign, shallow⟩

theorem isEmpty (starts : StartsNode text) : text.isEmpty = false := by
  obtain ⟨first, rest, rfl, -⟩ := starts.dark
  rfl

theorem startsBlockScalar (starts : StartsNode text) : startsBlockScalar text = false := by
  obtain ⟨first, rest, rfl, -, unmarked⟩ := starts.dark
  simp only [List.mem_cons, List.not_mem_nil, or_false, not_or] at unmarked
  simp [Yaml.startsBlockScalar, unmarked]

theorem readProperties (starts : StartsNode text) (column : Nat) :
    readProperties false ⟨text, column⟩ = .ok ({}, ⟨text, column⟩) := by
  obtain ⟨first, rest, rfl, -, unmarked⟩ := starts.dark
  simp only [List.mem_cons, List.not_mem_nil, or_false, not_or] at unmarked
  have none : readProperty ⟨first :: rest, column⟩ = .ok none := by
    unfold readProperty
    split
    · next same => exact absurd (List.cons.inj same).1 unmarked.2.1
    · next same => exact absurd (List.cons.inj same).1 unmarked.2.2.1
    · rfl
  rw [Yaml.readProperties, none]
  rfl

end StartsNode

/-! ### Nodes -/

/-- A node behind a key on the same line is what its content is. -/
theorem readNode_content {cursor start : Cursor} (skipped : cursor.skip = (false, start))
    (starts : StartsNode start.rest) {floor fuel : Nat} {key : Option (Node × Cursor)}
    (tried : readKey? fuel start = .ok key) {node : Node} {after : Cursor}
    (read : readContent false floor {} fuel start = .ok (node, after))
    (bare : node.addProperties {} = .ok node) (beside : Bool) :
    readNode floor beside false {} (fuel + 1) cursor = .ok (node, after) := by
  have none := starts.readProperties start.column
  rw [readNode, skipped]
  simp [starts.isEmpty, starts.noItem, starts.noKey, starts.startsBlockScalar, none,
    Properties.isEmpty, tried, read, bare]

/-- A key at the start of a line, deep enough, starts a mapping. -/
theorem readNode_mapping {cursor start : Cursor} {newLine fresh : Bool}
    (skipped : cursor.skip = (newLine, start)) (starts : StartsNode start.rest)
    (begins : (fresh || newLine) = true) {floor : Nat} (deep : floor ≤ start.column) {fuel : Nat}
    {key : Node × Cursor} (tried : readKey? fuel start = .ok (some key))
    {entries : List (Node × Node)} {after : Cursor}
    (read : readBlockEntries start.column fuel start = .ok (entries, after)) (beside : Bool) :
    readNode floor beside fresh {} (fuel + 1) cursor = .ok (.mapping {} entries, after) := by
  have bare := starts.readProperties start.column
  have notShallow : ¬start.column < floor := by omega
  rw [readNode, skipped]
  simp [starts.isEmpty, starts.noItem, starts.noKey, starts.startsBlockScalar, bare,
    Properties.isEmpty, tried, read, notShallow, begins]

/-- A hyphen in the column of a key starts the sequence that is its value. -/
theorem readNode_sequence {cursor start : Cursor} (skipped : cursor.skip = (true, start))
    (item : startsWithIndicator '-' start.rest = true) {fuel : Nat} {items : List Node}
    {after : Cursor} (read : readBlockItems start.column fuel start = .ok (items, after))
    (fresh : Bool) :
    readNode (start.column + 1) true fresh {} (fuel + 1) cursor =
      .ok (.sequence {} items, after) := by
  have something : start.rest.isEmpty = false := by
    cases text : start.rest with
    | nil => simp [text, startsWithIndicator] at item
    | cons first rest => rfl
  rw [readNode, skipped]
  simp [something, item, read]

/-! ### Keys -/

theorem readKey?_of_readContent {text : List Char} (starts : StartsNode text) {column fuel : Nat}
    {node : Node} {after : Cursor}
    (read : readContent false (column + 1) {} fuel ⟨text, column⟩ = .ok (node, after)) :
    readKey? fuel ⟨text, column⟩ =
      .ok ((afterKey? ⟨text, column⟩ after).map fun start => (node, start)) := by
  simp [readKey?, starts.readProperties, read, Properties.isEmpty]

/-- The characters of keys. -/
def isKeyLetter (letter : Char) : Bool :=
  letter.isLower || letter == '_'

/-- A name that is written and read back as a key: a short word in lower case, perhaps with
underscores, that stands for itself. -/
structure IsKey (name : List Char) : Prop where
  nonempty : name ≠ []
  lower : name.all isKeyLetter = true
  short : name.length ≤ keyLimit
  kind : kindOf name = .string

theorem isDark_of_isKeyLetter {letter : Char} (lower : isKeyLetter letter = true) :
    IsDark letter := by
  rw [isKeyLetter, Bool.or_eq_true, beq_iff_eq] at lower
  rcases lower with lower | rfl
  · have bounds : (decide ('a'.val ≤ letter.val) && decide (letter.val ≤ 'z'.val)) = true := lower
    simp only [Bool.and_eq_true, decide_eq_true_eq, UInt32.le_iff_toNat_le] at bounds
    have atLeast : 97 ≤ letter.toNat := bounds.1
    have atMost : letter.toNat ≤ 122 := bounds.2
    refine ⟨isVisible_iff.2 ⟨by omega, by omega⟩, ?_⟩
    rintro rfl
    exact absurd atLeast (by decide)
  · exact ⟨by decide, by decide⟩

theorem barsPlain_of_isKeyLetter {name : List Char} (lower : name.all isKeyLetter = true) :
    barsPlain name = false := by
  induction name with
  | nil => rfl
  | cons letter name ih =>
      rw [List.all_cons, Bool.and_eq_true] at lower
      have dark := isDark_of_isKeyLetter lower.1
      have notColon : letter ≠ ':' := by
        rintro rfl
        exact absurd lower.1 (by decide)
      have plain : isSpecial letter = false := isSpecial_eq_false_iff.2 (.inr dark.visible)
      have notFeed : letter ≠ '\n' := by
        rintro rfl
        exact absurd lower.1 (by decide)
      simp [barsPlain, notFeed, plain, notColon, dark.notBlank, ih lower.2]

theorem foldl_columnAfter_of_isVisible {text : List Char}
    (visible : ∀ part ∈ text, isVisible part = true) (column : Nat) :
    text.foldl Cursor.columnAfter column = column + text.length := by
  induction text generalizing column with
  | nil => rfl
  | cons first text ih =>
      have visibleFirst := visible first (by simp)
      have notMark : first ≠ '\ufeff' := by
        rintro rfl
        exact absurd visibleFirst (by decide)
      have next : Cursor.columnAfter column first = column + 1 := by
        simp [Cursor.columnAfter, isBreak_of_isVisible visibleFirst, notMark]
      rw [List.foldl_cons, next, ih (fun part member => visible part (by simp [member])),
        List.length_cons]
      omega

namespace IsKey

variable {name : List Char}

theorem dark (key : IsKey name) {letter : Char} (member : letter ∈ name) : IsDark letter :=
  isDark_of_isKeyLetter (List.all_eq_true.1 key.lower letter member)

theorem exists_cons (key : IsKey name) :
    ∃ first rest, name = first :: rest ∧ isKeyLetter first = true := by
  obtain ⟨first, rest, rfl⟩ := List.exists_cons_of_ne_nil key.nonempty
  exact ⟨first, rest, rfl, List.all_eq_true.1 key.lower first (by simp)⟩

theorem startsNode (key : IsKey name) (rest : List Char) : StartsNode (name ++ rest) := by
  obtain ⟨first, name, rfl, lower⟩ := key.exists_cons
  refine startsNode_of_unmarked (isDark_of_isKeyLetter lower) ?_ _
  intro member
  simp only [List.mem_cons, List.not_mem_nil, or_false] at member
  rcases member with rfl | rfl | rfl | rfl | rfl | rfl | rfl
  all_goals exact absurd lower (by decide)

theorem readPlain (key : IsKey name) {rest : List Char} (gap : startsWithGap rest = true)
    (floor : Nat) : readPlain false floor (name ++ ':' :: rest) = (name, ':' :: rest) := by
  have stops : takeChunk false (':' :: rest) = ([], ':' :: rest) := by
    simp [takeChunk, endsAtColon, gap]
  have fits : barsPlain (name ++ []) = false := by
    rw [List.append_nil]
    exact barsPlain_of_isKeyLetter key.lower
  refine readPlain_end ?_ ?_
  · exact takeChunk_chunk fits (fun part member => (key.dark member).notBlank) rfl stops
  · simp [takeGap, isBreak]

theorem readContent (key : IsKey name) {rest : List Char} (gap : startsWithGap rest = true)
    (floor fuel column : Nat) :
    readContent false floor {} (fuel + 1) ⟨name ++ ':' :: rest, column⟩ =
      .ok (.scalar {} true name, ⟨':' :: rest, column + name.length⟩) := by
  have read := key.readPlain gap floor
  have place := foldl_columnAfter_of_isVisible (fun part member => (key.dark member).visible)
    column
  have reached := Cursor.advance_append name (':' :: rest) column
  obtain ⟨first, letters, rfl, lower⟩ := key.exists_cons
  have free : first ∉ plainBarriers := by
    intro member
    have none : plainBarriers.all (fun mark => !isKeyLetter mark) = true := by decide
    simpa [lower] using List.all_eq_true.1 none first member
  have starts : startsPlain false (first :: (letters ++ ':' :: rest)) = true := by
    refine startsPlain_of_start (isDark_of_isKeyLetter lower) free ?_
    rintro (rfl | rfl | rfl)
    all_goals exact absurd lower (by decide)
  have content := readContent_plain free starts floor fuel column
  rw [List.cons_append] at read reached ⊢
  rw [content, read, reached, place]

end IsKey

/-- A key is read together with its colon. -/
theorem readKey?_of_isKey {name : List Char} (key : IsKey name) {rest : List Char}
    (gap : startsWithGap rest = true) (fuel column : Nat) :
    readKey? (fuel + 1) ⟨name ++ ':' :: rest, column⟩ =
      .ok (some (.scalar {} true name, ⟨rest, column + name.length + 1⟩)) := by
  have content := key.readContent gap (column + 1) fuel column
  have unbroken : name.any isBreak = false := by
    rw [List.any_eq_false]
    intro letter member
    simp [(key.dark member).isBreak]
  have after : afterKey? ⟨name ++ ':' :: rest, column⟩ ⟨':' :: rest, column + name.length⟩ =
      some ⟨rest, column + name.length + 1⟩ := by
    simp [afterKey?, Cursor.skipSpaces, Cursor.advance, startsWithIndicator, gap, isKeySpan,
      Cursor.textTo, unbroken, key.short, Cursor.columnAfter, isBreak]
  rw [readKey?_of_readContent (key.startsNode (':' :: rest)) content, after]
  rfl

/-! ### Entries -/

/-- The text of a key is read back as the node behind the colon. -/
theorem readNode_textScalar {column : Nat} (narrow : column + 2 < lineWidth) {tail : List Char}
    (dedents : Dedents (column + 1) tail) (fuel place start : Nat) (text : List Char) :
    ∃ reached, readNode (column + 1) true false {} (fuel + 2)
        ⟨' ' :: (textScalar (column + 2) start text ++ '\n' :: tail), place + 1⟩ =
      .ok (textNode text, ⟨'\n' :: tail, reached⟩) := by
  have starts := startsNode_textScalar (column + 2) start text ('\n' :: tail)
  -- The reader looks for a key first, even though none may start here.
  obtain ⟨content, after, attempt, -⟩ :=
    exists_readContent_eq narrow (place + 3) start fuel (place + 2) text tail
  have tried := readKey?_of_readContent starts attempt
  obtain ⟨reached, read⟩ := readContent_textScalar (by omega) narrow
    (dedents.endsBlock (by omega)) start fuel (place + 2) text
  exact ⟨reached, readNode_content (starts.skip_space place) starts tried read rfl true⟩

theorem readBlockEntry_of_isKey {name : List Char} (key : IsKey name) {rest : List Char}
    (gap : startsWithGap rest = true) {column fuel : Nat} {node : Node} {last : Cursor}
    (read : readNode (column + 1) true false {} (fuel + 1) ⟨rest, column + name.length + 1⟩ =
      .ok (node, last)) :
    readBlockEntry column (fuel + 2) ⟨name ++ ':' :: rest, column⟩ =
      .ok ((.scalar {} true name, node), last) := by
  have found := readKey?_of_isKey key gap fuel column
  rw [readBlockEntry]
  simp [(key.startsNode (':' :: rest)).noKey, found, read]

theorem readBlockEntries_last {column fuel reached : Nat} {cursor : Cursor}
    {entry : Node × Node} {tail : List Char}
    (read : readBlockEntry column fuel cursor = .ok (entry, ⟨'\n' :: tail, reached⟩))
    (dedents : Dedents column tail) :
    readBlockEntries column (fuel + 1) cursor = .ok ([entry], ⟨'\n' :: tail, reached⟩) := by
  rw [readBlockEntries]
  rcases dedents with rfl | ⟨width, first, rest, rfl, dark, notSign, shallow⟩
  · simp [read, Cursor.skip_newline, Cursor.skipFrom]
  · have skipped := Cursor.skip_line width dark notSign rest reached
    simp [read, skipped, shallow]

theorem readBlockEntries_cons {column fuel reached : Nat} {cursor last : Cursor}
    {entry : Node × Node} {entries : List (Node × Node)} {text : List Char}
    (read : readBlockEntry column fuel cursor =
      .ok (entry, ⟨'\n' :: (spaces column ++ text), reached⟩))
    (starts : StartsNode text)
    (readRest : readBlockEntries column fuel ⟨text, column⟩ = .ok (entries, last)) :
    readBlockEntries column (fuel + 1) cursor = .ok (entry :: entries, last) := by
  have something : text ≠ [] := by simpa using starts.isEmpty
  rw [readBlockEntries]
  simp [read, starts.skip_line, something, readRest]

/-! ### Rows -/

/-- A map from names to texts. -/
abbrev Row := List (String × String)

namespace Row

/-- The entries that a row is stored as. -/
def entries (row : Row) : Entries :=
  row.map fun (name, text) => (.string name, .string text)

/-- The nodes that a row is written for. -/
def nodes (row : Row) : List (Node × Node) :=
  row.map fun (name, text) => (.scalar {} true name.toList, textNode text.toList)

@[simp] theorem entries_cons (field : String × String) (row : Row) :
    entries (field :: row) = (.string field.1, .string field.2) :: row.entries :=
  rfl

@[simp] theorem nodes_cons (field : String × String) (row : Row) :
    nodes (field :: row) = (.scalar {} true field.1.toList, textNode field.2.toList) :: row.nodes :=
  rfl

@[simp] theorem entries_nil : entries [] = [] :=
  rfl

@[simp] theorem nodes_nil : nodes [] = [] :=
  rfl

/-- Every name of the row can be a key. -/
def HasKeys (row : Row) : Prop :=
  ∀ field ∈ row, IsKey field.1.toList

theorem HasKeys.head {field : String × String} {row : Row} (keys : HasKeys (field :: row)) :
    IsKey field.1.toList :=
  keys field (by simp)

theorem HasKeys.tail {field : String × String} {row : Row} (keys : HasKeys (field :: row)) :
    row.HasKeys := by
  intro other member
  exact keys other (List.mem_cons_of_mem _ member)

/-- A row that can be stored: it has fields, and their names are different keys. -/
structure IsRecord (row : Row) : Prop where
  nonempty : row ≠ []
  keys : row.HasKeys
  distinct : (row.map Prod.fst).Nodup

end Row

theorem entriesText_cons (column : Nat) (name : String) (value : Value) (others : Entries) :
    entriesText column ((.string name, value) :: others) =
      name.toList ++ ':' :: (entryText column (column + name.toList.length + 1) value ++
        if others.isEmpty then [] else spaces column ++ entriesText column others) := by
  rw [entriesText]
  split
  · simp [Scalar.display]
  · simp [Scalar.display]

theorem startsWithGap_entryText (indent column : Nat) (value : Value) (tail : List Char) :
    startsWithGap (entryText indent column value ++ tail) = true := by
  cases value with
  | scalar value => rfl
  | list items =>
      cases items with
      | nil => rfl
      | cons item items => rfl
  | map entries =>
      cases entries with
      | nil => rfl
      | cons entry entries => rfl
  | other object => rfl

theorem startsNode_entriesText {name : String} (key : IsKey name.toList) (column : Nat)
    (value : Value) (others : Entries) (tail : List Char) :
    StartsNode (entriesText column ((.string name, value) :: others) ++ tail) := by
  rw [entriesText_cons, List.append_assoc]
  exact key.startsNode _

theorem exists_readKey?_entriesText {name : String} (key : IsKey name.toList) (column : Nat)
    (value : Value) (others : Entries) (tail : List Char) (fuel place : Nat) :
    ∃ found, readKey? (fuel + 1)
        ⟨entriesText column ((.string name, value) :: others) ++ tail, place⟩ =
      .ok (some found) := by
  rw [entriesText_cons, List.append_assoc, List.cons_append, List.append_assoc]
  exact ⟨_, readKey?_of_isKey key (startsWithGap_entryText _ _ _ _) fuel place⟩

theorem entryText_text (indent column : Nat) (text : String) :
    entryText indent column (.string text) =
      ' ' :: (textScalar (indent + 2) (column + 1) text.toList ++ ['\n']) := by
  simp [entryText, scalarText]

/-- An entry of a row is read back up to the end of its last line. -/
theorem readBlockEntry_text {column : Nat} (narrow : column + 2 < lineWidth) {name : String}
    (key : IsKey name.toList) {tail : List Char} (dedents : Dedents (column + 1) tail)
    (fuel : Nat) (text : String) :
    ∃ reached, readBlockEntry column (fuel + 3) ⟨name.toList ++ ':' ::
        (entryText column (column + name.toList.length + 1) (.string text) ++ tail), column⟩ =
      .ok ((.scalar {} true name.toList, textNode text.toList), ⟨'\n' :: tail, reached⟩) := by
  obtain ⟨reached, read⟩ := readNode_textScalar narrow dedents fuel
    (column + name.toList.length) (column + name.toList.length + 1 + 1) text.toList
  have gap : startsWithGap (' ' :: (textScalar (column + 2)
      (column + name.toList.length + 1 + 1) text.toList ++ '\n' :: tail)) = true := rfl
  have written : entryText column (column + name.toList.length + 1) (.string text) ++ tail =
      ' ' :: (textScalar (column + 2) (column + name.toList.length + 1 + 1) text.toList ++
        '\n' :: tail) := by
    simp [entryText_text]
  rw [written]
  exact ⟨reached, readBlockEntry_of_isKey key gap read⟩

theorem Row.startsNode {row : Row} (nonempty : row ≠ []) (keys : row.HasKeys) (column : Nat)
    (tail : List Char) : StartsNode (entriesText column row.entries ++ tail) := by
  cases row with
  | nil => exact absurd rfl nonempty
  | cons field row => exact startsNode_entriesText keys.head column _ _ tail

/-- A row is read back up to the end of its last line. -/
theorem readBlockEntries_row {column : Nat} (narrow : column + 2 < lineWidth) {row : Row}
    (nonempty : row ≠ []) (keys : row.HasKeys) {tail : List Char} (dedents : Dedents column tail)
    {fuel : Nat} (enough : row.length + 3 ≤ fuel) :
    ∃ reached, readBlockEntries column fuel ⟨entriesText column row.entries ++ tail, column⟩ =
      .ok (row.nodes, ⟨'\n' :: tail, reached⟩) := by
  induction row generalizing fuel with
  | nil => exact absurd rfl nonempty
  | cons field row ih =>
      obtain ⟨name, text⟩ := field
      have key : IsKey name.toList := keys.head
      rw [List.length_cons] at enough
      obtain ⟨fuel, rfl⟩ : ∃ less, fuel = less + 4 := ⟨fuel - 4, by omega⟩
      rw [Row.entries_cons, entriesText_cons]
      cases row with
      | nil =>
          obtain ⟨reached, read⟩ :=
            readBlockEntry_text narrow key (dedents.mono (by omega)) fuel text
          have whole := readBlockEntries_last read dedents
          exact ⟨reached, by simpa using whole⟩
      | cons next row =>
          have enoughRest : (next :: row).length + 3 ≤ fuel + 3 := by omega
          have starts := Row.startsNode (by simp) keys.tail column tail
          obtain ⟨reached, readRest⟩ := ih (by simp) keys.tail enoughRest
          obtain ⟨place, read⟩ := readBlockEntry_text narrow key
            (starts.dedents (Nat.lt_succ_self column)) fuel text
          have whole := readBlockEntries_cons read starts readRest
          exact ⟨reached, by simpa using whole⟩

/-! ### Lists of rows -/

theorem itemsText_cons (column : Nat) (item : Value) (items : List Value) :
    itemsText column (item :: items) =
      '-' :: ' ' :: (itemText (column + 2) item ++
        if items.isEmpty then [] else spaces column ++ itemsText column items) := by
  rw [itemsText]
  split
  · simp
  · simp

theorem entryText_list {items : List Value} (nonempty : items ≠ []) (indent column : Nat) :
    entryText indent column (.list items) =
      '\n' :: (spaces indent ++ itemsText indent items) := by
  cases items with
  | nil => exact absurd rfl nonempty
  | cons item items => simp [entryText]

theorem isDark_hyphen : IsDark '-' :=
  ⟨by decide, by decide⟩

theorem readBlockItems_last {column fuel reached place : Nat} {rest : List Char} {item : Node}
    {tail : List Char}
    (read : readNode (column + 1) false true {} fuel ⟨rest, column + 1⟩ =
      .ok (item, ⟨'\n' :: (spaces place ++ tail), reached⟩))
    (starts : StartsNode tail) :
    readBlockItems column (fuel + 1) ⟨'-' :: rest, column⟩ =
      .ok ([item], ⟨'\n' :: (spaces place ++ tail), reached⟩) := by
  have behind : (Cursor.mk ('-' :: rest) column).advance rest = ⟨rest, column + 1⟩ :=
    Cursor.advance_append ['-'] rest column
  rw [readBlockItems]
  simp [behind, read, starts.skip_line, starts.noItem]

theorem readBlockItems_cons {column fuel reached : Nat} {rest text : List Char} {item : Node}
    {items : List Node} {last : Cursor}
    (read : readNode (column + 1) false true {} fuel ⟨rest, column + 1⟩ =
      .ok (item, ⟨'\n' :: (spaces column ++ '-' :: ' ' :: text), reached⟩))
    (readRest : readBlockItems column fuel ⟨'-' :: ' ' :: text, column⟩ = .ok (items, last)) :
    readBlockItems column (fuel + 1) ⟨'-' :: rest, column⟩ = .ok (item :: items, last) := by
  have behind : (Cursor.mk ('-' :: rest) column).advance rest = ⟨rest, column + 1⟩ :=
    Cursor.advance_append ['-'] rest column
  have skipped := Cursor.skip_line column isDark_hyphen (by decide) (' ' :: text) reached
  rw [readBlockItems]
  simp [behind, read, skipped, startsWithIndicator, startsWithGap, isWhite, readRest]

/-- The value that a row is stored as. -/
def Row.value (row : Row) : Value :=
  .map row.entries

/-- The node that a row is written for. -/
def Row.node (row : Row) : Node :=
  .mapping {} row.nodes

theorem itemText_row {row : Row} (nonempty : row ≠ []) (column : Nat) :
    itemText column row.value = entriesText column row.entries := by
  cases row with
  | nil => exact absurd rfl nonempty
  | cons field row => simp [Row.value, itemText]

/-- A row behind a hyphen is read back up to the end of its last line. -/
theorem readNode_row {column : Nat} (narrow : column + 4 < lineWidth) {row : Row}
    (record : row.IsRecord) {tail : List Char} (dedents : Dedents (column + 2) tail)
    {fuel : Nat} (enough : row.length + 3 ≤ fuel) :
    ∃ reached, readNode (column + 1) false true {} (fuel + 1)
        ⟨' ' :: (itemText (column + 2) row.value ++ tail), column + 1⟩ =
      .ok (row.node, ⟨'\n' :: tail, reached⟩) := by
  have starts := Row.startsNode record.nonempty record.keys (column + 2) tail
  obtain ⟨reached, read⟩ :=
    readBlockEntries_row narrow record.nonempty record.keys dedents enough
  obtain ⟨key, tried⟩ : ∃ key, readKey? fuel
      ⟨entriesText (column + 2) row.entries ++ tail, column + 2⟩ = .ok (some key) := by
    obtain ⟨fuel, rfl⟩ : ∃ less, fuel = less + 1 := ⟨fuel - 1, by omega⟩
    cases row with
    | nil => exact absurd rfl record.nonempty
    | cons field row =>
        exact exists_readKey?_entriesText record.keys.head (column + 2) _ _ tail fuel _
  rw [itemText_row record.nonempty]
  have deep : column + 1 ≤ column + 2 := by omega
  exact ⟨reached, readNode_mapping (starts.skip_space column) starts rfl deep tried read false⟩

/-- A list of rows is read back if a key in the column of the hyphens follows it. -/
theorem readBlockItems_rows {column : Nat} (narrow : column + 4 < lineWidth) {rows : List Row}
    (nonempty : rows ≠ []) (records : ∀ row ∈ rows, row.IsRecord) {longest : Nat}
    (bounded : ∀ row ∈ rows, row.length ≤ longest) {tail : List Char} (starts : StartsNode tail)
    {fuel : Nat} (enough : rows.length + longest + 4 ≤ fuel) :
    ∃ reached, readBlockItems column fuel
        ⟨itemsText column (rows.map Row.value) ++ (spaces column ++ tail), column⟩ =
      .ok (rows.map Row.node, ⟨'\n' :: (spaces column ++ tail), reached⟩) := by
  induction rows generalizing fuel with
  | nil => exact absurd rfl nonempty
  | cons row rows ih =>
      have record : row.IsRecord := records row (by simp)
      have boundedRow : row.length ≤ longest := bounded row (by simp)
      rw [List.length_cons] at enough
      obtain ⟨fuel, rfl⟩ : ∃ less, fuel = less + 2 := ⟨fuel - 2, by omega⟩
      have enoughRow : row.length + 3 ≤ fuel := by omega
      rw [List.map_cons, itemsText_cons]
      cases rows with
      | nil =>
          have dedents : Dedents (column + 2) (spaces column ++ tail) :=
            starts.dedents (by omega)
          obtain ⟨reached, read⟩ := readNode_row narrow record dedents enoughRow
          have whole := readBlockItems_last read starts
          exact ⟨reached, by simpa using whole⟩
      | cons next rows =>
          obtain ⟨reached, readRest⟩ := ih (by simp)
            (fun row member => records row (List.mem_cons_of_mem _ member))
            (fun row member => bounded row (List.mem_cons_of_mem _ member))
            (show (next :: rows).length + longest + 4 ≤ fuel + 1 by omega)
          have dedents : Dedents (column + 2) (spaces column ++
              (itemsText column ((next :: rows).map Row.value) ++ (spaces column ++ tail))) := by
            rw [List.map_cons, itemsText_cons]
            exact .inr ⟨column, '-', _, rfl, isDark_hyphen, by decide, by omega⟩
          obtain ⟨place, read⟩ := readNode_row narrow record dedents enoughRow
          rw [List.map_cons, itemsText_cons] at read readRest
          have whole := readBlockItems_cons read readRest
          exact ⟨reached, by simpa [itemsText_cons] using whole⟩

theorem readContent_emptyList (tail : List Char) (floor fuel column : Nat) :
    ∃ reached, readContent false floor {} (fuel + 2) ⟨'[' :: ']' :: '\n' :: tail, column⟩ =
      .ok (.sequence {} [], ⟨'\n' :: tail, reached⟩) := by
  simp [readContent, readItems, Cursor.next, Cursor.skip, Cursor.skipFrom, Cursor.advance,
    isBreak]

/-- The list of rows under a key is read back if another key follows it. -/
theorem readNode_rows {column : Nat} (narrow : column + 4 < lineWidth) {rows : List Row}
    (records : ∀ row ∈ rows, row.IsRecord) {longest : Nat}
    (bounded : ∀ row ∈ rows, row.length ≤ longest) {tail : List Char} (starts : StartsNode tail)
    {fuel : Nat} (enough : rows.length + longest + 4 ≤ fuel) (start place : Nat) :
    ∃ reached, readNode (column + 1) true false {} (fuel + 1)
        ⟨entryText column start (.list (rows.map Row.value)) ++ (spaces column ++ tail),
          place + 1⟩ =
      .ok (.sequence {} (rows.map Row.node), ⟨'\n' :: (spaces column ++ tail), reached⟩) := by
  cases rows with
  | nil =>
      obtain ⟨fuel, rfl⟩ : ∃ less, fuel = less + 2 := ⟨fuel - 2, by omega⟩
      have written : entryText column start (.list []) ++ (spaces column ++ tail) =
          ' ' :: '[' :: ']' :: '\n' :: (spaces column ++ tail) := by
        simp [entryText]
      have startsList : StartsNode ('[' :: ']' :: '\n' :: (spaces column ++ tail)) :=
        startsNode_of_unmarked ⟨by decide, by decide⟩ (by decide) _
      obtain ⟨after, attempt⟩ :=
        readContent_emptyList (spaces column ++ tail) (place + 3) fuel (place + 2)
      have tried := readKey?_of_readContent startsList attempt
      obtain ⟨reached, read⟩ :=
        readContent_emptyList (spaces column ++ tail) (column + 1) fuel (place + 2)
      rw [List.map_nil, written]
      exact ⟨reached,
        readNode_content (startsList.skip_space place) startsList tried read rfl true⟩
  | cons row rows =>
      obtain ⟨reached, read⟩ :=
        readBlockItems_rows narrow (by simp) records bounded starts enough
      rw [entryText_list (by simp), List.cons_append, List.append_assoc]
      rw [List.map_cons, itemsText_cons] at read ⊢
      exact ⟨reached, readNode_sequence (Cursor.skip_line column isDark_hyphen (by decide) _ _)
        rfl read false⟩

end ClosureCapture.Yaml
