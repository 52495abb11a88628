import ClosureCapture.Proofs.Yaml.Collection
import ClosureCapture.Yaml.Reader

/-!
# Written texts are one document

Before a document is read, its line ends are unified and its text is cut at the marks of
documents.  What is written consists of visible characters and line feeds, and no line of it
starts like a mark, because the lines of a scalar are indented.  This file proves that the reader
therefore gets the whole text as it was written.
-/

namespace ClosureCapture.Yaml

theorem unifyBreaks_visible {first : Char} (visible : isVisible first = true)
    (rest : List Char) : unifyBreaks (first :: rest) = first :: unifyBreaks rest := by
  have notReturn : first ≠ '\r' := by
    rintro rfl
    exact absurd visible (by decide)
  rw [isVisible_iff] at visible
  have notNext : first.toNat ≠ 0x85 := by omega
  rw [unifyBreaks.eq_def]
  split
  · next same => simp at same
  · next same => exact absurd (List.cons.inj same).1 notReturn
  · next same => exact absurd (List.cons.inj same).1 notReturn
  · next same =>
      obtain ⟨rfl, rfl⟩ := List.cons.inj same
      rw [if_neg notNext]

theorem separatesDocuments_of_ne {first : Char} (notDot : first ≠ '.') (notHyphen : first ≠ '-')
    (rest : List Char) : separatesDocuments (first :: rest) = false := by
  simp [separatesDocuments, startsDocument, endsDocument, notDot, notHyphen]

/-- A text of visible characters and line feeds in which no line starts with a dot, and a hyphen
at the start of a line announces an item.  The flag tells whether the text itself starts a
line. -/
inductive Tidy : (lineStart : Bool) → List Char → Prop
  | nil {lineStart : Bool} : Tidy lineStart []
  | newline {lineStart : Bool} {rest : List Char} (tidy : Tidy true rest) :
      Tidy lineStart ('\n' :: rest)
  | visible {lineStart : Bool} {first : Char} {rest : List Char}
      (visible : isVisible first = true)
      (unmarked : lineStart = true → first ≠ '.' ∧ first ≠ '-') (tidy : Tidy false rest) :
      Tidy lineStart (first :: rest)
  | item {lineStart : Bool} {rest : List Char} (tidy : Tidy false rest) :
      Tidy lineStart ('-' :: ' ' :: rest)

namespace Tidy

variable {lineStart : Bool} {text tail : List Char}

theorem append_visible (visible : ∀ part ∈ text, isVisible part = true)
    (tidy : Tidy false tail) : Tidy false (text ++ tail) := by
  induction text with
  | nil => exact tidy
  | cons first text ih =>
      refine .visible (visible first (by simp)) (by simp) (ih ?_)
      intro part member
      exact visible part (List.mem_cons_of_mem _ member)

theorem spaces_append {indent : Nat} (positive : 0 < indent) (tidy : Tidy false tail) :
    Tidy lineStart (spaces indent ++ tail) := by
  obtain ⟨width, rfl⟩ : ∃ width, indent = width + 1 := ⟨indent - 1, by omega⟩
  have blank : ∀ part ∈ spaces width, isVisible part = true := by
    intro part member
    rw [List.eq_of_mem_replicate member]
    decide
  exact .visible (by decide) (fun _ => by decide) (append_visible blank tidy)

theorem all_isReadable (tidy : Tidy lineStart text) : text.all isReadable = true := by
  induction tidy with
  | nil => rfl
  | newline _ ih => simp [isReadable, ih]
  | visible visible _ _ ih =>
      rw [isVisible_iff] at visible
      simp [isReadable, ih, visible]
  | item _ ih => simp [isReadable, ih]

theorem unifyBreaks_eq (tidy : Tidy lineStart text) : unifyBreaks text = text := by
  induction tidy with
  | nil => rfl
  | newline _ ih => simp [unifyBreaks, ih]
  | visible visible _ _ ih => rw [unifyBreaks_visible visible, ih]
  | item _ ih => simp [unifyBreaks, ih]

theorem takeSection_eq (tidy : Tidy lineStart text) : takeSection lineStart text = (text, []) := by
  induction tidy with
  | nil => rfl
  | newline _ ih =>
      simp [takeSection, separatesDocuments, startsDocument, endsDocument, isBreak, ih]
  | @visible lineStart first rest visible unmarked _ ih =>
      have goesOn : (lineStart && separatesDocuments (first :: rest)) = false := by
        cases lineStart with
        | false => rfl
        | true =>
            obtain ⟨notDot, notHyphen⟩ := unmarked rfl
            exact separatesDocuments_of_ne notDot notHyphen rest
      simp [takeSection, goesOn, isBreak_of_isVisible visible, ih]
  | item _ ih =>
      simp [takeSection, separatesDocuments, startsDocument, endsDocument, isBreak, ih]

theorem return_notMem (tidy : Tidy lineStart text) : '\r' ∉ text := by
  induction tidy with
  | nil => simp
  | newline _ ih => simp [ih]
  | visible visible _ _ ih =>
      rw [List.mem_cons, not_or]
      refine ⟨?_, ih⟩
      rintro rfl
      exact absurd visible (by decide)
  | item _ ih => simp [ih]

theorem dropOrderMark_eq (tidy : Tidy lineStart text) : dropOrderMark text = text := by
  unfold dropOrderMark
  split
  · cases tidy with
    | visible visible => exact absurd visible (by decide)
  · rfl

end Tidy

/-! ### Scalars -/

theorem tidy_foldPlain {indent : Nat} (positive : 0 < indent) {text tail : List Char}
    (fits : barsPlain text = false) (tidy : Tidy false tail) (column : Nat) (afterSpace : Bool) :
    Tidy false (foldPlain indent column afterSpace text ++ tail) := by
  induction text generalizing column afterSpace with
  | nil => exact tidy
  | cons first text ih =>
      obtain ⟨visible, -, -, fitsRest⟩ := barsPlain_cons fits
      rw [foldPlain]
      split
      · simp only [List.cons_append, List.append_assoc]
        exact .newline (Tidy.spaces_append positive (ih fitsRest indent true))
      · exact .visible visible (by simp) (ih fitsRest _ _)

theorem tidy_foldSingle {indent : Nat} (positive : 0 < indent) {text tail : List Char}
    (fits : barsSingle text = false) (tidy : Tidy false tail) {lineStart : Bool}
    (starts : lineStart = true → text.head? = some '\n') (column : Nat) (previous : Option Char) :
    Tidy lineStart (foldSingle indent column previous text ++ tail) := by
  induction text generalizing lineStart column previous with
  | nil =>
      cases lineStart with
      | false => exact tidy
      | true => simp at starts
  | cons first text ih =>
      obtain ⟨plain, -, -, fitsRest⟩ := barsSingle_cons fits
      by_cases feed : first = '\n'
      · subst feed
        have continued : Tidy true (continueSingle indent text ++ tail) := by
          unfold continueSingle
          split
          · next empty => exact ih fitsRest (fun _ => empty) 0 (some '\n')
          · rw [List.append_assoc]
            exact Tidy.spaces_append positive (ih fitsRest (by simp) indent (some '\n'))
        rw [foldSingle_newline]
        split
        · exact .newline continued
        · exact .newline (.newline continued)
      · have inLine : lineStart = false := by
          rw [← Bool.not_eq_true]
          intro fresh
          exact feed (by simpa using starts fresh)
        have visible : isVisible first = true := by
          simpa [feed] using isSpecial_eq_false_iff.1 plain
        subst inLine
        rw [foldSingle, if_neg feed]
        split
        · simp only [List.cons_append, List.append_assoc]
          exact .newline (Tidy.spaces_append positive (ih fitsRest (by simp) _ _))
        split
        · exact .visible (by decide) (by simp)
            (.visible (by decide) (by simp) (ih fitsRest (by simp) _ _))
        · exact .visible visible (by simp) (ih fitsRest (by simp) _ _)

theorem tidy_escapedBreak {indent : Nat} (positive : 0 < indent) {tail : List Char}
    (tidy : Tidy false tail) (next : Option Char) :
    Tidy false (escapedBreak indent next ++ tail) := by
  have opened : Tidy false ((if next = some ' ' then ['\\'] else []) ++ tail) := by
    split
    · exact .visible (by decide) (by simp) tidy
    · exact tidy
  simp only [escapedBreak, List.cons_append, List.append_assoc]
  exact .visible (by decide) (by simp) (.newline (Tidy.spaces_append positive opened))

theorem tidy_foldDouble {indent : Nat} (positive : 0 < indent) {text tail : List Char}
    (tidy : Tidy false tail) (column pending : Nat) (isFirst : Bool) :
    Tidy false (foldDouble indent column pending isFirst text ++ tail) := by
  induction text generalizing column pending isFirst with
  | nil => exact tidy
  | cons first text ih =>
      cases escaped : isEscaped first with
      | true =>
          rcases foldDouble_of_isEscaped escaped indent column pending isFirst text with
            written | ⟨reached, written⟩
          · rw [written, List.append_assoc, List.append_assoc]
            exact Tidy.append_visible (fun _ => isVisible_of_mem_escape)
              (tidy_escapedBreak positive (ih _ _ _) _)
          · rw [written, List.append_assoc]
            exact Tidy.append_visible (fun _ => isVisible_of_mem_escape) (ih _ _ _)
      | false =>
          have visible : isVisible first = true := by
            simp only [isEscaped, Bool.or_eq_false_iff, beq_eq_false_iff_ne] at escaped
            simpa [escaped.1.1.1] using isSpecial_eq_false_iff.1 escaped.2
          obtain ⟨reached, count, written | written⟩ :=
            foldDouble_of_bare escaped indent column pending isFirst text
          · rw [written, List.append_assoc]
            exact tidy_escapedBreak positive (.visible visible (by simp) (ih _ _ _)) _
          · rw [written]
            exact .visible visible (by simp) (ih _ _ _)

theorem tidy_textScalar {indent : Nat} (positive : 0 < indent) {tail : List Char}
    (tidy : Tidy false tail) (column : Nat) (text : List Char) :
    Tidy false (textScalar indent column text ++ tail) := by
  unfold textScalar
  split
  · next plain =>
      simp only [isPlainText, Bool.and_eq_true, Bool.not_eq_true'] at plain
      exact tidy_foldPlain positive plain.2 tidy column false
  split
  · next single =>
      have fits : barsSingle text = false := by simpa using single
      have closed : Tidy false ('\'' :: tail) := .visible (by decide) (by simp) tidy
      rw [List.cons_append, List.cons_append, List.append_assoc]
      exact .visible (by decide) (by simp)
        (tidy_foldSingle positive fits closed (by simp) (column + 1) none)
  · have closed : Tidy false ('"' :: tail) := .visible (by decide) (by simp) tidy
    rw [List.cons_append, List.cons_append, List.append_assoc]
    exact .visible (by decide) (by simp) (tidy_foldDouble positive closed (column + 1) 0 true)

/-! ### Collections -/

theorem IsKey.tidy {name : List Char} (key : IsKey name) {tail : List Char}
    (tidy : Tidy false tail) (lineStart : Bool) : Tidy lineStart (name ++ tail) := by
  have visible : ∀ part ∈ name, isVisible part = true := fun part member =>
    (key.dark member).visible
  obtain ⟨first, rest, rfl, lower⟩ := key.exists_cons
  refine .visible (visible first (by simp)) (fun _ => ⟨?_, ?_⟩)
    (Tidy.append_visible (fun part member => visible part (by simp [member])) tidy)
  · rintro rfl
    exact absurd lower (by decide)
  · rintro rfl
    exact absurd lower (by decide)

theorem tidy_entryText {tail : List Char} (tidy : Tidy true tail) (indent column : Nat)
    (text : String) : Tidy false (entryText indent column (.string text) ++ tail) := by
  rw [entryText_text, List.cons_append, List.append_assoc]
  exact .visible (by decide) (by simp)
    (tidy_textScalar (Nat.succ_pos _) (.newline tidy) (column + 1) text.toList)

theorem tidy_spaces {text : List Char} (tidy : ∀ lineStart, Tidy lineStart text)
    (width : Nat) (lineStart : Bool) : Tidy lineStart (spaces width ++ text) := by
  cases width with
  | zero => exact tidy lineStart
  | succ width => exact Tidy.spaces_append (Nat.succ_pos width) (tidy false)

theorem Row.tidy {row : Row} (keys : row.HasKeys) {tail : List Char} (tidy : Tidy true tail)
    (nonempty : row ≠ []) (column : Nat) (lineStart : Bool) :
    Tidy lineStart (entriesText column row.entries ++ tail) := by
  induction row generalizing lineStart with
  | nil => exact absurd rfl nonempty
  | cons field row ih =>
      rw [Row.entries_cons, entriesText_cons, List.append_assoc, List.cons_append,
        List.append_assoc]
      refine keys.head.tidy (.visible (by decide) (by simp) (tidy_entryText ?_ _ _ _)) lineStart
      cases row with
      | nil => exact tidy
      | cons next row =>
          have tidyRest := ih keys.tail (by simp)
          simpa using tidy_spaces tidyRest column true

theorem tidy_itemsText {rows : List Row} (records : ∀ row ∈ rows, row.IsRecord)
    {tail : List Char} (tidy : Tidy true tail) (nonempty : rows ≠ []) (column : Nat)
    (lineStart : Bool) : Tidy lineStart (itemsText column (rows.map Row.value) ++ tail) := by
  induction rows generalizing lineStart with
  | nil => exact absurd rfl nonempty
  | cons row rows ih =>
      have record : row.IsRecord := records row (by simp)
      rw [List.map_cons, itemsText_cons, itemText_row record.nonempty, List.cons_append,
        List.cons_append, List.append_assoc]
      refine .item (Row.tidy record.keys ?_ record.nonempty (column + 2) false)
      cases rows with
      | nil => exact tidy
      | cons next rows =>
          have tidyRest :=
            ih (fun row member => records row (List.mem_cons_of_mem _ member)) (by simp)
          simpa using tidy_spaces tidyRest column true

theorem tidy_rows {rows : List Row} (records : ∀ row ∈ rows, row.IsRecord) {tail : List Char}
    (tidy : Tidy true tail) (indent column : Nat) :
    Tidy false (entryText indent column (.list (rows.map Row.value)) ++ tail) := by
  cases rows with
  | nil =>
      exact .visible (by decide) (by simp) (.visible (by decide) (by simp)
        (.visible (by decide) (by simp) (.newline tidy)))
  | cons row rows =>
      have tidyItems := tidy_itemsText records tidy (by simp) indent
      rw [entryText_list (by simp), List.cons_append, List.append_assoc]
      exact .newline (tidy_spaces tidyItems indent true)

end ClosureCapture.Yaml
