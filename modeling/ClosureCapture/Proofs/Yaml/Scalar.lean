import ClosureCapture.Proofs.Yaml.Plain
import ClosureCapture.Proofs.Yaml.Quoted
import ClosureCapture.Yaml.Block

/-!
# Texts are read back as scalars

A text is written without quotes, in single quotes or in double quotes.  This file proves that
the reader of scalars gives back the text in each case, and says what the written text starts
with, which is what the reader of blocks looks at first.
-/

namespace ClosureCapture.Yaml

theorem Cursor.advance_append (front rest : List Char) (column : Nat) :
    (Cursor.mk (front ++ rest) column).advance rest =
      ⟨rest, front.foldl Cursor.columnAfter column⟩ := by
  simp [Cursor.advance]

/-- A text at which a scalar or a key may start: nothing there is skipped, gives properties, or
announces a node of another form. -/
structure StartsNode (text : List Char) : Prop where
  dark : ∃ first rest, text = first :: rest ∧ IsDark first ∧ first ∉ ['#', '&', '!', '|', '>']
  noItem : startsWithIndicator '-' text = false
  noKey : startsWithIndicator '?' text = false

theorem startsNode_of_unmarked {first : Char} (dark : IsDark first)
    (unmarked : first ∉ ['#', '&', '!', '|', '>', '-', '?']) (rest : List Char) :
    StartsNode (first :: rest) := by
  simp only [List.mem_cons, List.not_mem_nil, or_false, not_or] at unmarked
  obtain ⟨sign, anchor, tag, literal, folded, item, key⟩ := unmarked
  exact ⟨⟨first, rest, rfl, dark, by simp [sign, anchor, tag, literal, folded]⟩,
    by simp [startsWithIndicator, item], by simp [startsWithIndicator, key]⟩

/-! ### Texts without quotes -/

theorem barsPlainStart_cons {first : Char} {rest : List Char}
    (fits : barsPlainStart (first :: rest) = false) :
    first ∉ plainBarriers ∧ first ≠ ' ' ∧
      (first = '?' ∨ first = '-' → startsWithGap rest = false) := by
  unfold barsPlainStart at fits
  split at fits
  · simp at fits
  · simp at fits
  · next first' rest' _ _ same =>
      obtain ⟨rfl, rfl⟩ := List.cons.inj same
      simp only [Bool.or_eq_false_iff, Bool.and_eq_false_iff, beq_eq_false_iff_ne,
        List.contains_eq_mem, decide_eq_false_iff_not] at fits
      obtain ⟨⟨free, notBlank⟩, indicator⟩ := fits
      refine ⟨free, notBlank, ?_⟩
      rintro (rfl | rfl)
      · simpa using indicator
      · simpa using indicator
  · simp at fits

theorem startsWithGap_foldPlain {rest : List Char} (fits : barsPlain rest = false)
    (goesOn : startsWithGap rest = false) (indent column : Nat) (afterSpace : Bool)
    (tail : List Char) :
    startsWithGap (foldPlain indent column afterSpace rest ++ tail) = false := by
  cases rest with
  | nil => simp [startsWithGap] at goesOn
  | cons next rest =>
      have notBlank : next ≠ ' ' := by
        rintro rfl
        simp [startsWithGap, isWhite] at goesOn
      have dark : IsDark next := ⟨(barsPlain_cons fits).1, notBlank⟩
      obtain ⟨more, written⟩ : ∃ more, foldPlain indent column afterSpace (next :: rest) =
          next :: more := by
        simp [foldPlain, notBlank]
      rw [written]
      exact dark.startsWithGap _

/-- The first characters of a text that is written without quotes. -/
theorem exists_foldPlain_eq {text : List Char} (plain : isPlainText text = true)
    (indent column : Nat) (tail : List Char) :
    ∃ first rest written, text = first :: rest ∧ IsDark first ∧ first ∉ plainBarriers ∧
      barsPlain text = false ∧ foldPlain indent column false text ++ tail = first :: written ∧
      (first = '?' ∨ first = '-' ∨ first = ':' → startsWithGap written = false) := by
  simp only [isPlainText, Bool.and_eq_true, Bool.not_eq_true'] at plain
  obtain ⟨⟨-, start⟩, fits⟩ := plain
  cases text with
  | nil => simp [barsPlainStart] at start
  | cons first rest =>
      obtain ⟨free, notBlank, indicator⟩ := barsPlainStart_cons start
      obtain ⟨visible, colon, -, fitsRest⟩ := barsPlain_cons fits
      refine ⟨first, rest, foldPlain indent (column + 1) (first == ' ') rest ++ tail, rfl,
        ⟨visible, notBlank⟩, free, fits, ?_, ?_⟩
      · simp [foldPlain, notBlank]
      · intro special
        have goesOn : startsWithGap rest = false := by
          rcases special with isKey | isItem | isColon
          · exact indicator (.inl isKey)
          · exact indicator (.inr isItem)
          · exact colon isColon
        exact startsWithGap_foldPlain fitsRest goesOn indent (column + 1) _ tail

theorem startsPlain_of_start {first : Char} (dark : IsDark first) (free : first ∉ plainBarriers)
    {written : List Char}
    (special : first = '?' ∨ first = '-' ∨ first = ':' → startsWithGap written = false) :
    startsPlain false (first :: written) = true := by
  have single : startsWithGap [first] = false := dark.startsWithGap []
  by_cases isKey : first = '?'
  · simp [startsPlain, special (.inl isKey), isKey, reservedStarts]
  by_cases isItem : first = '-'
  · simp [startsPlain, special (.inr (.inl isItem)), isItem, reservedStarts]
  by_cases isColon : first = ':'
  · simp [startsPlain, special (.inr (.inr isColon)), isColon, reservedStarts]
  have unreserved : first ∉ reservedStarts := by
    simp only [plainBarriers, List.mem_cons, List.not_mem_nil, or_false, not_or] at free
    simp [reservedStarts, isKey, isItem, isColon, free]
  simp [startsPlain, unreserved, single]

/-! ### Reading scalars -/

theorem readContent_plain {first : Char} {written : List Char} (free : first ∉ plainBarriers)
    (starts : startsPlain false (first :: written) = true) (floor fuel place : Nat) :
    readContent false floor {} (fuel + 1) ⟨first :: written, place⟩ =
      .ok (.scalar {} true (readPlain false floor (first :: written)).1,
        (Cursor.mk (first :: written) place).advance
          (readPlain false floor (first :: written)).2) := by
  have absent : ∀ {mark : Char} {rest : List Char}, mark ∈ plainBarriers →
      first :: written ≠ mark :: rest := by
    intro mark rest barred same
    exact free ((List.cons.inj same).1 ▸ barred)
  rw [readContent]
  split
  · next same => exact absurd same (absent (by decide))
  · next same => exact absurd same (absent (by decide))
  · next same => exact absurd same (absent (by decide))
  · next same => exact absurd same (absent (by decide))
  · next same => exact absurd same (absent (by decide))
  · simp [starts]

theorem readContent_single {written text after : List Char}
    (read : readQuoted false written = .ok (text, after)) (inFlow : Bool) (floor fuel place : Nat) :
    readContent inFlow floor {} (fuel + 1) ⟨'\'' :: written, place⟩ =
      .ok (.scalar {} false text, (Cursor.mk ('\'' :: written) place).advance after) := by
  rw [readContent]
  simp only [read]
  rfl

theorem readContent_double {written text after : List Char}
    (read : readQuoted true written = .ok (text, after)) (inFlow : Bool) (floor fuel place : Nat) :
    readContent inFlow floor {} (fuel + 1) ⟨'"' :: written, place⟩ =
      .ok (.scalar {} false text, (Cursor.mk ('"' :: written) place).advance after) := by
  rw [readContent]
  simp only [read]
  rfl

/-- The node that a text is written for. -/
def textNode (text : List Char) : Node :=
  .scalar {} (isPlainText text) text

/-- What is written for a text is always read as some scalar.  The text itself is read back if it
is indented up to the floor and ends there. -/
theorem exists_readContent_eq {indent : Nat} (narrow : indent < lineWidth)
    (floor column fuel place : Nat) (text tail : List Char) :
    ∃ content after, readContent false floor {} (fuel + 1)
        ⟨textScalar indent column text ++ '\n' :: tail, place⟩ =
        .ok (.scalar {} (isPlainText text) content,
          (Cursor.mk (textScalar indent column text ++ '\n' :: tail) place).advance after) ∧
      (floor ≤ indent → EndsBlock floor tail → content = text ∧ after = '\n' :: tail) := by
  have follows : ('\n' :: tail).head? ≠ some '\'' := by simp
  unfold textScalar
  split
  · next plain =>
      obtain ⟨first, rest, written, rfl, dark, free, fits, spelled, special⟩ :=
        exists_foldPlain_eq plain indent column ('\n' :: tail)
      have content := readContent_plain free (startsPlain_of_start dark free special)
        floor fuel place
      rw [← spelled, ← plain] at content
      refine ⟨_, _, content, fun deep ends => ?_⟩
      rw [readPlain_foldPlain deep ends fits dark.notBlank column false]
      exact ⟨rfl, rfl⟩
  next quoted =>
  have notPlain : isPlainText text = false := by simpa using quoted
  rw [notPlain]
  split
  · next bars =>
      have fits : barsSingle text = false := by simpa using bars
      have content := readContent_single (readQuoted_foldSingle indent (column + 1) fits follows)
        false floor fuel place
      have spelled : '\'' :: foldSingle indent (column + 1) none text ++ ['\''] ++ '\n' :: tail =
          '\'' :: (foldSingle indent (column + 1) none text ++ '\'' :: '\n' :: tail) := by
        simp
      rw [← spelled] at content
      exact ⟨_, _, content, fun _ _ => ⟨rfl, rfl⟩⟩
  · have content := readContent_double
      (readQuoted_foldDouble narrow (column + 1) text ('\n' :: tail)) false floor fuel place
    have spelled : '"' :: foldDouble indent (column + 1) 0 true text ++ ['"'] ++ '\n' :: tail =
        '"' :: (foldDouble indent (column + 1) 0 true text ++ '"' :: '\n' :: tail) := by
      simp
    rw [← spelled] at content
    exact ⟨_, _, content, fun _ _ => ⟨rfl, rfl⟩⟩

/-- What is written for a text is read back as its node, up to the end of its last line. -/
theorem readContent_textScalar {floor indent : Nat} (deep : floor ≤ indent)
    (narrow : indent < lineWidth) {tail : List Char} (ends : EndsBlock floor tail)
    (column fuel place : Nat) (text : List Char) :
    ∃ reached, readContent false floor {} (fuel + 1)
        ⟨textScalar indent column text ++ '\n' :: tail, place⟩ =
      .ok (textNode text, ⟨'\n' :: tail, reached⟩) := by
  obtain ⟨content, after, read, whole⟩ :=
    exists_readContent_eq narrow floor column fuel place text tail
  obtain ⟨rfl, rfl⟩ := whole deep ends
  rw [Cursor.advance_append] at read
  exact ⟨_, read⟩

theorem startsNode_textScalar (indent column : Nat) (text tail : List Char) :
    StartsNode (textScalar indent column text ++ tail) := by
  unfold textScalar
  split
  · next plain =>
      obtain ⟨first, rest, written, rfl, dark, free, -, spelled, special⟩ :=
        exists_foldPlain_eq plain indent column tail
      simp only [plainBarriers, List.mem_cons, List.not_mem_nil, or_false, not_or] at free
      refine ⟨⟨first, written, spelled, dark, by simp [free]⟩, ?_, ?_⟩
      · rw [spelled]
        by_cases isItem : first = '-'
        · simp [startsWithIndicator, special (.inr (.inl isItem))]
        · simp [startsWithIndicator, isItem]
      · rw [spelled]
        by_cases isKey : first = '?'
        · simp [startsWithIndicator, special (.inl isKey)]
        · simp [startsWithIndicator, isKey]
  · split
    · exact startsNode_of_unmarked ⟨by decide, by decide⟩ (by decide) _
    · exact startsNode_of_unmarked ⟨by decide, by decide⟩ (by decide) _

end ClosureCapture.Yaml
