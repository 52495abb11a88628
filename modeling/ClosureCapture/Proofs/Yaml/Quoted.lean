import ClosureCapture.Proofs.Yaml.Escape

/-!
# Quoted texts are read back

In single quotes, a line is broken at a space that stands alone, and a run of line breaks is
written with one more.  In double quotes, a line is broken by an escape.  The reader folds breaks
with the white space around them, so a break that is written must not stand beside white space of
the text.  This file proves that quoted texts are read back, whatever the column they start in.
-/

namespace ClosureCapture.Yaml

/-- A text read, with some characters before it. -/
def prepend (front : List Char) (read : Except Fault (List Char × List Char)) :
    Except Fault (List Char × List Char) :=
  read.map fun (content, after) => (front ++ content, after)

theorem prepend_cons (first : Char) (front : List Char)
    (read : Except Fault (List Char × List Char)) :
    prepend (first :: front) read = prepend [first] (prepend front read) := by
  cases read <;> rfl

theorem prepend_nil (read : Except Fault (List Char × List Char)) : prepend [] read = read := by
  cases read <;> rfl

/-! ### Steps of the reader -/

theorem takeEmptyLines_spaces (width : Nat) {first : Char} {rest : List Char}
    (dark : isWhite first = false) (inLine : isBreak first = false) :
    takeEmptyLines (spaces width ++ first :: rest) = ([], first :: rest) := by
  have white : ∀ space ∈ spaces width, isWhite space = true := by
    intro space member
    rw [List.eq_of_mem_replicate member]
    rfl
  have content : (spaces width ++ first :: rest).dropWhile isWhite = first :: rest := by
    rw [List.dropWhile_append_of_pos white, List.dropWhile_cons_of_neg (by simp [dark])]
  rw [takeEmptyLines]
  split
  · next nothing => simp [content] at nothing
  · next first' rest' something =>
      obtain ⟨rfl, rfl⟩ := List.cons.inj (content.symm.trans something)
      simp [inLine]

theorem takeEmptyLines_newline (rest : List Char) :
    takeEmptyLines ('\n' :: rest) = ('\n' :: (takeEmptyLines rest).1, (takeEmptyLines rest).2) := by
  have content : ('\n' :: rest).dropWhile isWhite = '\n' :: rest :=
    List.dropWhile_cons_of_neg (by decide)
  rw [takeEmptyLines]
  split
  · next nothing => simp [content] at nothing
  · next first' rest' something =>
      obtain ⟨rfl, rfl⟩ := List.cons.inj (content.symm.trans something)
      rfl

theorem readQuoted_close_single {rest : List Char} (follows : rest.head? ≠ some '\'') :
    readQuoted false ('\'' :: rest) = .ok ([], rest) := by
  rw [readQuoted.eq_def]
  simp only [Bool.false_eq_true, ↓reduceIte]
  split
  · simp at follows
  · rfl

theorem readQuoted_close_double (rest : List Char) :
    readQuoted true ('"' :: rest) = .ok ([], rest) := by
  rw [readQuoted.eq_def]
  rfl

theorem readQuoted_quote (rest : List Char) :
    readQuoted false ('\'' :: '\'' :: rest) = prepend ['\''] (readQuoted false rest) := by
  rw [readQuoted.eq_def]
  simp only [Bool.false_eq_true, ↓reduceIte]
  cases readQuoted false rest <;> rfl

theorem readQuoted_escape {text characters later : List Char}
    (escaped : readEscape text = .ok (characters, later)) :
    readQuoted true ('\\' :: text) = prepend characters (readQuoted true later) := by
  rw [readQuoted.eq_def]
  simp only [↓reduceIte, Char.reduceEq, beq_self_eq_true, Bool.and_self]
  split
  · next fault failed => simp [escaped] at failed
  · next characters' later' found =>
      obtain ⟨rfl, rfl⟩ := Prod.mk.inj (Except.ok.inj (escaped.symm.trans found))
      cases readQuoted true later <;> rfl

/-- The characters that end a text in quotes or have a meaning in it. -/
def quoteMarks (double : Bool) : List Char :=
  if double then ['"', '\\'] else ['\'']

theorem readQuoted_visible {double : Bool} {first : Char} (visible : isVisible first = true)
    (dark : first ≠ ' ') (unmarked : first ∉ quoteMarks double) (rest : List Char) :
    readQuoted double (first :: rest) = prepend [first] (readQuoted double rest) := by
  have notQuote : first ≠ (if double then '"' else '\'') := by
    cases double <;> simp_all [quoteMarks]
  have notEscape : (double && first == '\\') = false := by
    cases double <;> simp_all [quoteMarks]
  have notGap : (isWhite first || isBreak first) = false := by
    simp [isWhite_of_isVisible visible, isBreak_of_isVisible visible, dark]
  rw [readQuoted.eq_def]
  simp only [notQuote, notEscape, notGap, ↓reduceIte, Bool.false_eq_true]
  cases readQuoted double rest <;> rfl

theorem readQuoted_break (double : Bool) (rest : List Char) :
    readQuoted double ('\n' :: rest) =
      prepend (foldBreaks '\n' (takeEmptyLines rest).1)
        (readQuoted double (takeEmptyLines rest).2) := by
  have notQuote : '\n' ≠ (if double then '"' else '\'') := by cases double <;> decide
  have notEscape : (double && '\n' == '\\') = false := by cases double <;> decide
  have isGap : (isWhite '\n' || isBreak '\n') = true := by decide
  have content : ('\n' :: rest).dropWhile isWhite = '\n' :: rest :=
    List.dropWhile_cons_of_neg (by decide)
  have ends : isBreak '\n' = true := by decide
  rw [readQuoted.eq_def]
  simp only [notQuote, notEscape, isGap, ↓reduceIte, Bool.false_eq_true]
  split
  · next nothing => simp [content] at nothing
  · next next' later something =>
      obtain ⟨rfl, rfl⟩ := List.cons.inj (content.symm.trans something)
      simp only [ends, ↓reduceIte]
      cases readQuoted double (takeEmptyLines rest).2 <;> rfl

/-- A run of white space is a part of the text unless a line break follows it. -/
theorem readQuoted_white (double : Bool) {first next : Char} {rest later : List Char}
    (white : isWhite first = true) (reached : rest.dropWhile isWhite = next :: later)
    (inLine : isBreak next = false) :
    readQuoted double (first :: rest) =
      prepend (first :: rest.takeWhile isWhite) (readQuoted double (next :: later)) := by
  have blank : first = ' ' ∨ first = '\t' := by simpa [isWhite] using white
  have notQuote : first ≠ (if double then '"' else '\'') := by
    rcases blank with rfl | rfl <;> cases double <;> decide
  have notEscape : (double && first == '\\') = false := by
    rcases blank with rfl | rfl <;> cases double <;> decide
  have content : (first :: rest).dropWhile isWhite = next :: later := by
    rw [List.dropWhile_cons_of_pos white, reached]
  rw [readQuoted.eq_def]
  simp only [notQuote, notEscape, white, Bool.true_or, ↓reduceIte, Bool.false_eq_true]
  split
  · next nothing => simp [content] at nothing
  · next next' later' something =>
      obtain ⟨rfl, rfl⟩ := List.cons.inj (content.symm.trans something)
      simp only [inLine, ↓reduceIte, Bool.false_eq_true, List.takeWhile_cons_of_pos white]
      cases readQuoted double (next :: later) <;> rfl

/-- The first space of such a run can be read alone. -/
theorem readQuoted_space (double : Bool) {rest later : List Char} {next : Char}
    (reached : rest.dropWhile isWhite = next :: later) (inLine : isBreak next = false) :
    readQuoted double (' ' :: rest) = prepend [' '] (readQuoted double rest) := by
  rw [readQuoted_white double rfl reached inLine]
  cases rest with
  | nil => simp at reached
  | cons first rest =>
      by_cases white : isWhite first = true
      · rw [List.dropWhile_cons_of_pos white] at reached
        rw [readQuoted_white double white reached inLine, List.takeWhile_cons_of_pos white]
        cases readQuoted double (next :: later) <;> rfl
      · rw [List.dropWhile_cons_of_neg white] at reached
        obtain ⟨rfl, rfl⟩ := List.cons.inj reached
        rw [List.takeWhile_cons_of_neg white]

/-! ### Single quotes -/

theorem barsSingle_cons {first : Char} {rest : List Char}
    (fits : barsSingle (first :: rest) = false) :
    isSpecial first = false ∧ (first = ' ' → rest.head? ≠ some '\n') ∧
      (first = '\n' → rest.head? ≠ some ' ') ∧ barsSingle rest = false := by
  simp only [barsSingle, Bool.or_eq_false_iff, Bool.and_eq_false_iff, beq_eq_false_iff_ne] at fits
  obtain ⟨⟨⟨plain, space⟩, newline⟩, rest⟩ := fits
  refine ⟨plain, ?_, ?_, rest⟩
  · rintro rfl
    simpa using space
  · rintro rfl
    simpa using newline

theorem foldSingle_cons_of_dark {first : Char} (dark : first ≠ ' ') (inLine : first ≠ '\n')
    (indent column : Nat) (previous : Option Char) (rest : List Char) :
    ∃ more, foldSingle indent column previous (first :: rest) = first :: more := by
  by_cases quote : first = '\''
  · subst quote
    simp [foldSingle]
  · simp [foldSingle, dark, inLine, quote]

/-- What is written after a line break of a text in single quotes. -/
def continueSingle (indent : Nat) (text : List Char) : List Char :=
  if text.head? = some '\n' then foldSingle indent 0 (some '\n') text
  else spaces indent ++ foldSingle indent indent (some '\n') text

theorem foldSingle_newline (indent column : Nat) (previous : Option Char) (rest : List Char) :
    foldSingle indent column previous ('\n' :: rest) =
      (if previous = some '\n' then [] else ['\n']) ++ '\n' :: continueSingle indent rest :=
  rfl

/-- No line is broken behind a space, so the spaces of a run stay together. -/
theorem exists_dropWhile_foldSingle {text : List Char} (fits : barsSingle text = false)
    (inLine : text.head? ≠ some '\n') (indent column : Nat) (tail : List Char) :
    ∃ next later, (foldSingle indent column (some ' ') text ++ '\'' :: tail).dropWhile isWhite =
      next :: later ∧ isBreak next = false := by
  induction text generalizing column with
  | nil => exact ⟨'\'', tail, rfl, by decide⟩
  | cons first rest ih =>
      obtain ⟨plain, space, -, fitsRest⟩ := barsSingle_cons fits
      have notFeed : first ≠ '\n' := by simpa using inLine
      by_cases blank : first = ' '
      · subst blank
        have written : foldSingle indent column (some ' ') (' ' :: rest) =
            ' ' :: foldSingle indent (column + 1) (some ' ') rest := by
          simp [foldSingle]
        rw [written, List.cons_append, List.dropWhile_cons_of_pos rfl]
        exact ih fitsRest (space rfl) (column + 1)
      · have visible : isVisible first = true := by
          simpa [notFeed] using isSpecial_eq_false_iff.1 plain
        obtain ⟨more, written⟩ :=
          foldSingle_cons_of_dark blank notFeed indent column (some ' ') rest
        refine ⟨first, more ++ '\'' :: tail, ?_, isBreak_of_isVisible visible⟩
        rw [written, List.cons_append, List.dropWhile_cons_of_neg]
        simp [isWhite_of_isVisible visible, blank]

/-- A text in single quotes is read back, in whatever column it starts. -/
def RestoresSingle (indent : Nat) (tail text : List Char) : Prop :=
  ∀ column previous, (text.head? = some '\n' → previous ≠ some '\n') →
    readQuoted false (foldSingle indent column previous text ++ '\'' :: tail) = .ok (text, tail)

/-- A text in single quotes is read back behind a line break. -/
def ContinuesSingle (indent : Nat) (tail text : List Char) : Prop :=
  ∃ breaks start, takeEmptyLines (continueSingle indent text ++ '\'' :: tail) = (breaks, start) ∧
    prepend breaks (readQuoted false start) = .ok (text, tail)

section

variable {indent : Nat} {tail rest : List Char}

theorem RestoresSingle.nil (follows : tail.head? ≠ some '\'') : RestoresSingle indent tail [] :=
  fun _ _ _ => readQuoted_close_single follows

theorem RestoresSingle.newline (behind : ContinuesSingle indent tail rest) :
    RestoresSingle indent tail ('\n' :: rest) := by
  intro column previous alone
  obtain ⟨breaks, start, taken, read⟩ := behind
  rw [foldSingle_newline, if_neg (alone rfl)]
  simp only [List.cons_append, List.nil_append]
  rw [readQuoted_break, takeEmptyLines_newline, taken]
  change prepend ('\n' :: breaks) (readQuoted false start) = .ok ('\n' :: rest, tail)
  rw [prepend_cons, read]
  rfl

theorem RestoresSingle.space (fits : barsSingle rest = false) (inLine : rest.head? ≠ some '\n')
    (restored : RestoresSingle indent tail rest) :
    RestoresSingle indent tail (' ' :: rest) := by
  intro column previous _
  have restoredBehind : ∀ column, readQuoted false
      (foldSingle indent column (some ' ') rest ++ '\'' :: tail) = .ok (rest, tail) :=
    fun column => restored column (some ' ') (by simp)
  by_cases broken : previous ≠ none ∧ previous ≠ some ' ' ∧ rest ≠ [] ∧ rest.head? ≠ some ' ' ∧
      lineWidth < column
  · have written : foldSingle indent column previous (' ' :: rest) =
        '\n' :: (spaces indent ++ foldSingle indent indent (some ' ') rest) := by
      simp [foldSingle, broken]
    obtain ⟨-, -, something, dark, -⟩ := broken
    obtain ⟨next, later, rfl⟩ := List.exists_cons_of_ne_nil something
    have notBlank : next ≠ ' ' := by simpa using dark
    have notFeed : next ≠ '\n' := by simpa using inLine
    have visible : isVisible next = true := by
      simpa [notFeed] using isSpecial_eq_false_iff.1 (barsSingle_cons fits).1
    have again := restoredBehind indent
    obtain ⟨more, start⟩ :=
      foldSingle_cons_of_dark notBlank notFeed indent indent (some ' ') later
    rw [start, List.cons_append] at again
    rw [written, start, List.cons_append, List.append_assoc, List.cons_append, readQuoted_break,
      takeEmptyLines_spaces indent (by simp [isWhite_of_isVisible visible, notBlank])
        (isBreak_of_isVisible visible), again]
    rfl
  · have written : foldSingle indent column previous (' ' :: rest) =
        ' ' :: foldSingle indent (column + 1) (some ' ') rest := by
      simp only [foldSingle, Char.reduceEq, ↓reduceIte, true_and]
      rw [if_neg broken]
    obtain ⟨next, later, reached, inLineNext⟩ :=
      exists_dropWhile_foldSingle fits inLine indent (column + 1) tail
    rw [written, List.cons_append, readQuoted_space false reached inLineNext,
      restoredBehind (column + 1)]
    rfl

theorem RestoresSingle.visible {first : Char} (visible : isVisible first = true)
    (dark : first ≠ ' ') (restored : RestoresSingle indent tail rest) :
    RestoresSingle indent tail (first :: rest) := by
  intro column previous _
  have notFeed : first ≠ '\n' := by
    rintro rfl
    exact absurd visible (by decide)
  have restoredBehind : ∀ column, readQuoted false
      (foldSingle indent column (some first) rest ++ '\'' :: tail) = .ok (rest, tail) :=
    fun column => restored column (some first) (by simp [notFeed])
  by_cases quote : first = '\''
  · subst quote
    have written : foldSingle indent column previous ('\'' :: rest) =
        '\'' :: '\'' :: foldSingle indent (column + 2) (some '\'') rest := by
      simp [foldSingle]
    rw [written, List.cons_append, List.cons_append, readQuoted_quote, restoredBehind]
    rfl
  · have written : foldSingle indent column previous (first :: rest) =
        first :: foldSingle indent (column + 1) (some first) rest := by
      simp [foldSingle, dark, notFeed, quote]
    rw [written, List.cons_append,
      readQuoted_visible visible dark (by simp [quoteMarks, quote]), restoredBehind]
    rfl

theorem ContinuesSingle.newline (behind : ContinuesSingle indent tail rest) :
    ContinuesSingle indent tail ('\n' :: rest) := by
  obtain ⟨breaks, start, taken, read⟩ := behind
  refine ⟨'\n' :: breaks, start, ?_, ?_⟩
  · have written : continueSingle indent ('\n' :: rest) = '\n' :: continueSingle indent rest := by
      rw [continueSingle, if_pos List.head?_cons, foldSingle_newline, if_pos rfl, List.nil_append]
    rw [written, List.cons_append, takeEmptyLines_newline, taken]
  · rw [prepend_cons, read]
    rfl

/-- A line that is not empty is read back as the text is from its start. -/
theorem ContinuesSingle.of_restores {text : List Char} (fits : barsSingle text = false)
    (notFeed : text.head? ≠ some '\n') (dark : text.head? ≠ some ' ')
    (restored : RestoresSingle indent tail text) : ContinuesSingle indent tail text := by
  have again := restored indent (some '\n') (by simp [notFeed])
  refine ⟨[], foldSingle indent indent (some '\n') text ++ '\'' :: tail, ?_, ?_⟩
  · rw [continueSingle, if_neg notFeed, List.append_assoc]
    cases text with
    | nil => exact takeEmptyLines_spaces indent (by decide) (by decide)
    | cons first rest =>
        have notBlank : first ≠ ' ' := by simpa using dark
        have inLine : first ≠ '\n' := by simpa using notFeed
        have visible : isVisible first = true := by
          simpa [inLine] using isSpecial_eq_false_iff.1 (barsSingle_cons fits).1
        obtain ⟨more, start⟩ :=
          foldSingle_cons_of_dark notBlank inLine indent indent (some '\n') rest
        rw [start, List.cons_append]
        exact takeEmptyLines_spaces indent (by simp [isWhite_of_isVisible visible, notBlank])
          (isBreak_of_isVisible visible)
  · rw [prepend_nil, again]

end

/-- Both ways of reading a text back carry the induction: a run of line breaks is taken as one, so
the text behind a break is not read from its start. -/
theorem restoresSingle_and_continuesSingle {indent : Nat} {text : List Char}
    (fits : barsSingle text = false) {tail : List Char} (follows : tail.head? ≠ some '\'') :
    RestoresSingle indent tail text ∧
      (text.head? ≠ some ' ' → ContinuesSingle indent tail text) := by
  induction text with
  | nil =>
      have restored : RestoresSingle indent tail [] := .nil follows
      exact ⟨restored, fun dark => .of_restores fits (by simp) dark restored⟩
  | cons first rest ih =>
      obtain ⟨plain, space, newline, fitsRest⟩ := barsSingle_cons fits
      obtain ⟨restoredRest, continuesRest⟩ := ih fitsRest
      by_cases feed : first = '\n'
      · subst feed
        have behind := continuesRest (newline rfl)
        exact ⟨.newline behind, fun _ => .newline behind⟩
      · have restored : RestoresSingle indent tail (first :: rest) := by
          by_cases blank : first = ' '
          · subst blank
            exact .space fitsRest (space rfl) restoredRest
          · have visible : isVisible first = true := by
              simpa [feed] using isSpecial_eq_false_iff.1 plain
            exact .visible visible blank restoredRest
        exact ⟨restored, fun dark => .of_restores fits (by simpa using feed) dark restored⟩

/-- A text in single quotes is read back. -/
theorem readQuoted_foldSingle (indent column : Nat) {text : List Char}
    (fits : barsSingle text = false) {tail : List Char} (follows : tail.head? ≠ some '\'') :
    readQuoted false (foldSingle indent column none text ++ '\'' :: tail) = .ok (text, tail) :=
  (restoresSingle_and_continuesSingle fits follows).1 column none (by simp)

/-! ### Double quotes -/

theorem escapeMarks_of_isEscaped {first : Char} (bare : isEscaped first = false) :
    isVisible first = true ∧ first ∉ quoteMarks true := by
  simp only [isEscaped, Bool.or_eq_false_iff, beq_eq_false_iff_ne] at bare
  obtain ⟨⟨⟨notFeed, notQuote⟩, notMark⟩, plain⟩ := bare
  refine ⟨by simpa [notFeed] using isSpecial_eq_false_iff.1 plain, ?_⟩
  simp [quoteMarks, notQuote, notMark]

/-- An escaped line break vanishes with the indentation behind it. -/
theorem readQuoted_escapedNewline (indent : Nat) {first : Char} {rest : List Char}
    (dark : isWhite first = false) (inLine : isBreak first = false) :
    readQuoted true ('\\' :: '\n' :: (spaces indent ++ first :: rest)) =
      readQuoted true (first :: rest) := by
  have escaped : readEscape ('\n' :: (spaces indent ++ first :: rest)) =
      .ok ([], first :: rest) := by
    have taken : takeEmptyLines (spaces indent ++ first :: rest) = ([], first :: rest) :=
      takeEmptyLines_spaces indent dark inLine
    simp [readEscape, shortEscape?, codeWidth?, isBreak, taken]
  rw [readQuoted_escape escaped, prepend_nil]

/-- A character behind an escaped line break is read back, a space by its own escape. -/
theorem readQuoted_escapedBreak (indent : Nat) {first : Char} (bare : isEscaped first = false)
    (rest : List Char) :
    readQuoted true (escapedBreak indent (some first) ++ first :: rest) =
      prepend [first] (readQuoted true rest) := by
  obtain ⟨visible, unmarked⟩ := escapeMarks_of_isEscaped bare
  by_cases blank : first = ' '
  · subst blank
    have escaped : readEscape (' ' :: rest) = .ok ([' '], rest) := rfl
    have written : escapedBreak indent (some ' ') ++ ' ' :: rest =
        '\\' :: '\n' :: (spaces indent ++ '\\' :: ' ' :: rest) := by
      simp [escapedBreak]
    rw [written, readQuoted_escapedNewline indent (by decide) (by decide),
      readQuoted_escape escaped]
  · have written : escapedBreak indent (some first) ++ first :: rest =
        '\\' :: '\n' :: (spaces indent ++ first :: rest) := by
      simp [escapedBreak, blank]
    rw [written, readQuoted_escapedNewline indent
      (by simp [isWhite_of_isVisible visible, blank]) (isBreak_of_isVisible visible),
      readQuoted_visible visible blank unmarked]

theorem foldDouble_of_isEscaped {first : Char} (escaped : isEscaped first = true)
    (indent column pending : Nat) (isFirst : Bool) (rest : List Char) :
    (foldDouble indent column pending isFirst (first :: rest) =
        escape first ++ (escapedBreak indent rest.head? ++
          foldDouble indent (columnAfterBreak indent rest.head?) 0 false rest)) ∨
      ∃ reached, foldDouble indent column pending isFirst (first :: rest) =
        escape first ++ foldDouble indent reached 0 false rest := by
  simp only [foldDouble, escaped, ↓reduceIte]
  split
  · exact .inl (List.append_assoc _ _ _)
  · exact .inr ⟨_, rfl⟩

theorem foldDouble_of_bare {first : Char} (bare : isEscaped first = false)
    (indent column pending : Nat) (isFirst : Bool) (rest : List Char) :
    ∃ reached count, foldDouble indent column pending isFirst (first :: rest) =
        escapedBreak indent (some first) ++ first :: foldDouble indent reached count false rest ∨
      foldDouble indent column pending isFirst (first :: rest) =
        first :: foldDouble indent reached count false rest := by
  simp only [foldDouble, bare, ↓reduceIte, Bool.false_eq_true]
  split
  · exact ⟨_, _, .inl rfl⟩
  · exact ⟨_, _, .inr rfl⟩

/-- A line is not broken again right behind a break. -/
theorem foldDouble_of_short {indent column : Nat} (short : column ≤ lineWidth) {first : Char}
    (bare : isEscaped first = false) (isFirst : Bool) (rest : List Char) :
    foldDouble indent column 0 isFirst (first :: rest) =
      first :: foldDouble indent column 1 false rest := by
  have fits : ¬ lineWidth < column := Nat.not_lt.2 short
  simp [foldDouble, bare, fits]

theorem exists_escape_eq (character : Char) : ∃ tail, escape character = '\\' :: tail := by
  obtain ⟨tail, written, -⟩ := readEscape_escape character []
  exact ⟨tail, written⟩

/-- Line breaks between double quotes are escaped, so no bare one follows white space. -/
theorem exists_dropWhile_foldDouble (indent column pending : Nat) (isFirst : Bool)
    (text tail : List Char) :
    ∃ next later, (foldDouble indent column pending isFirst text ++ '"' :: tail).dropWhile isWhite =
      next :: later ∧ isBreak next = false := by
  induction text generalizing column pending isFirst with
  | nil => exact ⟨'"', tail, rfl, by decide⟩
  | cons first rest ih =>
      have marked : ∀ more, ∃ next later, ('\\' :: more).dropWhile isWhite = next :: later ∧
          isBreak next = false :=
        fun more => ⟨'\\', more, List.dropWhile_cons_of_neg (by decide), by decide⟩
      by_cases escaped : isEscaped first = true
      · obtain ⟨code, spelled⟩ := exists_escape_eq first
        rcases foldDouble_of_isEscaped escaped indent column pending isFirst rest with
          written | ⟨reached, written⟩
        · rw [written, spelled]
          exact marked _
        · rw [written, spelled]
          exact marked _
      · have bare : isEscaped first = false := by simpa using escaped
        obtain ⟨reached, count, written | written⟩ :=
          foldDouble_of_bare bare indent column pending isFirst rest
        · rw [written]
          exact marked _
        · rw [written, List.cons_append]
          by_cases blank : first = ' '
          · subst blank
            exact ih reached count false
          · have visible := (escapeMarks_of_isEscaped bare).1
            refine ⟨first, _, List.dropWhile_cons_of_neg ?_, isBreak_of_isVisible visible⟩
            simp [isWhite_of_isVisible visible, blank]

/-- A text between double quotes is read back, in whatever column it starts. -/
def RestoresDouble (indent : Nat) (tail text : List Char) : Prop :=
  ∀ column pending isFirst,
    readQuoted true (foldDouble indent column pending isFirst text ++ '"' :: tail) =
      .ok (text, tail)

/-- A text between double quotes is read back behind an escaped line break. -/
def ContinuesDouble (indent : Nat) (tail text : List Char) : Prop :=
  readQuoted true (escapedBreak indent text.head? ++
    foldDouble indent (columnAfterBreak indent text.head?) 0 false text ++ '"' :: tail) =
      .ok (text, tail)

section

variable {indent : Nat} {tail rest : List Char} {first : Char}

theorem RestoresDouble.nil : RestoresDouble indent tail [] :=
  fun _ _ _ => readQuoted_close_double tail

theorem RestoresDouble.escaped (escaped : isEscaped first = true)
    (restored : RestoresDouble indent tail rest) (continues : ContinuesDouble indent tail rest) :
    RestoresDouble indent tail (first :: rest) := by
  intro column pending isFirst
  rcases foldDouble_of_isEscaped escaped indent column pending isFirst rest with
    written | ⟨reached, written⟩
  · obtain ⟨code, spelled, read⟩ := readEscape_escape first (escapedBreak indent rest.head? ++
      foldDouble indent (columnAfterBreak indent rest.head?) 0 false rest ++ '"' :: tail)
    rw [written, spelled, List.append_assoc, List.cons_append, readQuoted_escape read, continues]
    rfl
  · obtain ⟨code, spelled, read⟩ := readEscape_escape first
      (foldDouble indent reached 0 false rest ++ '"' :: tail)
    rw [written, spelled, List.append_assoc, List.cons_append, readQuoted_escape read, restored]
    rfl

theorem RestoresDouble.bare (bare : isEscaped first = false)
    (restored : RestoresDouble indent tail rest) :
    RestoresDouble indent tail (first :: rest) := by
  intro column pending isFirst
  obtain ⟨reached, count, written | written⟩ :=
    foldDouble_of_bare bare indent column pending isFirst rest
  · rw [written, List.append_assoc, List.cons_append, readQuoted_escapedBreak indent bare,
      restored]
    rfl
  · rw [written, List.cons_append]
    by_cases blank : first = ' '
    · subst blank
      obtain ⟨next, later, reachedNext, inLine⟩ :=
        exists_dropWhile_foldDouble indent reached count false rest tail
      rw [readQuoted_space true reachedNext inLine, restored]
      rfl
    · obtain ⟨visible, unmarked⟩ := escapeMarks_of_isEscaped bare
      rw [readQuoted_visible visible blank unmarked, restored]
      rfl

theorem ContinuesDouble.nil : ContinuesDouble indent tail [] := by
  have written : escapedBreak indent none ++
      foldDouble indent (columnAfterBreak indent none) 0 false [] ++ '"' :: tail =
      '\\' :: '\n' :: (spaces indent ++ '"' :: tail) := by
    simp [escapedBreak, foldDouble]
  rw [ContinuesDouble, List.head?_nil, written,
    readQuoted_escapedNewline indent (by decide) (by decide), readQuoted_close_double]

theorem ContinuesDouble.bare (narrow : indent < lineWidth) (bare : isEscaped first = false)
    (restored : RestoresDouble indent tail rest) :
    ContinuesDouble indent tail (first :: rest) := by
  have short : columnAfterBreak indent (some first) ≤ lineWidth := by
    unfold columnAfterBreak
    split <;> omega
  rw [ContinuesDouble, List.head?_cons, foldDouble_of_short short bare, List.append_assoc,
    List.cons_append, readQuoted_escapedBreak indent bare, restored]
  rfl

/-- What starts with an escape needs no further one behind a break. -/
theorem ContinuesDouble.escaped (escaped : isEscaped first = true)
    (restored : RestoresDouble indent tail (first :: rest)) :
    ContinuesDouble indent tail (first :: rest) := by
  have notBlank : first ≠ ' ' := by
    rintro rfl
    exact absurd escaped (by decide)
  have broken : escapedBreak indent (some first) = '\\' :: '\n' :: spaces indent := by
    simp [escapedBreak, notBlank]
  have again := restored (columnAfterBreak indent (some first)) 0 false
  obtain ⟨code, spelled⟩ := exists_escape_eq first
  have starts : ∃ more, foldDouble indent (columnAfterBreak indent (some first)) 0 false
      (first :: rest) = '\\' :: more := by
    rcases foldDouble_of_isEscaped escaped indent (columnAfterBreak indent (some first)) 0 false
      rest with written | ⟨reached, written⟩
    · rw [written, spelled]
      exact ⟨_, rfl⟩
    · rw [written, spelled]
      exact ⟨_, rfl⟩
  obtain ⟨more, written⟩ := starts
  rw [written, List.cons_append] at again
  rw [ContinuesDouble, List.head?_cons, broken, written, List.append_assoc, List.cons_append,
    List.cons_append, List.cons_append, readQuoted_escapedNewline indent (by decide) (by decide),
    again]

end

/-- Both ways of reading a text back carry the induction, because a break is escaped together with
the space behind it. -/
theorem restoresDouble_and_continuesDouble {indent : Nat} (narrow : indent < lineWidth)
    (tail text : List Char) :
    RestoresDouble indent tail text ∧ ContinuesDouble indent tail text := by
  induction text with
  | nil => exact ⟨.nil, .nil⟩
  | cons first rest ih =>
      obtain ⟨restored, continues⟩ := ih
      by_cases escaped : isEscaped first = true
      · have restoredAll := RestoresDouble.escaped escaped restored continues
        exact ⟨restoredAll, .escaped escaped restoredAll⟩
      · have bare : isEscaped first = false := by simpa using escaped
        exact ⟨.bare bare restored, .bare narrow bare restored⟩

/-- A text in double quotes is read back. -/
theorem readQuoted_foldDouble {indent : Nat} (narrow : indent < lineWidth) (column : Nat)
    (text tail : List Char) :
    readQuoted true (foldDouble indent column 0 true text ++ '"' :: tail) = .ok (text, tail) :=
  (restoresDouble_and_continuesDouble narrow tail text).1 column 0 true

end ClosureCapture.Yaml
