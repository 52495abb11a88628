import ClosureCapture.Proofs.Yaml.Escape

/-!
# Texts without quotes are read back

A text without quotes is broken at spaces that stand alone, and the next line is indented.  The
reader takes it chunk by chunk; it goes on behind a gap unless the next line is not indented deep
enough.  This file proves that a text which may be written without quotes is read back, up to the
end of its last line.
-/

namespace ClosureCapture.Yaml

/-- A character of a chunk: visible, and no space. -/
structure IsDark (character : Char) : Prop where
  visible : isVisible character = true
  notBlank : character ≠ ' '

namespace IsDark

variable {first : Char}

theorem isWhite (dark : IsDark first) : isWhite first = false := by
  simp [isWhite_of_isVisible dark.visible, dark.notBlank]

theorem isBreak (dark : IsDark first) : isBreak first = false :=
  isBreak_of_isVisible dark.visible

theorem startsWithGap (dark : IsDark first) (rest : List Char) :
    startsWithGap (first :: rest) = false := by
  simp [Yaml.startsWithGap, dark.isWhite, dark.isBreak]

end IsDark

theorem barsPlain_cons {first : Char} {rest : List Char}
    (fits : barsPlain (first :: rest) = false) :
    isVisible first = true ∧ (first = ':' → startsWithGap rest = false) ∧
      (first = ' ' → rest ≠ [] ∧ rest.head? ≠ some '#') ∧ barsPlain rest = false := by
  simp only [barsPlain, Bool.or_eq_false_iff, Bool.and_eq_false_iff, beq_eq_false_iff_ne] at fits
  obtain ⟨⟨⟨⟨notFeed, plain⟩, colon⟩, space⟩, rest⟩ := fits
  refine ⟨by simpa [notFeed] using isSpecial_eq_false_iff.1 plain, ?_, ?_, rest⟩
  · rintro rfl
    simpa using colon
  · rintro rfl
    simpa using space

/-! ### Chunks and gaps of the reader -/

theorem takeChunk_dark {first : Char} (dark : IsDark first) {rest : List Char}
    (colon : first = ':' → startsWithGap rest = false) :
    takeChunk false (first :: rest) =
      (first :: (takeChunk false rest).1, (takeChunk false rest).2) := by
  have goesOn : (first == ':' && endsAtColon false rest) = false := by
    by_cases isColon : first = ':'
    · simp [endsAtColon, colon isColon]
    · simp [isColon]
  simp [takeChunk, dark.isWhite, dark.isBreak, goesOn]

theorem takePlainLines_spaces (start width : Nat) {first : Char} (dark : IsDark first)
    (rest : List Char) :
    takePlainLines start (spaces width ++ first :: rest) = ([], start + width, first :: rest) := by
  induction width generalizing start with
  | zero => simp [spaces, takePlainLines, dark.notBlank, dark.isBreak]
  | succ width ih =>
      have unfolded : spaces (width + 1) = ' ' :: spaces width := rfl
      rw [unfolded, List.cons_append, takePlainLines, if_pos rfl, ih]
      congr 2
      omega

/-- The text behind a line break at which a scalar in a block of the given floor ends. -/
def EndsBlock (floor : Nat) (rest : List Char) : Prop :=
  (takePlainLines 0 rest).2.1 < floor

theorem takeGap_end {floor : Nat} {rest : List Char} (ends : EndsBlock floor rest) :
    takeGap false floor ('\n' :: rest) = none := by
  have shallow : (takePlainLines 0 rest).2.1 < floor := ends
  simp [takeGap, isBreak, shallow]

theorem takeGap_broken {floor indent : Nat} (deep : floor ≤ indent) {first : Char}
    (dark : IsDark first) (notSign : first ≠ '#') (rest : List Char) :
    takeGap false floor ('\n' :: (spaces indent ++ first :: rest)) =
      some ([' '], first :: rest) := by
  have lines := takePlainLines_spaces 0 indent dark rest
  simp [takeGap, isBreak, lines, deep, notSign, foldBreaks]

theorem takeGap_spaces (floor count : Nat) {first : Char} (dark : IsDark first)
    (notSign : first ≠ '#') (rest : List Char) :
    takeGap false floor (spaces (count + 1) ++ first :: rest) =
      some (spaces (count + 1), first :: rest) := by
  have blank : ∀ space ∈ spaces (count + 1), (space == ' ') = true := by
    intro space member
    rw [List.eq_of_mem_replicate member]
    rfl
  have dropped : (spaces (count + 1) ++ first :: rest).dropWhile (· == ' ') = first :: rest := by
    rw [List.dropWhile_append_of_pos blank]
    simp [dark.notBlank]
  have taken : (spaces (count + 1) ++ first :: rest).takeWhile (· == ' ') =
      spaces (count + 1) := by
    rw [List.takeWhile_append_of_pos blank]
    simp [dark.notBlank]
  simp only [takeGap, dropped, taken, dark.isBreak]
  simp [spaces, notSign]

theorem readPlain_end {floor : Nat} {text chunk after : List Char}
    (taken : takeChunk false text = (chunk, after)) (ends : takeGap false floor after = none) :
    readPlain false floor text = (chunk, after) := by
  rw [readPlain.eq_def]
  split
  · next after' nothing => exact nothing.symm.trans taken
  · next first chunk' after' something =>
      obtain ⟨rfl, rfl⟩ := Prod.mk.inj (something.symm.trans taken)
      split
      · rfl
      · next gap start found => simp [ends] at found

theorem readPlain_gap {floor : Nat} {text chunk after gap start content later : List Char}
    (taken : takeChunk false text = (chunk, after)) (nonempty : chunk ≠ [])
    (goesOn : takeGap false floor after = some (gap, start))
    (read : readPlain false floor start = (content, later)) (something : content ≠ []) :
    readPlain false floor text = (chunk ++ gap ++ content, later) := by
  rw [readPlain.eq_def]
  split
  · next after' nothing =>
      exact absurd (Prod.mk.inj (nothing.symm.trans taken)).1.symm nonempty
  · next first chunk' after' found =>
      obtain ⟨rfl, rfl⟩ := Prod.mk.inj (found.symm.trans taken)
      split
      · next ends => simp [goesOn] at ends
      · next gap' start' found =>
          obtain ⟨rfl, rfl⟩ := Prod.mk.inj (Option.some.inj (found.symm.trans goesOn))
          split
          · next later' empty =>
              exact absurd (Prod.mk.inj (empty.symm.trans read)).1.symm something
          · next content' later' _ full =>
              obtain ⟨rfl, rfl⟩ := Prod.mk.inj (full.symm.trans read)
              rfl

/-! ### Chunks and gaps of the writer -/

theorem foldPlain_chunk {chunk : List Char} (nonempty : chunk ≠ [])
    (dark : ∀ part ∈ chunk, part ≠ ' ') (indent column : Nat) (afterSpace : Bool)
    (rest : List Char) :
    ∃ reached, foldPlain indent column afterSpace (chunk ++ rest) =
      chunk ++ foldPlain indent reached false rest := by
  induction chunk generalizing column afterSpace with
  | nil => exact absurd rfl nonempty
  | cons first chunk ih =>
      have notBlank : first ≠ ' ' := dark first (by simp)
      have written : foldPlain indent column afterSpace (first :: (chunk ++ rest)) =
          first :: foldPlain indent (column + 1) false (chunk ++ rest) := by
        simp [foldPlain, notBlank, beq_eq_false_iff_ne.2 notBlank]
      rw [List.cons_append, written]
      cases chunk with
      | nil => exact ⟨column + 1, rfl⟩
      | cons second chunk =>
          obtain ⟨reached, later⟩ :=
            ih (by simp) (fun part member => dark part (by simp [member])) (column + 1) false
          exact ⟨reached, by rw [later]; rfl⟩

theorem foldPlain_spaces (indent column count : Nat) (rest : List Char) :
    foldPlain indent column true (spaces count ++ rest) =
      spaces count ++ foldPlain indent (column + count) true rest := by
  induction count generalizing column with
  | zero => rfl
  | succ count ih =>
      have unfolded : spaces (count + 1) = ' ' :: spaces count := rfl
      have written : foldPlain indent column true (' ' :: (spaces count ++ rest)) =
          ' ' :: foldPlain indent (column + 1) true (spaces count ++ rest) := by
        simp [foldPlain]
      rw [unfolded, List.cons_append, written, ih, List.cons_append]
      congr 3
      omega

/-- A gap is written as it is, or as a line break if it is one space. -/
theorem foldPlain_gap (indent column count : Nat) {next : Char} (dark : next ≠ ' ')
    (rest : List Char) :
    ∃ gap reached, foldPlain indent column false (spaces (count + 1) ++ next :: rest) =
        gap ++ foldPlain indent reached true (next :: rest) ∧
      (gap = spaces (count + 1) ∨ count = 0 ∧ gap = '\n' :: spaces indent) := by
  have unfolded : spaces (count + 1) = ' ' :: spaces count := rfl
  rw [unfolded, List.cons_append]
  cases count with
  | zero =>
      by_cases broken : lineWidth < column
      · refine ⟨'\n' :: spaces indent, indent, ?_, .inr ⟨rfl, rfl⟩⟩
        simp [spaces, foldPlain, dark, broken]
      · refine ⟨spaces 1, column + 1, ?_, .inl rfl⟩
        simp [spaces, foldPlain, broken]
  | succ count =>
      refine ⟨spaces (count + 2), column + 1 + (count + 1), ?_, .inl rfl⟩
      have written : foldPlain indent column false (' ' :: (spaces (count + 1) ++ next :: rest)) =
          ' ' :: foldPlain indent (column + 1) true (spaces (count + 1) ++ next :: rest) := by
        simp [foldPlain, spaces, List.replicate_succ]
      rw [written, foldPlain_spaces]
      rfl

/-! ### Reading a text back -/

theorem exists_gap {rest : List Char} (fits : barsPlain (' ' :: rest) = false) :
    ∃ count next later, ' ' :: rest = spaces (count + 1) ++ next :: later ∧ next ≠ ' ' ∧
      next ≠ '#' ∧ barsPlain (next :: later) = false := by
  induction rest with
  | nil => simp [barsPlain] at fits
  | cons next later ih =>
      obtain ⟨-, -, space, fitsRest⟩ := barsPlain_cons fits
      by_cases blank : next = ' '
      · subst blank
        obtain ⟨count, next, rest, split, conditions⟩ := ih fitsRest
        exact ⟨count + 1, next, rest, by rw [split]; rfl, conditions⟩
      · exact ⟨0, next, later, rfl, blank, by simpa using (space rfl).2, fitsRest⟩

/-- A text that starts with no space is a chunk, or a chunk with a gap and more text. -/
theorem exists_chunk {first : Char} {rest : List Char} (fits : barsPlain (first :: rest) = false)
    (dark : first ≠ ' ') :
    ∃ chunk, chunk ≠ [] ∧ (∀ part ∈ chunk, part ≠ ' ') ∧
      (first :: rest = chunk ∨ ∃ count next later, next ≠ ' ' ∧ next ≠ '#' ∧
        barsPlain (next :: later) = false ∧
        first :: rest = chunk ++ (spaces (count + 1) ++ next :: later)) := by
  induction rest generalizing first with
  | nil => exact ⟨[first], by simp, by simpa using dark, .inl rfl⟩
  | cons second rest ih =>
      have fitsRest := (barsPlain_cons fits).2.2.2
      by_cases blank : second = ' '
      · subst blank
        obtain ⟨count, next, later, split, notBlank, notSign, fitsLater⟩ := exists_gap fitsRest
        refine ⟨[first], by simp, by simpa using dark,
          .inr ⟨count, next, later, notBlank, notSign, fitsLater, ?_⟩⟩
        rw [split]
        rfl
      · obtain ⟨chunk, nonempty, darkChunk, split⟩ := ih fitsRest blank
        refine ⟨first :: chunk, by simp, ?_, ?_⟩
        · intro part member
          rcases List.mem_cons.1 member with rfl | later
          · exact dark
          · exact darkChunk part later
        · rcases split with split | ⟨count, next, later, notBlank, notSign, fitsLater, split⟩
          · exact .inl (by rw [split])
          · exact .inr ⟨count, next, later, notBlank, notSign, fitsLater, by rw [split]; rfl⟩

theorem takeChunk_chunk {chunk rest : List Char} (fits : barsPlain (chunk ++ rest) = false)
    (dark : ∀ part ∈ chunk, part ≠ ' ') (gap : startsWithGap rest = true) {written : List Char}
    (stops : takeChunk false written = ([], written)) :
    takeChunk false (chunk ++ written) = (chunk, written) := by
  induction chunk with
  | nil => exact stops
  | cons first chunk ih =>
      obtain ⟨visible, colon, -, fitsRest⟩ := barsPlain_cons fits
      have darkFirst : IsDark first := ⟨visible, dark first (by simp)⟩
      have later := ih fitsRest fun part member => dark part (by simp [member])
      have goesOn : first = ':' → startsWithGap (chunk ++ written) = false := by
        intro isColon
        have behind := colon isColon
        cases chunk with
        | nil => simp [gap] at behind
        | cons second chunk => exact behind
      rw [List.cons_append, takeChunk_dark darkFirst goesOn, later]

/-- A chunk and the gap behind it are read back if what follows them is. -/
theorem readPlain_chunk {floor indent : Nat} (deep : floor ≤ indent) {chunk : List Char}
    (nonempty : chunk ≠ []) (darkChunk : ∀ part ∈ chunk, part ≠ ' ') {count : Nat} {next : Char}
    {later : List Char} (fits : barsPlain (chunk ++ (spaces (count + 1) ++ later)) = false)
    (dark : IsDark next) (notSign : next ≠ '#') {gap : List Char}
    (shape : gap = spaces (count + 1) ∨ count = 0 ∧ gap = '\n' :: spaces indent)
    {more content after : List Char}
    (read : readPlain false floor (next :: more) = (content, after)) (something : content ≠ []) :
    readPlain false floor (chunk ++ (gap ++ next :: more)) =
      (chunk ++ spaces (count + 1) ++ content, after) := by
  have taken : takeChunk false (chunk ++ (gap ++ next :: more)) = (chunk, gap ++ next :: more) := by
    refine takeChunk_chunk fits darkChunk rfl ?_
    rcases shape with rfl | ⟨-, rfl⟩
    · rfl
    · rfl
  have goesOn : takeGap false floor (gap ++ next :: more) =
      some (spaces (count + 1), next :: more) := by
    rcases shape with rfl | ⟨rfl, rfl⟩
    · exact takeGap_spaces floor count dark notSign more
    · exact takeGap_broken deep dark notSign more
  exact readPlain_gap taken nonempty goesOn read something

/-- A text that may stand without quotes is read back up to the end of its last line. -/
theorem readPlain_foldPlain {floor indent : Nat} (deep : floor ≤ indent) {tail : List Char}
    (ends : EndsBlock floor tail) {first : Char} {rest : List Char}
    (fits : barsPlain (first :: rest) = false) (dark : first ≠ ' ') (column : Nat)
    (afterSpace : Bool) :
    readPlain false floor (foldPlain indent column afterSpace (first :: rest) ++ '\n' :: tail) =
      (first :: rest, '\n' :: tail) := by
  -- The induction is on the length, because a chunk and its gap are taken at once.
  induction length : rest.length using Nat.strongRecOn
    generalizing first rest column afterSpace with
  | ind size ih =>
      obtain ⟨chunk, nonempty, darkChunk, whole | more⟩ := exists_chunk fits dark
      · have fitsChunk : barsPlain (chunk ++ []) = false := by
          rw [List.append_nil, ← whole]
          exact fits
        have taken : takeChunk false (chunk ++ '\n' :: tail) = (chunk, '\n' :: tail) :=
          takeChunk_chunk fitsChunk darkChunk rfl rfl
        obtain ⟨reached, written⟩ :=
          foldPlain_chunk nonempty darkChunk indent column afterSpace []
        rw [List.append_nil, foldPlain, List.append_nil] at written
        rw [whole, written]
        exact readPlain_end taken (takeGap_end ends)
      · obtain ⟨count, next, later, notBlank, notSign, fitsLater, whole⟩ := more
        have darkNext : IsDark next := ⟨(barsPlain_cons fitsLater).1, notBlank⟩
        have shorter : later.length < size := by
          have lengths := congrArg List.length whole
          have positive := List.length_pos_iff.2 nonempty
          simp only [List.length_append, List.length_cons, spaces, List.length_replicate]
            at lengths
          omega
        obtain ⟨reached, written⟩ := foldPlain_chunk nonempty darkChunk indent column afterSpace
          (spaces (count + 1) ++ next :: later)
        obtain ⟨gap, column', writtenGap, shape⟩ :=
          foldPlain_gap indent reached count notBlank later
        obtain ⟨more, start⟩ : ∃ more, foldPlain indent column' true (next :: later) =
            next :: more := by
          simp [foldPlain, notBlank]
        have readLater := ih later.length shorter fitsLater notBlank column' true rfl
        rw [start, List.cons_append] at readLater
        have read := readPlain_chunk deep nonempty darkChunk (whole ▸ fits) darkNext notSign shape
          readLater (by simp)
        rw [whole, written, writtenGap, start]
        simpa only [List.append_assoc, List.cons_append] using read

end ClosureCapture.Yaml
