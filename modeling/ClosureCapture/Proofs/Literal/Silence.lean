import ClosureCapture.Proofs.Literal.Closing

/-!
# Where no comment or literal starts

A comment starts with a slash and a literal with a quote, before which `b`, `r` and hashes may
stand.  In a text without slashes and quotes, none starts unless the next character completes one.
Where none starts in a text, none starts when characters are appended that cannot complete one.
-/

namespace ClosureCapture

/-- A character that is in the first part of a text and not in the second lies in the first. -/
theorem exists_of_append_eq_append_cons {text tail front rest : List Char} {mark : Char}
    (same : text ++ tail = front ++ mark :: rest) (absent : mark ∉ tail) :
    ∃ after, text = front ++ mark :: after := by
  rcases List.append_eq_append_iff.1 same with ⟨middle, -, later⟩ | ⟨middle, split, later⟩
  · exact absurd (later ▸ List.mem_append_right middle List.mem_cons_self) absent
  · cases middle with
    | nil =>
        rw [List.nil_append] at later
        exact absurd (later ▸ List.mem_cons_self) absent
    | cons first middle =>
        obtain ⟨rfl, -⟩ := List.cons.inj later
        exact ⟨middle, split⟩

namespace Literal

theorem afterQuoted?_of_ne {first : Char} (noString : first ≠ '"') (noCharacter : first ≠ '\'')
    (rest : List Char) : afterQuoted? (first :: rest) = none := by
  rw [afterQuoted?] <;> simp [noString, noCharacter]

/-! ### Texts without slashes and quotes -/

/-- A character that is no slash and no quote. -/
def IsSoft (character : Char) : Prop :=
  character ∉ ['"', '\'', '/']

instance : DecidablePred IsSoft :=
  fun character => inferInstanceAs (Decidable (character ∉ ['"', '\'', '/']))

theorem afterRaw?_soft {text tail : List Char} {next : Char}
    (soft : ∀ character ∈ text, IsSoft character) (ends : next ∉ ['"', '#']) :
    afterRaw? (text ++ next :: tail) = none := by
  cases found : afterRaw? (text ++ next :: tail) with
  | none => rfl
  | some rest =>
      obtain ⟨hashes, inner, onlyHashes, same, -⟩ := afterRaw?_eq_some_iff.1 found
      exfalso
      rcases List.append_eq_append_iff.1 same with ⟨middle, rfl, later⟩ | ⟨middle, rfl, later⟩
      · cases middle with
        | nil =>
            obtain ⟨rfl, -⟩ := List.cons.inj later
            simp at ends
        | cons first middle =>
            obtain ⟨rfl, -⟩ := List.cons.inj later
            obtain rfl := onlyHashes next (by simp)
            simp at ends
      · cases middle with
        | nil =>
            obtain ⟨rfl, -⟩ := List.cons.inj later
            simp at ends
        | cons first middle =>
            obtain ⟨rfl, -⟩ := List.cons.inj later
            exact soft '"' (by simp) (by decide)

/-- Nothing starts in a text of soft characters, given that the character behind it completes
nothing. -/
theorem after?_soft {first next : Char} {text tail : List Char}
    (soft : ∀ character ∈ first :: text, IsSoft character) (ends : next ∉ ['"', '\'', '#', 'r'])
    (previous : Option Char) : after? previous (first :: (text ++ next :: tail)) = none := by
  have softFirst := soft first List.mem_cons_self
  have softText : ∀ character ∈ text, IsSoft character :=
    fun character member => soft character (List.mem_cons_of_mem _ member)
  simp only [IsSoft, List.mem_cons, List.not_mem_nil, or_false, not_or] at softFirst
  simp only [List.mem_cons, List.not_mem_nil, or_false, not_or] at ends
  have rawEnds : next ∉ ['"', '#'] := by simp [ends]
  have missing : afterLiteral? (first :: (text ++ next :: tail)) = none := by
    by_cases byte : first = 'b'
    · subst byte
      cases text with
      | nil =>
          rw [List.nil_append, afterLiteral?_byte ends.2.2.2]
          exact afterQuoted?_of_ne ends.1 ends.2.1 tail
      | cons second text =>
          have softSecond := softText second List.mem_cons_self
          simp only [IsSoft, List.mem_cons, List.not_mem_nil, or_false, not_or] at softSecond
          by_cases raw : second = 'r'
          · subst raw
            exact afterRaw?_soft (fun character member => softText _ (by simp [member])) rawEnds
          · rw [List.cons_append, afterLiteral?_byte raw]
            exact afterQuoted?_of_ne softSecond.1 softSecond.2.1 _
    by_cases raw : first = 'r'
    · subst raw
      exact afterRaw?_soft softText rawEnds
    · rw [afterLiteral?_other byte raw softFirst.1]
      exact afterQuoted?_of_ne softFirst.1 softFirst.2.1 _
  rw [after?, Comment.after?_of_ne_slash _ softFirst.2.2]
  simp [missing]

/-- Nothing starts at a character that is no mark and no marker. -/
theorem after?_mute {first : Char} (mute : first ∉ ['"', '\'', '/', 'b', 'r'])
    (previous : Option Char) (rest : List Char) : after? previous (first :: rest) = none := by
  simp only [List.mem_cons, List.not_mem_nil, or_false, not_or] at mute
  obtain ⟨noString, noCharacter, noSlash, noByte, noRaw⟩ := mute
  rw [after?, Comment.after?_of_ne_slash _ noSlash, afterLiteral?_other noByte noRaw noString,
    afterQuoted?_of_ne noString noCharacter]
  simp

/-! ### Characters that complete nothing -/

/-- A character that completes no comment or literal. -/
def IsPlain (character : Char) : Prop :=
  character ∉ ['"', '\'', '#', '/', '*', 'r']

section

variable {text tail : List Char}

theorem afterString?_append_plain (absent : '"' ∉ tail) (missing : afterString? text = none) :
    afterString? (text ++ tail) = none := by
  cases found : afterString? (text ++ tail) with
  | none => rfl
  | some rest =>
      obtain ⟨inside, same, closed⟩ := afterString?_closed found
      obtain ⟨after, rfl⟩ := exists_of_append_eq_append_cons same absent
      simp [closed] at missing

theorem afterCharacter?_append_plain (absent : '\'' ∉ tail)
    (missing : afterCharacter? text = none) : afterCharacter? (text ++ tail) = none := by
  cases found : afterCharacter? (text ++ tail) with
  | none => rfl
  | some rest =>
      obtain ⟨front, ⟨content, character, rfl⟩, same⟩ := afterCharacter?_eq_some_iff.1 found
      rw [List.append_assoc, List.singleton_append] at same
      obtain ⟨after, rfl⟩ := exists_of_append_eq_append_cons same absent
      have closed : afterCharacter? (content ++ '\'' :: after) = some after :=
        afterCharacter?_eq_some_iff.2 ⟨_, ⟨content, character, rfl⟩, by simp⟩
      simp [closed] at missing

theorem afterRaw?_append_plain (absent : '"' ∉ tail) (missing : afterRaw? text = none) :
    afterRaw? (text ++ tail) = none := by
  cases found : afterRaw? (text ++ tail) with
  | none => rfl
  | some rest =>
      obtain ⟨hashes, inner, onlyHashes, same, -⟩ := afterRaw?_eq_some_iff.1 found
      obtain ⟨after, rfl⟩ := exists_of_append_eq_append_cons same absent
      have opened := afterRaw?_eq_some_iff.2 ⟨hashes, after, onlyHashes, rfl, rfl⟩
      simp [opened] at missing

theorem afterQuoted?_append_plain {first : Char} (noString : '"' ∉ tail) (noCharacter : '\'' ∉ tail)
    (missing : afterQuoted? (first :: text) = none) :
    afterQuoted? (first :: (text ++ tail)) = none := by
  by_cases string : first = '"'
  · subst string
    exact afterString?_append_plain noString missing
  by_cases character : first = '\''
  · subst character
    exact afterCharacter?_append_plain noCharacter missing
  · exact afterQuoted?_of_ne string character _

/-- Where nothing starts, nothing starts when plain characters are appended. -/
theorem after?_append_plain {previous : Option Char} (nonempty : text ≠ [])
    (plain : ∀ character ∈ tail, IsPlain character) (code : after? previous text = none) :
    after? previous (text ++ tail) = none := by
  obtain ⟨first, text, rfl⟩ := List.exists_cons_of_ne_nil nonempty
  have absent : ∀ mark ∈ ['"', '\'', '#', '/', '*', 'r'], mark ∉ tail :=
    fun mark isMark member => plain mark member isMark
  have noString := absent '"' (by decide)
  have noCharacter := absent '\'' (by decide)
  unfold after? at code ⊢
  split at code
  · simp at code
  next uncommented =>
  have ends : ∀ next ∈ tail.head?, next ≠ '/' ∧ next ≠ '*' := by
    intro next isNext
    have member := List.mem_of_mem_head? isNext
    constructor
    · rintro rfl
      exact absent '/' (by decide) member
    · rintro rfl
      exact absent '*' (by decide) member
  rw [Comment.after?_append_of_head uncommented ends]
  split at code
  · next word => simp [word]
  next free =>
  simp only [free, Bool.false_eq_true, if_false]
  by_cases byte : first = 'b'
  · subst byte
    cases text with
    | nil =>
        cases tail with
        | nil => rfl
        | cons next tail =>
            have notRaw : next ≠ 'r' := by
              rintro rfl
              exact absent 'r' (by decide) List.mem_cons_self
            rw [List.cons_append, List.nil_append, afterLiteral?_byte notRaw]
            apply afterQuoted?_of_ne
            · rintro rfl
              exact noString List.mem_cons_self
            · rintro rfl
              exact noCharacter List.mem_cons_self
    | cons second text =>
        by_cases raw : second = 'r'
        · subst raw
          exact afterRaw?_append_plain noString code
        · rw [afterLiteral?_byte raw] at code
          rw [List.cons_append, List.cons_append, afterLiteral?_byte raw]
          exact afterQuoted?_append_plain noString noCharacter code
  by_cases raw : first = 'r'
  · subst raw
    exact afterRaw?_append_plain noString code
  by_cases quote : first = '"'
  · subst quote
    simp [afterLiteral?] at code
  · rw [afterLiteral?_other byte raw quote] at code
    rw [List.cons_append, afterLiteral?_other byte raw quote]
    exact afterQuoted?_append_plain noString noCharacter code

end

end Literal

end ClosureCapture
