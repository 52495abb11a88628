import ClosureCapture.Json.Printer
import ClosureCapture.Json.Reader
import ClosureCapture.Proofs.Text.Hexadecimal

/-!
# Quoted texts are read back

Between its quotes a text is written character by character: as itself, by a short escape, or by
one or two sixteen-bit units.  The reader collects units first and joins surrogate pairs
afterwards.  So a character is known to the reader by its units, and the proof has two halves: the
units of a text are what is read from its escapes, and joining them gives back the text.
-/

namespace ClosureCapture.Json

/-- The sixteen-bit units of a character: its code, or a surrogate pair. -/
def units (character : Char) : List Nat :=
  let code := character.toNat
  if code < 0x10000 then [code]
  else [0xD800 + (code - 0x10000) / 0x400, 0xDC00 + (code - 0x10000) % 0x400]

theorem units_of_lt {character : Char} (low : character.toNat < 0x10000) :
    units character = [character.toNat] := by
  simp [units, low]

/-! ### Reading units -/

/-- Some codes in front of those that are read. -/
def withCodes (codes : List Nat) :
    Option (List Nat × List Char) → Option (List Nat × List Char) :=
  Option.map fun (later, after) => (codes ++ later, after)

theorem withCodes_append (first second : List Nat) (read : Option (List Nat × List Char)) :
    withCodes first (withCodes second read) = withCodes (first ++ second) read := by
  cases read <;> simp [withCodes]

theorem readCodes_unitEscape {unit : Nat} (fits : unit < 0x10000) (rest : List Char) :
    readCodes (unitEscape unit ++ rest) = withCodes [unit] (readCodes rest) := by
  have read : Text.readHex? (Text.hexDigits 4 unit) = some unit := by
    have fitsDigits : unit < 16 ^ 4 := fits
    rw [Text.readHex?_hexDigits, Nat.mod_eq_of_lt fitsDigits]
  obtain ⟨a, b, c, d, spelled⟩ : ∃ a b c d, Text.hexDigits 4 unit = [a, b, c, d] := by
    simp [Text.hexDigits]
  rw [spelled] at read
  rw [unitEscape, spelled]
  simp only [List.cons_append, List.nil_append, readCodes, read]
  cases readCodes rest <;> rfl

theorem readCodes_short {letter character : Char} (notUnit : letter ≠ 'u')
    (short : shortEscape? letter = some character) (rest : List Char) :
    readCodes ('\\' :: letter :: rest) = withCodes [character.toNat] (readCodes rest) := by
  rw [readCodes]
  · rw [short]
    cases readCodes rest <;> rfl
  · intro _ _ _ _ _ same
    exact absurd same notUnit

theorem readCodes_plain {character : Char} (printable : 32 ≤ character.toNat)
    (notQuote : character ≠ '"') (notEscape : character ≠ '\\') (rest : List Char) :
    readCodes (character :: rest) = withCodes [character.toNat] (readCodes rest) := by
  have allowed : (character.toNat < 0x20 || character == '\\') = false := by
    simp only [Bool.or_eq_false_iff, decide_eq_false_iff_not, beq_eq_false_iff_ne]
    exact ⟨by omega, notEscape⟩
  rw [readCodes]
  · rw [allowed]
    cases readCodes rest <;> rfl
  · exact notQuote
  · intro _ _ _ _ _ same
    exact absurd same notEscape
  · intro _ _ same
    exact absurd same notEscape

/-- A character is written by a short escape, as itself, or by its units. -/
theorem escaped_cases (character : Char) :
    (∃ letter, escaped character = ['\\', letter] ∧ letter ≠ 'u' ∧
        shortEscape? letter = some character ∧ character.toNat < 0x10000) ∨
      (escaped character = [character] ∧ 32 ≤ character.toNat ∧ character.toNat < 0x10000 ∧
        character ≠ '"' ∧ character ≠ '\\') ∨
      escaped character = (units character).flatMap unitEscape := by
  by_cases short : character ∈ ['"', '\\', '\n', '\r', '\t', '\x0c', '\x08']
  · left
    simp only [List.mem_cons, List.not_mem_nil, or_false] at short
    rcases short with rfl | rfl | rfl | rfl | rfl | rfl | rfl <;>
      exact ⟨_, rfl, by decide, rfl, by decide⟩
  · right
    simp only [List.mem_cons, List.not_mem_nil, or_false, not_or] at short
    by_cases printable : 32 ≤ character.toNat ∧ character.toNat < 127
    · left
      refine ⟨?_, printable.1, by omega, short.1, short.2.1⟩
      simp [escaped, short, printable]
    · right
      by_cases low : character.toNat < 0x10000
      · simp [escaped, short, printable, low, units]
      · simp [escaped, short, printable, low, units]

/-- Whatever way a character is written, its units are read. -/
theorem readCodes_escaped (character : Char) (rest : List Char) :
    readCodes (escaped character ++ rest) = withCodes (units character) (readCodes rest) := by
  rcases escaped_cases character with ⟨letter, written, notUnit, short, low⟩ |
    ⟨written, printable, low, notQuote, notEscape⟩ | written
  · rw [written, units_of_lt low]
    exact readCodes_short notUnit short rest
  · rw [written, units_of_lt low]
    exact readCodes_plain printable notQuote notEscape rest
  · have valid := Text.toNat_isValid character
    rw [written]
    by_cases low : character.toNat < 0x10000
    · rw [units_of_lt low, List.flatMap_singleton]
      exact readCodes_unitEscape low rest
    · have first : 0xD800 + (character.toNat - 0x10000) / 0x400 < 0x10000 := by omega
      have second : 0xDC00 + (character.toNat - 0x10000) % 0x400 < 0x10000 := by omega
      rw [units, if_neg low, List.flatMap_cons, List.flatMap_singleton, List.append_assoc,
        readCodes_unitEscape first, readCodes_unitEscape second, withCodes_append]
      rfl

theorem readCodes_flatMap_escaped (text rest : List Char) :
    readCodes (text.flatMap escaped ++ '"' :: rest) = some (text.flatMap units, rest) := by
  induction text with
  | nil => simp [readCodes]
  | cons character text ih =>
      rw [List.flatMap_cons, List.append_assoc, readCodes_escaped, ih]
      rfl

/-! ### Joining units -/

theorem joinCodes_cons {code : Nat} (notHigh : isHighSurrogate code = false) (codes : List Nat) :
    joinCodes (code :: codes) = characterOf code :: joinCodes codes := by
  cases codes with
  | nil => rfl
  | cons next codes => simp [joinCodes, notHigh]

theorem joinCodes_units (character : Char) (codes : List Nat) :
    joinCodes (units character ++ codes) = character :: joinCodes codes := by
  have valid := Text.toNat_isValid character
  by_cases low : character.toNat < 0x10000
  · -- A code of the first plane is no half of a pair, so that it stands for itself.
    have notHigh : isHighSurrogate character.toNat = false := by
      simp only [isHighSurrogate, Bool.and_eq_false_iff, decide_eq_false_iff_not]
      omega
    have notLow : isLowSurrogate character.toNat = false := by
      simp only [isLowSurrogate, Bool.and_eq_false_iff, decide_eq_false_iff_not]
      omega
    have itself : characterOf character.toNat = character := by
      simp [characterOf, notHigh, notLow, Char.ofNat_toNat]
    rw [units_of_lt low, List.cons_append, List.nil_append, joinCodes_cons notHigh, itself]
  · have high : isHighSurrogate (0xD800 + (character.toNat - 0x10000) / 0x400) = true := by
      simp only [isHighSurrogate, Bool.and_eq_true, decide_eq_true_eq]
      omega
    have paired : isLowSurrogate (0xDC00 + (character.toNat - 0x10000) % 0x400) = true := by
      simp only [isLowSurrogate, Bool.and_eq_true, decide_eq_true_eq]
      omega
    have joined : joinSurrogates (0xD800 + (character.toNat - 0x10000) / 0x400)
        (0xDC00 + (character.toNat - 0x10000) % 0x400) = character := by
      have code : 0x10000 + (0xD800 + (character.toNat - 0x10000) / 0x400 - 0xD800) * 0x400 +
          (0xDC00 + (character.toNat - 0x10000) % 0x400 - 0xDC00) = character.toNat := by
        omega
      rw [joinSurrogates, code, Char.ofNat_toNat]
    rw [units, if_neg low]
    simp only [List.cons_append, List.nil_append, joinCodes, high, paired, Bool.and_self,
      if_true, joined]

theorem joinCodes_flatMap_units (text : List Char) : joinCodes (text.flatMap units) = text := by
  induction text with
  | nil => rfl
  | cons character text ih => rw [List.flatMap_cons, joinCodes_units, ih]

/-- A quoted text is read back behind its opening quote. -/
theorem readString_escaped (text : String) (rest : List Char) :
    readString (text.toList.flatMap escaped ++ '"' :: rest) = some (text, rest) := by
  simp [readString, readCodes_flatMap_escaped, joinCodes_flatMap_units]

end ClosureCapture.Json
