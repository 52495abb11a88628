import ClosureCapture.Proofs.Text.Hexadecimal
import ClosureCapture.Yaml.Style

/-!
# Escapes

Between double quotes, a character can be written by the digits of its code.  This file proves
that every escape is read back as its character.  It also says which characters are visible: these
need no escape, and escapes are made of them.
-/

namespace ClosureCapture

namespace Yaml

/-- Whether a character is printed as it is: a space or what stands beside it in the first code
table. -/
def isVisible (character : Char) : Bool :=
  ' ' ≤ character && character ≤ '~'

theorem isSpecial_eq_false_iff {character : Char} :
    isSpecial character = false ↔ character = '\n' ∨ isVisible character = true := by
  rw [isSpecial, Bool.not_eq_false', Bool.or_eq_true, beq_iff_eq]
  rfl

theorem isVisible_iff {character : Char} :
    isVisible character = true ↔ 32 ≤ character.toNat ∧ character.toNat ≤ 126 := by
  simp only [isVisible, Bool.and_eq_true, decide_eq_true_eq, Char.le_def,
    UInt32.le_iff_toNat_le]
  exact Iff.rfl

theorem isBreak_of_isVisible {character : Char} (visible : isVisible character = true) :
    isBreak character = false := by
  rw [isVisible_iff] at visible
  have notFeed : character ≠ '\n' := by
    rintro rfl
    exact absurd visible.1 (by decide)
  simp only [isBreak, Bool.or_eq_false_iff, beq_eq_false_iff_ne, ne_eq, notFeed,
    not_false_eq_true, true_and]
  omega

theorem isWhite_of_isVisible {character : Char} (visible : isVisible character = true) :
    isWhite character = (character == ' ') := by
  have notTab : character ≠ '\t' := by
    rintro rfl
    exact absurd visible (by decide)
  simp [isWhite, notTab]

theorem isVisible_of_mem_codeDigits {width : Nat} {character digit : Char}
    (member : digit ∈ codeDigits width character) : isVisible digit = true := by
  have all : ∀ number < 16, isVisible (Text.hexDigit number).toUpper = true := by decide
  rw [codeDigits, List.mem_map] at member
  obtain ⟨lower, member, rfl⟩ := member
  obtain ⟨number, bound, rfl⟩ := Text.exists_of_mem_hexDigits member
  exact all number bound

theorem isVisible_of_escapeLetter? {character letter : Char}
    (short : escapeLetter? character = some letter) : isVisible letter = true := by
  unfold escapeLetter? at short
  split at short
  all_goals cases short
  all_goals decide

theorem isVisible_of_mem_code {letter character part : Char} {width : Nat}
    (visible : isVisible letter = true)
    (member : part ∈ '\\' :: letter :: codeDigits width character) : isVisible part = true := by
  simp only [List.mem_cons] at member
  rcases member with rfl | rfl | digit
  · decide
  · exact visible
  · exact isVisible_of_mem_codeDigits digit

theorem isVisible_of_mem_escape {character part : Char} (member : part ∈ escape character) :
    isVisible part = true := by
  unfold escape at member
  split at member
  · next letter short =>
      simp only [List.mem_cons, List.not_mem_nil, or_false] at member
      rcases member with rfl | rfl
      · decide
      · exact isVisible_of_escapeLetter? short
  split at member
  · exact isVisible_of_mem_code (by decide) member
  split at member
  · exact isVisible_of_mem_code (by decide) member
  · exact isVisible_of_mem_code (by decide) member

/-! ### Reading escapes back -/

theorem shortEscape?_of_escapeLetter? {character letter : Char}
    (short : escapeLetter? character = some letter) : shortEscape? letter = some character := by
  unfold escapeLetter? at short
  split at short
  all_goals cases short
  all_goals rfl

theorem characterOf_toNat (character : Char) : characterOf character.toNat = .ok character := by
  have valid := Text.toNat_isValid character
  rw [characterOf, if_neg (by omega), if_neg (by omega), Char.ofNat_toNat]

/-- An escape by code is read back if the code has no more digits than are written. -/
theorem readEscape_codeDigits {letter character : Char} {width : Nat}
    (long : shortEscape? letter = none) (widthOf : codeWidth? letter = some width)
    (fits : character.toNat < 16 ^ width) (rest : List Char) :
    readEscape (letter :: (codeDigits width character ++ rest)) = .ok ([character], rest) := by
  have length : (codeDigits width character).length = width := by
    simp [codeDigits, Text.hexDigits_length]
  have taken : (codeDigits width character ++ rest).take width = codeDigits width character :=
    List.take_left' length
  have dropped : (codeDigits width character ++ rest).drop width = rest :=
    List.drop_left' length
  have code : Text.readHex? (codeDigits width character) = some character.toNat := by
    rw [codeDigits, Text.readHex?_toUpper_hexDigits, Nat.mod_eq_of_lt fits]
  have enough : decide (width ≤ (codeDigits width character ++ rest).length) = true := by
    simp [length]
  simp only [readEscape, long, widthOf, taken, code, enough, characterOf_toNat, dropped]
  rfl

/-- Every escape is read back as the character that it is written for. -/
theorem readEscape_escape (character : Char) (rest : List Char) :
    ∃ tail, escape character = '\\' :: tail ∧
      readEscape (tail ++ rest) = .ok ([character], rest) := by
  unfold escape
  split
  · next letter short =>
      refine ⟨[letter], rfl, ?_⟩
      simp [readEscape, shortEscape?_of_escapeLetter? short]
  have valid := Text.toNat_isValid character
  split
  · exact ⟨_, rfl, readEscape_codeDigits rfl rfl (by omega) rest⟩
  split
  · exact ⟨_, rfl, readEscape_codeDigits rfl rfl (by omega) rest⟩
  · exact ⟨_, rfl, readEscape_codeDigits rfl rfl (by omega) rest⟩

end Yaml

end ClosureCapture
