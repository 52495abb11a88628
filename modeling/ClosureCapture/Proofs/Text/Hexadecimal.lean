import ClosureCapture.Text.Hexadecimal
import Mathlib.Algebra.Group.Nat.Defs

/-!
# Hexadecimal digits are read back

A number is written by a fixed number of digits, in lower or in upper case.  Both cases are read
as the same digits, so one statement covers both writings: the digits give back the number, up to
the part of it that does not fit into them.
-/

namespace ClosureCapture.Text

theorem toNat_isValid (character : Char) :
    character.toNat < 0xD800 ∨ 0xDFFF < character.toNat ∧ character.toNat < 0x110000 :=
  character.valid

theorem hexDigits_length (width value : Nat) : (hexDigits width value).length = width := by
  induction width generalizing value with
  | zero => rfl
  | succ width ih => simp [hexDigits, ih]

theorem exists_of_mem_hexDigits {width value : Nat} {digit : Char}
    (member : digit ∈ hexDigits width value) : ∃ number < 16, digit = hexDigit number := by
  induction width generalizing value with
  | zero => simp [hexDigits] at member
  | succ width ih =>
      rw [hexDigits, List.mem_append, List.mem_singleton] at member
      rcases member with earlier | rfl
      · exact ih earlier
      · exact ⟨value % 16, Nat.mod_lt value (by decide), rfl⟩

theorem readHex?_append (digits : List Char) (last : Char) :
    readHex? (digits ++ [last]) = do
      let value ← readHex? digits
      let digit ← hexValue? last
      return value * 16 + digit := by
  simp only [readHex?, List.foldlM_append, List.foldlM_cons, List.foldlM_nil]
  cases List.foldlM (fun value digit => (hexValue? digit).map (value * 16 + ·)) 0 digits with
  | none => rfl
  | some value => cases hexValue? last <;> rfl

/-- The last digits of a number are read as its remainder, in any case in which single digits are
read as themselves. -/
theorem readHex?_map_hexDigits {inCase : Char → Char}
    (read : ∀ digit < 16, hexValue? (inCase (hexDigit digit)) = some digit)
    (width value : Nat) :
    readHex? ((hexDigits width value).map inCase) = some (value % 16 ^ width) := by
  induction width generalizing value with
  | zero => simp [hexDigits, readHex?, Nat.mod_one]
  | succ width ih =>
      have digit := read (value % 16) (Nat.mod_lt value (by decide))
      have split : value / 16 % 16 ^ width * 16 + value % 16 = value % 16 ^ (width + 1) := by
        rw [Nat.pow_succ', Nat.mod_mul]
        omega
      simp only [hexDigits, List.map_append, List.map_cons, List.map_nil, readHex?_append, ih,
        digit, Option.bind_eq_bind, Option.bind_some, Option.pure_def, split]

theorem readHex?_toUpper_hexDigits (width value : Nat) :
    readHex? ((hexDigits width value).map Char.toUpper) = some (value % 16 ^ width) :=
  readHex?_map_hexDigits (by decide) width value

theorem readHex?_hexDigits (width value : Nat) :
    readHex? (hexDigits width value) = some (value % 16 ^ width) := by
  have read := @readHex?_map_hexDigits id (by decide) width value
  rwa [List.map_id] at read

end ClosureCapture.Text
