import Mathlib.Logic.Function.Basic
import ClosureCapture.Folder
import ClosureCapture.Proofs.Result.Chaining
import ClosureCapture.Proofs.Text.Hexadecimal

/-!
# Encoded texts are decoded

The bytes of a character are a lead byte and the continuation bytes that it announces.  Each of
the latter holds six bits of the code, and the lead byte those above them.  The bounds on these
bytes leave one way to write a character, so that bytes that are decoded are those of their text.
-/

namespace ClosureCapture.Text

theorem toNat_byte {code : Nat} (small : code < 256) : (UInt8.ofNat code).toNat = code :=
  UInt8.toNat_ofNat_of_lt small

theorem continuation_cons {count low high code value : Nat} {bytes : List UInt8}
    {result : Nat × List UInt8} (small : value < 64) (least : low ≤ value + 0x80)
    (greatest : value + 0x80 ≤ high)
    (read : continuation count 0x80 0xBF (code * 64 + value) bytes = .ok result) :
    continuation (count + 1) low high code (UInt8.ofNat (value + 0x80) :: bytes) = .ok result := by
  have byte : (UInt8.ofNat (value + 0x80)).toNat = value + 0x80 := toNat_byte (by omega)
  have bits : (value + 0x80) % 64 = value := by omega
  rw [continuation, byte, if_pos ⟨least, greatest⟩, bits, read]

/-- What a lead byte announces, and what is read behind it. -/
def Announces (lead : UInt8) (tail : List UInt8) (code : Nat) : Prop :=
  ∃ shape, Utf8Lead.ofByte? lead = some shape ∧
    ∀ rest, continuation shape.count shape.low shape.high shape.bits (tail ++ rest) =
      .ok (code, rest)

theorem announces_one {code : Nat} (small : code ≤ 0x7F) :
    Announces (UInt8.ofNat code) [] code := by
  refine ⟨⟨0, 0x80, 0xBF, code⟩, ?_, fun rest => rfl⟩
  rw [Utf8Lead.ofByte?, toNat_byte (by omega), if_pos (by omega)]

theorem announces_two {code : Nat} (least : 0x80 ≤ code) (greatest : code ≤ 0x7FF) :
    Announces (UInt8.ofNat (code / 64 % 32 + 0xC0)) [UInt8.ofNat (code % 64 + 0x80)] code := by
  refine ⟨⟨1, 0x80, 0xBF, code / 64⟩, ?_, fun rest => ?_⟩
  · have bits : code / 64 % 32 + 0xC0 - 0xC0 = code / 64 := by omega
    rw [Utf8Lead.ofByte?, toNat_byte (by omega), if_neg (by omega), if_neg (by omega),
      if_pos (by omega), bits]
  · have whole : code / 64 * 64 + code % 64 = code := by omega
    have above : 0x80 ≤ code % 64 + 0x80 := by omega
    have below : code % 64 + 0x80 ≤ 0xBF := by omega
    exact continuation_cons (by omega) above below (by rw [whole]; rfl)

/-- The first continuation byte of three has bounds that depend on the lead byte. -/
theorem exists_shape_three {code : Nat} (least : 0x800 ≤ code) (greatest : code ≤ 0xFFFF)
    (valid : code < 0xD800 ∨ 0xDFFF < code) :
    ∃ low high, Utf8Lead.ofByte? (UInt8.ofNat (code / 4096 % 16 + 0xE0)) =
        some ⟨2, low, high, code / 4096⟩ ∧
      low ≤ code / 64 % 64 + 0x80 ∧ code / 64 % 64 + 0x80 ≤ high := by
  have lead : (UInt8.ofNat (code / 4096 % 16 + 0xE0)).toNat = code / 4096 + 0xE0 := by
    rw [toNat_byte (by omega)]
    omega
  simp only [Utf8Lead.ofByte?, lead]
  rw [if_neg (by omega), if_neg (by omega), if_neg (by omega)]
  by_cases first : code / 4096 = 0
  · rw [if_pos (by omega)]
    exact ⟨0xA0, 0xBF, by rw [first], by omega, by omega⟩
  · rw [if_neg (by omega)]
    by_cases last : code / 4096 = 0xD
    · rw [if_pos (by omega)]
      exact ⟨0x80, 0x9F, by rw [last], by omega, by omega⟩
    · rw [if_neg (by omega), if_pos (by omega)]
      exact ⟨0x80, 0xBF, by rw [Nat.add_sub_cancel], by omega, by omega⟩

theorem exists_shape_four {code : Nat} (least : 0x10000 ≤ code) (greatest : code < 0x110000) :
    ∃ low high, Utf8Lead.ofByte? (UInt8.ofNat (code / 262144 % 8 + 0xF0)) =
        some ⟨3, low, high, code / 262144⟩ ∧
      low ≤ code / 4096 % 64 + 0x80 ∧ code / 4096 % 64 + 0x80 ≤ high := by
  have lead : (UInt8.ofNat (code / 262144 % 8 + 0xF0)).toNat = code / 262144 + 0xF0 := by
    rw [toNat_byte (by omega)]
    omega
  simp only [Utf8Lead.ofByte?, lead]
  rw [if_neg (by omega), if_neg (by omega), if_neg (by omega), if_neg (by omega),
    if_neg (by omega), if_neg (by omega)]
  by_cases first : code / 262144 = 0
  · rw [if_pos (by omega)]
    exact ⟨0x90, 0xBF, by rw [first], by omega, by omega⟩
  · rw [if_neg (by omega)]
    by_cases last : code / 262144 = 4
    · rw [if_neg (by omega), if_pos (by omega)]
      exact ⟨0x80, 0x8F, by rw [last], by omega, by omega⟩
    · rw [if_pos (by omega)]
      exact ⟨0x80, 0xBF, by rw [Nat.add_sub_cancel], by omega, by omega⟩

theorem announces_three {code : Nat} (least : 0x800 ≤ code) (greatest : code ≤ 0xFFFF)
    (valid : code < 0xD800 ∨ 0xDFFF < code) :
    Announces (UInt8.ofNat (code / 4096 % 16 + 0xE0))
      [UInt8.ofNat (code / 64 % 64 + 0x80), UInt8.ofNat (code % 64 + 0x80)] code := by
  obtain ⟨low, high, shape, above, below⟩ := exists_shape_three least greatest valid
  refine ⟨_, shape, fun rest => ?_⟩
  have whole : (code / 4096 * 64 + code / 64 % 64) * 64 + code % 64 = code := by omega
  exact continuation_cons (by omega) above below
    (continuation_cons (by omega) (by omega) (by omega) (by rw [whole]; rfl))

theorem announces_four {code : Nat} (least : 0x10000 ≤ code) (greatest : code < 0x110000) :
    Announces (UInt8.ofNat (code / 262144 % 8 + 0xF0))
      [UInt8.ofNat (code / 4096 % 64 + 0x80), UInt8.ofNat (code / 64 % 64 + 0x80),
        UInt8.ofNat (code % 64 + 0x80)] code := by
  obtain ⟨low, high, shape, above, below⟩ := exists_shape_four least greatest
  refine ⟨_, shape, fun rest => ?_⟩
  have whole : ((code / 262144 * 64 + code / 4096 % 64) * 64 + code / 64 % 64) * 64 + code % 64 =
      code := by omega
  exact continuation_cons (by omega) above below
    (continuation_cons (by omega) (by omega) (by omega)
      (continuation_cons (by omega) (by omega) (by omega) (by rw [whole]; rfl)))

theorem exists_lead (character : Char) :
    ∃ lead tail, String.utf8EncodeChar character = lead :: tail ∧
      Announces lead tail character.toNat := by
  have valid := toNat_isValid character
  change character.val.toNat < _ ∨ _ < character.val.toNat ∧ character.val.toNat < _ at valid
  change ∃ lead tail, _ ∧ Announces lead tail character.val.toNat
  fun_cases String.utf8EncodeChar character with
  | case1 _ small => exact ⟨_, _, rfl, announces_one small⟩
  | case2 _ large small => exact ⟨_, _, rfl, announces_two (by omega) small⟩
  | case3 _ larger large small => exact ⟨_, _, rfl, announces_three (by omega) small (by omega)⟩
  | case4 _ largest larger large => exact ⟨_, _, rfl, announces_four (by omega) (by omega)⟩

theorem decodeUtf8From_encodeText (position : Nat) (text : List Char) :
    decodeUtf8From position (encodeText text) = .ok text := by
  induction text generalizing position with
  | nil => simp [encodeText, decodeUtf8From]
  | cons character text ih =>
      obtain ⟨lead, tail, encoded, shape, announced, read⟩ := exists_lead character
      have split : encodeText (character :: text) = lead :: (tail ++ encodeText text) := by
        rw [encodeText, List.flatMap_cons, encoded]
        rfl
      rw [split, decodeUtf8From]
      simp only [announced]
      split
      · next fault => simp [read] at fault
      · next code later found =>
          rw [read, Except.ok.injEq, Prod.mk.injEq] at found
          obtain ⟨rfl, rfl⟩ := found
          rw [ih, Char.ofNat_toNat]
          rfl

theorem decodeUtf8_encodeText (text : List Char) : decodeUtf8 (encodeText text) = .ok text :=
  decodeUtf8From_encodeText 0 text

/-! ### Decoded bytes are encoded texts -/

theorem toNat_ofNat {code : Nat} (valid : code.isValidChar) :
    (Char.ofNat code).val.toNat = code := by
  rw [Char.ofNat, dif_pos valid]
  rfl

/-- A byte that continues a character holds six bits of its code. -/
theorem exists_of_continuation_succ {count low high code : Nat} {bytes : List UInt8}
    {result : Nat × List UInt8} (least : 0x80 ≤ low) (greatest : high ≤ 0xBF)
    (read : continuation (count + 1) low high code bytes = .ok result) :
    ∃ value rest, bytes = UInt8.ofNat (value + 0x80) :: rest ∧ value < 64 ∧
      low ≤ value + 0x80 ∧ value + 0x80 ≤ high ∧
      continuation count 0x80 0xBF (code * 64 + value) rest = .ok result := by
  cases bytes with
  | nil => simp [continuation] at read
  | cons byte rest =>
      rw [continuation] at read
      split at read
      · next bounds =>
          have bits : byte.toNat % 64 + 0x80 = byte.toNat := by omega
          refine ⟨byte.toNat % 64, rest, ?_, by omega, by omega, by omega, ?_⟩
          · rw [bits, UInt8.ofNat_toNat]
          · split at read
            · next inner => rw [inner, read]
            · simp at read
      · simp at read

theorem encoded_one {code : Nat} (small : code < 0x80) :
    String.utf8EncodeChar (Char.ofNat code) = [UInt8.ofNat code] := by
  have valid : code.isValidChar := .inl (by omega)
  rw [String.utf8EncodeChar, toNat_ofNat valid, if_pos (by omega)]

theorem encoded_two {bits value : Nat} (least : 2 ≤ bits) (greatest : bits < 32)
    (small : value < 64) :
    String.utf8EncodeChar (Char.ofNat (bits * 64 + value)) =
      [UInt8.ofNat (bits + 0xC0), UInt8.ofNat (value + 0x80)] := by
  have valid : (bits * 64 + value).isValidChar := .inl (by omega)
  have lead : (bits * 64 + value) / 64 % 32 = bits := by omega
  have tail : (bits * 64 + value) % 64 = value := by omega
  rw [String.utf8EncodeChar, toNat_ofNat valid, if_neg (by omega), if_pos (by omega), lead, tail]

theorem encoded_three {bits first second : Nat} (greatest : bits < 16) (small : first < 64)
    (last : second < 64) (long : bits = 0 → 32 ≤ first) (plain : bits = 13 → first < 32) :
    String.utf8EncodeChar (Char.ofNat ((bits * 64 + first) * 64 + second)) =
      [UInt8.ofNat (bits + 0xE0), UInt8.ofNat (first + 0x80), UInt8.ofNat (second + 0x80)] := by
  have valid : ((bits * 64 + first) * 64 + second).isValidChar := by
    rw [Nat.isValidChar]
    omega
  have lead : ((bits * 64 + first) * 64 + second) / 4096 % 16 = bits := by omega
  have middle : ((bits * 64 + first) * 64 + second) / 64 % 64 = first := by omega
  have tail : ((bits * 64 + first) * 64 + second) % 64 = second := by omega
  rw [String.utf8EncodeChar, toNat_ofNat valid, if_neg (by omega), if_neg (by omega),
    if_pos (by omega), lead, middle, tail]

theorem encoded_four {bits first second third : Nat} (greatest : bits < 5) (small : first < 64)
    (smaller : second < 64) (last : third < 64) (long : bits = 0 → 16 ≤ first)
    (within : bits = 4 → first < 16) :
    String.utf8EncodeChar (Char.ofNat (((bits * 64 + first) * 64 + second) * 64 + third)) =
      [UInt8.ofNat (bits + 0xF0), UInt8.ofNat (first + 0x80), UInt8.ofNat (second + 0x80),
        UInt8.ofNat (third + 0x80)] := by
  have valid : (((bits * 64 + first) * 64 + second) * 64 + third).isValidChar := by
    rw [Nat.isValidChar]
    omega
  have lead : (((bits * 64 + first) * 64 + second) * 64 + third) / 262144 % 8 = bits := by omega
  have early : (((bits * 64 + first) * 64 + second) * 64 + third) / 4096 % 64 = first := by omega
  have late : (((bits * 64 + first) * 64 + second) * 64 + third) / 64 % 64 = second := by omega
  have tail : (((bits * 64 + first) * 64 + second) * 64 + third) % 64 = third := by omega
  rw [String.utf8EncodeChar, toNat_ofNat valid, if_neg (by omega), if_neg (by omega),
    if_neg (by omega), lead, early, late, tail]

theorem eq_of_continuation_zero {low high code : Nat} {bytes : List UInt8}
    {result : Nat × List UInt8} (read : continuation 0 low high code bytes = .ok result) :
    result = (code, bytes) := by
  rw [continuation, Except.ok.injEq] at read
  exact read.symm

/-- The bounds on the bits of a lead byte, and on the continuation byte behind it, for each number
of continuation bytes. -/
theorem Utf8Lead.cases_of_ofByte? {lead : UInt8} {shape : Utf8Lead}
    (announced : Utf8Lead.ofByte? lead = some shape) :
    (shape.count = 0 ∧ lead.toNat = shape.bits ∧ shape.bits < 0x80) ∨
    (0x80 ≤ shape.low ∧ shape.high ≤ 0xBF ∧
      ((shape.count = 1 ∧ lead.toNat = shape.bits + 0xC0 ∧ 2 ≤ shape.bits ∧ shape.bits < 32) ∨
      (shape.count = 2 ∧ lead.toNat = shape.bits + 0xE0 ∧ shape.bits < 16 ∧
        (shape.bits = 0 → 0xA0 ≤ shape.low) ∧ (shape.bits = 13 → shape.high ≤ 0x9F)) ∨
      (shape.count = 3 ∧ lead.toNat = shape.bits + 0xF0 ∧ shape.bits < 5 ∧
        (shape.bits = 0 → 0x90 ≤ shape.low) ∧ (shape.bits = 4 → shape.high ≤ 0x8F)))) := by
  simp only [Utf8Lead.ofByte?] at announced
  repeat' split at announced
  all_goals cases announced <;> dsimp only <;> omega

/-- The bytes read for a character are those that it is encoded by. -/
theorem encoded_of_continuation {lead : UInt8} {shape : Utf8Lead} {rest later : List UInt8}
    {code : Nat} (announced : Utf8Lead.ofByte? lead = some shape)
    (read : continuation shape.count shape.low shape.high shape.bits rest = .ok (code, later)) :
    lead :: rest = String.utf8EncodeChar (Char.ofNat code) ++ later := by
  obtain ⟨count, byte, small⟩ | ⟨least, greatest, shapes⟩ := Utf8Lead.cases_of_ofByte? announced
  · rw [count] at read
    obtain ⟨rfl, rfl⟩ := Prod.mk.inj (eq_of_continuation_zero read)
    rw [encoded_one small, ← byte, UInt8.ofNat_toNat]
    rfl
  obtain ⟨count, byte, more, fewer⟩ | ⟨count, byte, fewer, long, plain⟩ |
    ⟨count, byte, fewer, long, within⟩ := shapes
  all_goals
    rw [count] at read
    obtain ⟨first, rest, rfl, small, above, below, read⟩ :=
      exists_of_continuation_succ least greatest read
  · obtain ⟨rfl, rfl⟩ := Prod.mk.inj (eq_of_continuation_zero read)
    rw [encoded_two more fewer small, ← byte, UInt8.ofNat_toNat]
    rfl
  · obtain ⟨second, rest, rfl, last, -, -, read⟩ :=
      exists_of_continuation_succ (Nat.le_refl _) (Nat.le_refl _) read
    obtain ⟨rfl, rfl⟩ := Prod.mk.inj (eq_of_continuation_zero read)
    rw [encoded_three fewer small last (by omega) (by omega), ← byte, UInt8.ofNat_toNat]
    rfl
  · obtain ⟨second, rest, rfl, smaller, -, -, read⟩ :=
      exists_of_continuation_succ (Nat.le_refl _) (Nat.le_refl _) read
    obtain ⟨third, rest, rfl, last, -, -, read⟩ :=
      exists_of_continuation_succ (Nat.le_refl _) (Nat.le_refl _) read
    obtain ⟨rfl, rfl⟩ := Prod.mk.inj (eq_of_continuation_zero read)
    rw [encoded_four fewer small smaller last (by omega) (by omega), ← byte, UInt8.ofNat_toNat]
    rfl

theorem encodeText_of_decodeUtf8From {position : Nat} {bytes : List UInt8} {text : List Char}
    (decoded : decodeUtf8From position bytes = .ok text) : bytes = encodeText text := by
  fun_induction decodeUtf8From position bytes generalizing text with
  | case1 =>
      obtain rfl := Except.ok.inj decoded
      rfl
  | case2 => simp at decoded
  | case3 => simp at decoded
  | case4 position lead rest shape announced code later read ih =>
      obtain ⟨characters, found, rest_eq⟩ := bind_eq_ok_iff.1 decoded
      obtain rfl := Except.ok.inj rest_eq
      rw [encoded_of_continuation announced read, ih found]
      rfl

/-- Bytes are decoded to a text exactly when they are what it is encoded by. -/
theorem decodeUtf8_eq_ok_iff {bytes : List UInt8} {text : List Char} :
    decodeUtf8 bytes = .ok text ↔ bytes = encodeText text :=
  ⟨encodeText_of_decodeUtf8From, fun encoded => encoded ▸ decodeUtf8_encodeText text⟩

theorem encodeText_injective : Function.Injective encodeText := by
  intro first second same
  exact Except.ok.inj ((decodeUtf8_encodeText first).symm.trans
    ((congrArg decodeUtf8 same).trans (decodeUtf8_encodeText second)))

/-- The only character whose bytes have one below the continuation bytes is the one with this
code. -/
theorem mem_utf8EncodeChar_iff {code : Nat} (small : code < 0x80) {character : Char} :
    UInt8.ofNat code ∈ String.utf8EncodeChar character ↔ Char.ofNat code = character := by
  constructor
  · intro member
    have differs {other : Nat} (large : 0x80 ≤ other) (byte : other < 256) :
        UInt8.ofNat code ≠ UInt8.ofNat other := by
      intro same
      have codes := congrArg UInt8.toNat same
      rw [toNat_byte (by omega), toNat_byte byte] at codes
      omega
    revert member
    fun_cases String.utf8EncodeChar character with
    | case1 _ least =>
        intro member
        have codes := congrArg UInt8.toNat (List.mem_singleton.1 member)
        rw [toNat_byte (by omega), toNat_byte (by omega)] at codes
        rw [codes]
        exact Char.ofNat_toNat character
    | _ =>
        simp (disch := omega) only [List.mem_cons, List.not_mem_nil, differs, or_self,
          false_imp_iff]
  · rintro rfl
    rw [encoded_one small]
    exact List.mem_singleton_self _

/-- A byte below the continuation bytes stands in a text where its character does. -/
theorem mem_encodeText_iff {code : Nat} (small : code < 0x80) {text : List Char} :
    UInt8.ofNat code ∈ encodeText text ↔ Char.ofNat code ∈ text := by
  simp [encodeText, mem_utf8EncodeChar_iff small]

end ClosureCapture.Text
