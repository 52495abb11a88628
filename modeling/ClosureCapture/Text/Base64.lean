import ClosureCapture.Text.Decimal

/-!
# Base64

Bytes are written by characters of six bits each, four characters for three bytes. The reader
skips every other character. Padding ends the data in a group that has its first two characters;
data that is not padded must end with a full group.
-/

namespace ClosureCapture.Text

/-- The six bits of a character. -/
def base64Value? (character : Char) : Option Nat :=
  let code := character.toNat
  if 65 ≤ code ∧ code ≤ 90 then some (code - 65)
  else if 97 ≤ code ∧ code ≤ 122 then some (code - 71)
  else if 48 ≤ code ∧ code ≤ 57 then some (code + 4)
  else if character = '+' then some 62
  else if character = '/' then some 63
  else none

/-- Read on in a group of which some characters have been read, their bits not yet used, and the
padding that has been met since. -/
def readBase64From (read bits padding : Nat) : List Char → Option (List UInt8)
  | [] => if read = 0 then some [] else none
  | '=' :: rest =>
      if 2 ≤ read ∧ 4 ≤ read + (padding + 1) then some []
      else readBase64From read bits (if 2 ≤ read then padding + 1 else padding) rest
  | character :: rest =>
      match base64Value? character with
      | none => readBase64From read bits padding rest
      | some value =>
          let byte (high low : Nat) : UInt8 := UInt8.ofNat (high + low)
          match read with
          | 0 => readBase64From 1 value 0 rest
          | 1 => (readBase64From 2 (value % 16) 0 rest).map (byte (bits * 4) (value / 16) :: ·)
          | 2 => (readBase64From 3 (value % 4) 0 rest).map (byte (bits * 16) (value / 4) :: ·)
          | _ => (readBase64From 0 0 0 rest).map (byte (bits * 64) value :: ·)

/-- The bytes that a text stands for. -/
def readBase64? (text : List Char) : Option (List UInt8) :=
  readBase64From 0 0 0 text

end ClosureCapture.Text
