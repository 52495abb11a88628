import ClosureCapture.Text.Hexadecimal

/-!
# Strict decoding of UTF-8

Bytes are decoded one character at a time. A lead byte fixes how many continuation bytes
follow and the interval of the first of them; the interval excludes overlong forms, surrogates
and codes beyond the last plane. A fault names the bytes that were read before decoding had to
stop: the lead byte and the continuation bytes accepted so far.
-/

namespace ClosureCapture.Text

/-- Why bytes are not UTF-8. -/
inductive Utf8Reason where
  | invalidStart
  | invalidContinuation
  | unexpectedEnd
  deriving DecidableEq, Repr

/-- The wording of a reason. -/
def Utf8Reason.message : Utf8Reason → String
  | .invalidStart => "invalid start byte"
  | .invalidContinuation => "invalid continuation byte"
  | .unexpectedEnd => "unexpected end of data"

/-- A place where bytes stop being UTF-8. -/
structure Utf8Fault where
  /-- The position of the lead byte. -/
  position : Nat
  /-- The lead byte. -/
  lead : UInt8
  /-- The number of continuation bytes accepted after the lead byte. -/
  accepted : Nat
  /-- What is wrong there. -/
  reason : Utf8Reason
  deriving DecidableEq, Repr

/-- The report of a fault: the byte alone, or the positions of several bytes. -/
def Utf8Fault.message (fault : Utf8Fault) : String :=
  let place :=
    if fault.accepted = 0 then
      "byte 0x" ++ String.ofList (hexDigits 2 fault.lead.toNat) ++
        " in position " ++ toString fault.position
    else
      "bytes in position " ++ toString fault.position ++ "-" ++
        toString (fault.position + fault.accepted)
  "'utf-8' codec can't decode " ++ place ++ ": " ++ fault.reason.message

/-- What a lead byte announces. -/
structure Utf8Lead where
  /-- The number of continuation bytes. -/
  count : Nat
  /-- The least first continuation byte. -/
  low : Nat
  /-- The greatest first continuation byte. -/
  high : Nat
  /-- The bits of the code held by the lead byte. -/
  bits : Nat

/-- The announcement of a byte at the start of a character, if it can stand there. -/
def Utf8Lead.ofByte? (byte : UInt8) : Option Utf8Lead :=
  let code := byte.toNat
  if code < 0x80 then some ⟨0, 0x80, 0xBF, code⟩
  else if code < 0xC2 then none
  else if code < 0xE0 then some ⟨1, 0x80, 0xBF, code - 0xC0⟩
  else if code = 0xE0 then some ⟨2, 0xA0, 0xBF, 0⟩
  else if code = 0xED then some ⟨2, 0x80, 0x9F, 0xD⟩
  else if code < 0xF0 then some ⟨2, 0x80, 0xBF, code - 0xE0⟩
  else if code = 0xF0 then some ⟨3, 0x90, 0xBF, 0⟩
  else if code < 0xF4 then some ⟨3, 0x80, 0xBF, code - 0xF0⟩
  else if code = 0xF4 then some ⟨3, 0x80, 0x8F, 4⟩
  else none

/-- Read `count` continuation bytes, the first between `low` and `high`. The result is the
code and the bytes left, or the number of bytes accepted and the reason to stop. -/
def continuation : (count low high code : Nat) → List UInt8 →
    Except (Nat × Utf8Reason) (Nat × List UInt8)
  | 0, _, _, code, bytes => .ok (code, bytes)
  | _ + 1, _, _, _, [] => .error (0, .unexpectedEnd)
  | count + 1, low, high, code, byte :: bytes =>
      if low ≤ byte.toNat ∧ byte.toNat ≤ high then
        match continuation count 0x80 0xBF (code * 64 + byte.toNat % 64) bytes with
        | .ok result => .ok result
        | .error (accepted, reason) => .error (accepted + 1, reason)
      else .error (0, .invalidContinuation)

theorem continuation_length_le {count low high code : Nat} {bytes : List UInt8}
    {result : Nat × List UInt8}
    (read : continuation count low high code bytes = .ok result) :
    result.2.length ≤ bytes.length := by
  induction count generalizing low high code bytes with
  | zero => simp only [continuation, Except.ok.injEq] at read; simp [← read]
  | succ count ih =>
      cases bytes with
      | nil => simp [continuation] at read
      | cons byte bytes =>
          simp only [continuation] at read
          split at read
          · split at read
            · next inner =>
                simp only [Except.ok.injEq] at read
                subst read
                exact Nat.le_succ_of_le (ih inner)
            · simp at read
          · simp at read

/-- Decode bytes, the first of which stands at the given position. -/
def decodeUtf8From (position : Nat) (bytes : List UInt8) : Except Utf8Fault (List Char) :=
  match bytes with
  | [] => .ok []
  | lead :: rest =>
      match Utf8Lead.ofByte? lead with
      | none => .error ⟨position, lead, 0, .invalidStart⟩
      | some shape =>
          match _read : continuation shape.count shape.low shape.high shape.bits rest with
          | .error (accepted, reason) => .error ⟨position, lead, accepted, reason⟩
          | .ok (code, later) => do
              let characters ← decodeUtf8From (position + 1 + shape.count) later
              return Char.ofNat code :: characters
termination_by bytes.length
decreasing_by exact Nat.lt_succ_of_le (continuation_length_le _read)

/-- Decode bytes as strict UTF-8. -/
def decodeUtf8 (bytes : List UInt8) : Except Utf8Fault (List Char) :=
  decodeUtf8From 0 bytes

end ClosureCapture.Text
