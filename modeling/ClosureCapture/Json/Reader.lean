import ClosureCapture.Text.Decimal
import ClosureCapture.Text.Hexadecimal
import ClosureCapture.Value.Text

/-!
# Reading JSON

The reader accepts the JSON grammar with the three names `NaN`, `Infinity` and `-Infinity`. A
number with a fraction or an exponent is a floating point number, any other a whole number,
which may have only so many digits. A string holds no raw control characters, and two escapes
that form a surrogate pair stand for one character. The last of several members with the same
name wins. The first thing that is wrong decides how reading fails.
-/

namespace ClosureCapture.Json

/-- Why a text has no value as a document. -/
inductive Fault where
  | malformed
  /-- A whole number with too many digits. -/
  | longNumber
  deriving DecidableEq, Repr

/-- What is found in a well-formed text. -/
def Fault.require {Found : Type} : Option Found → Except Fault Found
  | some found => .ok found
  | none => .error .malformed

/-- Whether a character may stand between the symbols of a document. -/
def isSpace (character : Char) : Bool :=
  character == ' ' || character == '\t' || character == '\n' || character == '\r'

/-- A text without its leading spaces. -/
def skipSpace (text : List Char) : List Char :=
  text.dropWhile isSpace

/-- The character of a one-letter escape. -/
def shortEscape? : Char → Option Char
  | '"' => some '"'
  | '\\' => some '\\'
  | '/' => some '/'
  | 'b' => some '\x08'
  | 'f' => some '\x0c'
  | 'n' => some '\n'
  | 'r' => some '\r'
  | 't' => some '\t'
  | _ => none

/-- Whether a code is the first half of a surrogate pair. -/
def isHighSurrogate (code : Nat) : Bool :=
  0xD800 ≤ code && code ≤ 0xDBFF

/-- Whether a code is the second half of a surrogate pair. -/
def isLowSurrogate (code : Nat) : Bool :=
  0xDC00 ≤ code && code ≤ 0xDFFF

/-- The character of a surrogate pair. -/
def joinSurrogates (high low : Nat) : Char :=
  Char.ofNat (0x10000 + (high - 0xD800) * 0x400 + (low - 0xDC00))

/-- The character of a lone code; half of a surrogate pair becomes the replacement character. -/
def characterOf (code : Nat) : Char :=
  if isHighSurrogate code || isLowSurrogate code then '\ufffd' else Char.ofNat code

/-- The characters of a string's codes, halves of surrogate pairs joined. -/
def joinCodes : List Nat → List Char
  | [] => []
  | [code] => [characterOf code]
  | first :: second :: rest =>
      if isHighSurrogate first && isLowSurrogate second then
        joinSurrogates first second :: joinCodes rest
      else characterOf first :: joinCodes (second :: rest)

/-- The codes of a string after its opening quote, and the text after the closing one. -/
def readCodes : List Char → Option (List Nat × List Char)
  | [] => none
  | '"' :: rest => some ([], rest)
  | '\\' :: 'u' :: a :: b :: c :: d :: rest => do
      let code ← Text.readHex? [a, b, c, d]
      let (codes, after) ← readCodes rest
      return (code :: codes, after)
  | '\\' :: letter :: rest => do
      let character ← shortEscape? letter
      let (codes, after) ← readCodes rest
      return (character.toNat :: codes, after)
  | character :: rest =>
      if character.toNat < 0x20 || character == '\\' then none
      else do
        let (codes, after) ← readCodes rest
        return (character.toNat :: codes, after)

/-- The text of a string after its opening quote, and what follows the closing one. -/
def readString (text : List Char) : Option (String × List Char) := do
  let (codes, after) ← readCodes text
  return (String.ofList (joinCodes codes), after)

/-- The digits of a fraction at the start of a text, empty when there is none. -/
def takeFraction (text : List Char) : List Char × List Char :=
  match text with
  | '.' :: rest =>
      match Text.spanDigits rest with
      | ([], _) => ([], text)
      | (digits, after) => (digits, after)
  | _ => ([], text)

/-- The exponent at the start of a text, if there is one. -/
def takeExponent (text : List Char) : Option Int × List Char :=
  let digitsOf (negative : Bool) (rest : List Char) : Option Int × List Char :=
    match Text.spanDigits rest with
    | ([], _) => (none, text)
    | (digits, after) =>
        let size : Int := Text.readDigits 10 digits
        (some (if negative then -size else size), after)
  match text with
  | mark :: rest =>
      if mark == 'e' || mark == 'E' then
        match rest with
        | '-' :: later => digitsOf true later
        | '+' :: later => digitsOf false later
        | _ => digitsOf false rest
      else (none, text)
  | [] => (none, text)

/-- The digits of a whole number: a zero alone, or a run without a leading zero. -/
def takeWhole (text : List Char) : List Char × List Char :=
  match text with
  | '0' :: rest => (['0'], rest)
  | _ => Text.spanDigits text

/-- An unsigned number with a given sign. -/
def readUnsigned (negative : Bool) (text : List Char) : Except Fault (Scalar × List Char) :=
  match takeWhole text with
  | ([], _) => .error .malformed
  | (whole, afterWhole) =>
      let (fraction, afterFraction) := takeFraction afterWhole
      let (exponent, after) := takeExponent afterFraction
      if fraction.isEmpty && exponent.isNone then
        let size : Int := Text.readDigits 10 whole
        if digitLimit < whole.length then .error .longNumber
        else .ok (.int (if negative then -size else size), after)
      else
        let digits := Text.readDigits 10 (whole ++ fraction)
        let place := exponent.getD 0 - fraction.length
        .ok (.float (.ofDecimal negative digits place), after)

/-- A number at the start of a text. -/
def readNumber : List Char → Except Fault (Scalar × List Char)
  | '-' :: rest => readUnsigned true rest
  | text => readUnsigned false text

/-- The names that stand for values. -/
def literalNames : List (List Char × Scalar) :=
  [("null".toList, .null), ("true".toList, .bool true), ("false".toList, .bool false),
    ("NaN".toList, .float .nan), ("Infinity".toList, .float (.infinity false)),
    ("-Infinity".toList, .float (.infinity true))]

/-- A name or a number at the start of a text. -/
def readAtom (text : List Char) : Except Fault (Scalar × List Char) :=
  match literalNames.find? (·.1.isPrefixOf text) with
  | some (name, value) => .ok (value, text.drop name.length)
  | none => readNumber text

mutual
/-- The value at the start of a text, nested no deeper than the fuel. -/
def readValue : (fuel : Nat) → List Char → Except Fault (Value × List Char)
  | 0, _ => .error .malformed
  | _ + 1, '"' :: rest => do
      let (content, after) ← Fault.require (readString rest)
      return (.string content, after)
  | fuel + 1, '[' :: rest =>
      match skipSpace rest with
      | ']' :: after => .ok (.list [], after)
      | inside => do
          let (items, after) ← readItems fuel inside
          return (.list items, after)
  | fuel + 1, '\x7b' :: rest =>
      match skipSpace rest with
      | '\x7d' :: after => .ok (.map [], after)
      | inside => do
          let (members, after) ← readMembers fuel inside
          return (.map (Entries.ofPairs members), after)
  | _ + 1, text => do
      let (scalar, after) ← readAtom text
      return (.scalar scalar, after)

/-- The items of a list up to its closing bracket. -/
def readItems : (fuel : Nat) → List Char → Except Fault (List Value × List Char)
  | 0, _ => .error .malformed
  | fuel + 1, text => do
      let (item, after) ← readValue fuel text
      match skipSpace after with
      | ']' :: rest => return ([item], rest)
      | ',' :: rest =>
          let (items, later) ← readItems fuel (skipSpace rest)
          return (item :: items, later)
      | _ => .error .malformed

/-- The members of a map up to its closing brace. -/
def readMembers : (fuel : Nat) → List Char → Except Fault (List (Scalar × Value) × List Char)
  | 0, _ => .error .malformed
  | fuel + 1, '"' :: rest => do
      let (name, afterName) ← Fault.require (readString rest)
      match skipSpace afterName with
      | ':' :: afterColon =>
          let (value, after) ← readValue fuel (skipSpace afterColon)
          let member := (Scalar.string name, value)
          match skipSpace after with
          | '\x7d' :: later => return ([member], later)
          | ',' :: later =>
              let (members, last) ← readMembers fuel (skipSpace later)
              return (member :: members, last)
          | _ => .error .malformed
      | _ => .error .malformed
  | _ + 1, _ => .error .malformed
end

/-- The value of a JSON document. -/
def read (text : List Char) : Except Fault Value := do
  let (value, rest) ← readValue (text.length + 1) (skipSpace text)
  if (skipSpace rest).isEmpty then return value else .error .malformed

end ClosureCapture.Json
