import ClosureCapture.Text.Decimal
import ClosureCapture.Value.Basic
import ClosureCapture.Yaml.Character
import ClosureCapture.Yaml.Fault

/-!
# Dates in YAML documents

A date is a year, a month and a day. A time of day can follow it after a letter or white space,
with a fraction of a second and a distance from universal time.
-/

namespace ClosureCapture.Yaml

/-- The number of `least` up to `most` digits at the start of a text, and what follows it. -/
def takeNumber (least most : Nat) (text : List Char) : Option (Nat × List Char) :=
  let digits := (text.take most).takeWhile Char.isDigit
  if least ≤ digits.length then some (Text.readDigits 10 digits, text.drop digits.length)
  else none

/-- A text without the given first character. -/
def takeMark (mark : Char) : List Char → Option (List Char)
  | first :: rest => if first = mark then some rest else none
  | [] => none

/-- The date at the start of a text, and what follows it. -/
def takeDate (text : List Char) : Option (Date × List Char) := do
  let (year, afterYear) ← takeNumber 4 4 text
  let (month, afterMonth) ← takeNumber 1 2 (← takeMark '-' afterYear)
  let (day, rest) ← takeNumber 1 2 (← takeMark '-' afterMonth)
  return (⟨year, month, day⟩, rest)

/-- The text after the mark between a date and a time of day. -/
def takeTimeMark : List Char → Option (List Char)
  | 'T' :: rest => some rest
  | 't' :: rest => some rest
  | first :: rest => if isWhite first then some (rest.dropWhile isWhite) else none
  | [] => none

/-- The microseconds of a fraction of a second, further digits dropped. -/
def microseconds (digits : List Char) : Nat :=
  let kept := digits.take 6
  Text.readDigits 10 kept * Nat.pow 10 (6 - kept.length)

/-- The fraction of a second at the start of a text, and what follows it. -/
def takeFraction : List Char → Nat × List Char
  | '.' :: rest => (microseconds (rest.takeWhile Char.isDigit), rest.dropWhile Char.isDigit)
  | text => (0, text)

/-- The distance from universal time that makes up a text, in seconds. -/
def readZone? (text : List Char) : Option (Option Int) :=
  match text.dropWhile isWhite with
  | [] => if text.isEmpty then some none else none
  | ['Z'] => some (some 0)
  | sign :: rest => do
      let direction : Int ← if sign = '+' then some 1 else if sign = '-' then some (-1) else none
      let (hours, afterHours) ← takeNumber 1 2 rest
      let minutes ← match afterHours with
        | [] => some 0
        | _ => do
            let (minutes, after) ← takeNumber 2 2 (← takeMark ':' afterHours)
            if after.isEmpty then some minutes else none
      return some (direction * (hours * 3600 + minutes * 60 : Nat))

/-- The moment of a date and the time of day that makes up a text. -/
def readTime? (date : Date) (text : List Char) : Option Moment := do
  let (hour, afterHour) ← takeNumber 1 2 (← takeTimeMark text)
  let (minute, afterMinute) ← takeNumber 2 2 (← takeMark ':' afterHour)
  let (second, afterSecond) ← takeNumber 2 2 (← takeMark ':' afterMinute)
  let (microsecond, rest) := takeFraction afterSecond
  let zone ← readZone? rest
  return ⟨date, hour, minute, second, microsecond, zone⟩

/-- Whether a text is a date with two digits for its month and day, or a date with a time. -/
def isTimestamp (text : List Char) : Bool :=
  match takeDate text with
  | none => false
  | some (date, rest) => if rest.isEmpty then text.length == 10 else (readTime? date rest).isSome

/-- The date or moment written by a text, which must exist. -/
def readTimestamp (text : List Char) : Except Fault Scalar :=
  match takeDate text with
  | none => .error .notMoment
  | some (date, []) => if date.exists then .ok (.date date) else .error .outOfRange
  | some (date, rest) =>
      match readTime? date rest with
      | none => .error .notMoment
      | some moment => if moment.exists then .ok (.moment moment) else .error .outOfRange

end ClosureCapture.Yaml
