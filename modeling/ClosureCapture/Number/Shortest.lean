import ClosureCapture.Number.Binary64

/-!
# Shortest decimal text of a number

A finite number is written with the fewest decimal digits that read back as it, and of those
with the nearest ones. The reals that read back as `mantissa * 2 ^ exponent` form an interval
around it, which holds its ends when the mantissa is even. For one digit, two digits and so on
the two decimals around the number are tried; seventeen digits always suffice.
-/

namespace ClosureCapture

namespace Binary64

/-- A positive number with the interval of the reals that round to it, over a common
denominator. -/
structure Span where
  /-- Numerator of the lower end. -/
  low : Nat
  /-- Numerator of the number itself. -/
  value : Nat
  /-- Numerator of the upper end. -/
  high : Nat
  /-- The common denominator. -/
  denominator : Nat
  /-- Whether the ends belong to the interval. -/
  closed : Bool

/-- The span of `mantissa * 2 ^ exponent`. Below a power of two the neighbours are closer. -/
def spanOf (mantissa : Nat) (exponent : Int) : Span :=
  let scale := Nat.pow 2 exponent.toNat
  let below := if mantissa = Nat.pow 2 52 ∧ -1074 < exponent then 1 else 2
  { low := (4 * mantissa - below) * scale
    value := 4 * mantissa * scale
    high := (4 * mantissa + 2) * scale
    denominator := 4 * Nat.pow 2 (-exponent).toNat
    closed := mantissa % 2 == 0 }

/-- Whether `digits * 10 ^ place` lies in a span. -/
def Span.holds (span : Span) (digits : Nat) (place : Int) : Bool :=
  let decimal := digits * Nat.pow 10 place.toNat * span.denominator
  let low := span.low * Nat.pow 10 (-place).toNat
  let high := span.high * Nat.pow 10 (-place).toNat
  if span.closed then low ≤ decimal && decimal ≤ high else low < decimal && decimal < high

/-- The digits of the decimals with unit `10 ^ place` next to the number, the lower first. -/
def Span.digitsBelow (span : Span) (place : Int) : Nat :=
  span.value * Nat.pow 10 (-place).toNat / (span.denominator * Nat.pow 10 place.toNat)

/-- Whether the lower neighbour with unit `10 ^ place` is at least as near as the upper one;
an exact tie goes to the even digits. -/
def Span.prefersBelow (span : Span) (place : Int) : Bool :=
  let whole := span.denominator * Nat.pow 10 place.toNat
  let remainder := span.value * Nat.pow 10 (-place).toNat % whole
  2 * remainder < whole ||
    (2 * remainder == whole && span.digitsBelow place % 2 == 0)

/-- The decimal with unit `10 ^ place` that lies in the span, if one does. -/
def Span.decimalAt? (span : Span) (place : Int) : Option Nat :=
  let below := span.digitsBelow place
  match span.holds below place, span.holds (below + 1) place with
  | true, true => some (if span.prefersBelow place then below else below + 1)
  | true, false => some below
  | false, true => some (below + 1)
  | false, false => none

/-- The power of ten of the leading digit. -/
def Span.leadingPlace (span : Span) : Int :=
  if span.denominator ≤ span.value then
    ((toString (span.value / span.denominator)).length : Int) - 1
  else
    let reaches (shift : Nat) : Bool := span.denominator ≤ span.value * Nat.pow 10 shift
    Int.neg (((List.range 400).find? reaches).getD 400)

/-- The shortest decimal in the span: its digits and the power of ten of their unit. -/
def Span.shortest (span : Span) : Nat × Int :=
  let leading := span.leadingPlace
  let decimal := (List.range 17).findSome? fun extra =>
    let place := leading - (extra : Nat)
    (span.decimalAt? place).map (·, place)
  decimal.getD (0, 0)

/-- Digits without the zeros at their end, and the number of zeros dropped. -/
def dropTrailingZeros (digits : List Char) : List Char × Nat :=
  let zeros := (digits.reverse.takeWhile (· == '0')).length
  (digits.take (digits.length - zeros), zeros)

/-- A decimal number: positional when the point falls between the fourth
zero after it and the sixteenth digit, otherwise with an exponent of at least two digits. -/
def decimalText (digits : List Char) (point : Int) : List Char :=
  if -4 < point ∧ point ≤ 16 then
    if point ≤ 0 then
      ['0', '.'] ++ List.replicate (-point).toNat '0' ++ digits
    else if digits.length ≤ point.toNat then
      digits ++ List.replicate (point.toNat - digits.length) '0' ++ ['.', '0']
    else
      digits.take point.toNat ++ ['.'] ++ digits.drop point.toNat
  else
    let fraction := if digits.length ≤ 1 then [] else '.' :: digits.drop 1
    let exponent := point - 1
    let size := (toString exponent.natAbs).toList
    let padded := if size.length < 2 then '0' :: size else size
    digits.take 1 ++ fraction ++ ['e', if exponent < 0 then '-' else '+'] ++ padded

/-- The text of a positive finite number. -/
def positiveText (mantissa : Nat) (exponent : Int) : List Char :=
  let (digits, place) := (spanOf mantissa exponent).shortest
  let (kept, zeros) := dropTrailingZeros (toString digits).toList
  decimalText kept (kept.length + (zeros + place))

/-- The text of a number. -/
def text : Binary64 → String
  | .nan => "nan"
  | .infinity negative => if negative then "-inf" else "inf"
  | .finite negative mantissa exponent =>
      let magnitude :=
        if mantissa = 0 then ['0', '.', '0'] else positiveText mantissa exponent
      String.ofList (if negative then '-' :: magnitude else magnitude)

end Binary64

end ClosureCapture
