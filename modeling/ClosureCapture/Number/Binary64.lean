/-!
# Binary floating point numbers

A binary64 number is a sign with a mantissa below `2 ^ 53` and an exponent of two, or an
infinity, or not a number. The exponent is never below `-1074`, and the mantissa is at least
`2 ^ 52` unless the exponent is that least one, so every finite number has one form. Quotients
of natural numbers are rounded to the nearest such number, ties going to the even mantissa.
-/

namespace ClosureCapture

/-- A binary64 number. -/
inductive Binary64 where
  | nan
  | infinity (negative : Bool)
  | finite (negative : Bool) (mantissa : Nat) (exponent : Int)
  deriving DecidableEq, Repr

namespace Binary64

/-- Zero with a sign. -/
def zero (negative : Bool) : Binary64 :=
  .finite negative 0 (-1074)

/-- A quotient rounded to the nearest natural number, a half going to the even neighbour. -/
def roundQuotient (numerator denominator : Nat) : Nat :=
  let quotient := numerator / denominator
  let twice := 2 * (numerator % denominator)
  if twice < denominator then quotient
  else if denominator < twice then quotient + 1
  else quotient + quotient % 2

/-- A positive quotient divided by a power of two, rounded to the nearest natural number. -/
def roundScaled (numerator denominator : Nat) (exponent : Int) : Nat :=
  roundQuotient (numerator * Nat.pow 2 (-exponent).toNat) (denominator * Nat.pow 2 exponent.toNat)

/-- The exponent with which a positive quotient is represented: the one that gives the
mantissa its full width, but never less than the least exponent. -/
def exponentOf (numerator denominator : Nat) : Int :=
  let estimate : Int := (Nat.log2 numerator : Int) - Nat.log2 denominator - 52
  let full := numerator * Nat.pow 2 (-(estimate + 52)).toNat
  let least := denominator * Nat.pow 2 (estimate + 52).toNat
  max (-1074) (if full < least then estimate - 1 else estimate)

/-- The number nearest to a quotient, with a sign. -/
def ofQuotient (negative : Bool) (numerator denominator : Nat) : Binary64 :=
  if numerator = 0 then zero negative
  else
    let exponent := exponentOf numerator denominator
    let mantissa := roundScaled numerator denominator exponent
    let (mantissa, exponent) :=
      if mantissa = Nat.pow 2 53 then (Nat.pow 2 52, exponent + 1) else (mantissa, exponent)
    if 971 < exponent then .infinity negative else .finite negative mantissa exponent

/-- The number nearest to a rational number. -/
def ofRat (value : Rat) : Binary64 :=
  ofQuotient (value.num < 0) value.num.natAbs value.den

/-- The number nearest to `digits * 10 ^ exponent`, with a sign. Decimals too large for every
finite number or too small for every positive one are told by their magnitude alone. -/
def ofDecimal (negative : Bool) (digits : Nat) (exponent : Int) : Binary64 :=
  let magnitude : Int := (toString digits).length + exponent
  if digits = 0 then zero negative
  else if 310 < magnitude then .infinity negative
  else if magnitude < -330 then zero negative
  else ofQuotient negative (digits * Nat.pow 10 exponent.toNat) (Nat.pow 10 (-exponent).toNat)

/-- The exact value of a finite number. -/
def toRat? : Binary64 → Option Rat
  | .nan => none
  | .infinity _ => none
  | .finite negative mantissa exponent =>
      let magnitude : Int := (mantissa * Nat.pow 2 exponent.toNat : Nat)
      some (mkRat (if negative then -magnitude else magnitude) (Nat.pow 2 (-exponent).toNat))

/-- The number with the opposite sign. -/
def neg : Binary64 → Binary64
  | .nan => .nan
  | .infinity negative => .infinity !negative
  | .finite negative mantissa exponent => .finite (!negative) mantissa exponent

/-- Whether a number is below zero or the zero with a minus. -/
def isNegative : Binary64 → Bool
  | .nan => false
  | .infinity negative => negative
  | .finite negative _ _ => negative

/-- Whether a number is a zero of either sign. -/
def isZero : Binary64 → Bool
  | .finite _ mantissa _ => mantissa == 0
  | _ => false

/-- The sum of two numbers, rounded. -/
def add (first second : Binary64) : Binary64 :=
  match first, second with
  | .nan, _ | _, .nan => .nan
  | .infinity negative, .infinity other => if negative = other then .infinity negative else .nan
  | .infinity negative, _ | _, .infinity negative => .infinity negative
  | _, _ =>
      let sum := first.toRat?.getD 0 + second.toRat?.getD 0
      if sum = 0 then zero (first.isNegative && second.isNegative) else ofRat sum

/-- The product of two numbers, rounded. -/
def mul (first second : Binary64) : Binary64 :=
  let negative := first.isNegative != second.isNegative
  match first, second with
  | .nan, _ | _, .nan => .nan
  | .infinity _, other | other, .infinity _ => if other.isZero then .nan else .infinity negative
  | _, _ =>
      let product := first.toRat?.getD 0 * second.toRat?.getD 0
      ofQuotient negative product.num.natAbs product.den

end Binary64

end ClosureCapture
