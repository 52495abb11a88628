import ClosureCapture.Number.Binary64
import ClosureCapture.Text.Blank
import ClosureCapture.Text.Decimal
import ClosureCapture.Text.Hexadecimal
import ClosureCapture.Text.Numeral
import ClosureCapture.Value.Text
import ClosureCapture.Yaml.Fault

/-!
# Numbers in YAML documents

Whole numbers are written in base two, eight, ten or sixteen, or as digits of base sixty between
colons. A floating point number has a point in it, and its exponent has a sign. Underscores may
stand between digits and mean nothing.

A scalar that is tagged as a number need not be spelled like one in a document. It is read with
fewer rules: there may be blanks around it and another sign, digits may be of any script, a whole
number may have the mark of its base, and a floating point number needs no point.
-/

namespace ClosureCapture.Yaml

/-- The sign of a number, true for a minus, and the text after it. -/
def splitSign : List Char → Bool × List Char
  | '-' :: rest => (true, rest)
  | '+' :: rest => (false, rest)
  | text => (false, text)

/-- The parts of a text between its colons. -/
def splitColons : List Char → List (List Char)
  | [] => [[]]
  | ':' :: rest => [] :: splitColons rest
  | first :: rest =>
      match splitColons rest with
      | [] => [[first]]
      | part :: parts => (first :: part) :: parts

/-- Whether a character is a digit or separates digits. -/
def isDigitOrMark (character : Char) : Bool :=
  character.isDigit || character == '_'

/-- Whether a text is a number below sixty of one or two digits. -/
def isSixtieth : List Char → Bool
  | [last] => last.isDigit
  | [first, last] => '0' ≤ first && first ≤ '5' && last.isDigit
  | _ => false

/-- Whether a text is a whole number without its sign. -/
def isUnsignedInteger : List Char → Bool
  | [] => false
  | ['0'] => true
  | '0' :: 'b' :: digits => !digits.isEmpty && digits.all fun digit => "01_".contains digit
  | '0' :: 'x' :: digits =>
      !digits.isEmpty && digits.all fun digit => digit == '_' || (Text.hexValue? digit).isSome
  | '0' :: digits => digits.all fun digit => "01234567_".contains digit
  | first :: rest =>
      match splitColons (first :: rest) with
      | [] => false
      | whole :: parts =>
          first.isDigit && whole.all isDigitOrMark && parts.all isSixtieth

/-- Whether a text is a whole number. -/
def isInteger (text : List Char) : Bool :=
  isUnsignedInteger (splitSign text).2

/-- Whether a text is empty or an exponent with its sign. -/
def isExponent : List Char → Bool
  | [] => true
  | mark :: sign :: digits =>
      (mark == 'e' || mark == 'E') && (sign == '-' || sign == '+') && !digits.isEmpty &&
        digits.all Char.isDigit
  | _ => false

/-- The spellings of infinity without its sign. -/
def infinityWords : List (List Char) :=
  [".inf".toList, ".Inf".toList, ".INF".toList]

/-- The spellings of what is not a number. -/
def nanWords : List (List Char) :=
  [".nan".toList, ".NaN".toList, ".NAN".toList]

/-- Whether a text that starts with a digit is a floating point number: digits, a point, digits
and an exponent, or digits of base sixty with a point in the last. -/
def isWholeAndFraction (text : List Char) : Bool :=
  text.head?.any Char.isDigit &&
    match text.dropWhile isDigitOrMark with
    | '.' :: rest => isExponent (rest.dropWhile isDigitOrMark)
    | ':' :: rest =>
        let parts := splitColons (rest.takeWhile (· != '.'))
        parts.all isSixtieth &&
          match rest.dropWhile (· != '.') with
          | '.' :: fraction => fraction.all isDigitOrMark
          | _ => false
    | _ => false

/-- Whether a text is a floating point number. -/
def isFloat (text : List Char) : Bool :=
  let body := (splitSign text).2
  infinityWords.contains body || nanWords.contains text || isWholeAndFraction body ||
    match text with
    | '.' :: first :: rest => first.isDigit && isExponent (rest.dropWhile isDigitOrMark)
    | _ => false

/-! ### Reading what is tagged as a number -/

/-- Whether a character may stand around a number. -/
def isNumberBlank (character : Char) : Bool :=
  Text.isBlank character && !(0x1C ≤ character.toNat && character.toNat ≤ 0x1F)

/-- The digits and marks of a number without the blanks around it, all digits in ASCII. -/
def numberText (text : List Char) : List Char :=
  let start := text.dropWhile isNumberBlank
  let body := (start.reverse.dropWhile isNumberBlank).reverse
  body.map fun character =>
    match Text.decimalValue? character with
    | some value => Char.ofNat (48 + value)
    | none => character

/-- Drop the mark of a base in either case. -/
def dropBaseMark (mark : Char) : List Char → List Char
  | '0' :: given :: rest => if given.toLower = mark then rest else '0' :: given :: rest
  | text => text

/-- A number of base two, eight, ten or sixteen, which has digits and nothing else. -/
def readDigits? (base : Nat) (text : List Char) : Option Nat :=
  if text.isEmpty then none
  else
    text.foldlM (fun value digit =>
      (Text.hexValue? digit).bind fun next =>
        if next < base then some (value * base + next) else none) 0

/-- The number written by decimal digits, if there are any and not too many. -/
def readDecimal? (digits : List Char) : Option Nat :=
  if digits.length ≤ digitLimit then readDigits? 10 digits else none

/-- A signed number as read in a base, `mark` being the letter of the base. -/
def readSigned? (read : List Char → Option Nat) (mark : Char) (text : List Char) : Option Int :=
  let (negative, digits) := splitSign (numberText text)
  (read (dropBaseMark mark digits)).map fun (value : Nat) =>
    if negative then -(value : Int) else value

/-- The decimal number written by a text. -/
def readDecimalInteger? (text : List Char) : Option Int :=
  let (negative, digits) := splitSign (numberText text)
  (readDecimal? digits).map fun (value : Nat) => if negative then -(value : Int) else value

/-- The whole number written by a text without its first sign and without marks. -/
def readUnsignedInteger? : List Char → Option Int
  | ['0'] => some 0
  | '0' :: 'b' :: digits => readSigned? (readDigits? 2) 'b' digits
  | '0' :: 'x' :: digits => readSigned? (readDigits? 16) 'x' digits
  | '0' :: digits => readSigned? (readDigits? 8) 'o' ('0' :: digits)
  | text =>
      (splitColons text).foldlM
        (fun value part => (readDecimalInteger? part).map (value * 60 + ·)) 0

/-- The whole number written by a text, which must not end before its first digit. -/
def readInteger (text : List Char) : Except Fault Int :=
  let (negative, body) := splitSign (text.filter (· != '_'))
  if body.isEmpty then .error .noDigits
  else
    match readUnsignedInteger? body with
    | some value => .ok (if negative then -value else value)
    | none => .error .outOfRange

/-- The power of ten of an exponent without its mark, which may lack its sign. -/
def readExponent? (text : List Char) : Option Int :=
  let (negative, digits) := splitSign text
  (readDigits? 10 digits).map fun (value : Nat) => if negative then -(value : Int) else value

/-- The floating point number written by digits, a point among them and an exponent. -/
def readFraction? (text : List Char) : Option Binary64 := do
  let mantissa := text.takeWhile (· != 'e')
  let exponent ← match text.dropWhile (· != 'e') with
    | [] => some 0
    | _ :: power => readExponent? power
  let whole := mantissa.takeWhile (· != '.')
  let fraction := (mantissa.dropWhile (· != '.')).drop 1
  let digits ← readDigits? 10 (whole ++ fraction)
  return .ofDecimal false digits (exponent - fraction.length)

/-- The floating point number written by a text in lower case. -/
def readUnsignedFloat? (text : List Char) : Option Binary64 :=
  let (negative, body) := splitSign (numberText text)
  let magnitude :=
    if body = "inf".toList ∨ body = "infinity".toList then some (.infinity false)
    else if body = "nan".toList then some .nan
    else readFraction? body
  magnitude.map fun value => if negative then value.neg else value

/-- Digits of base sixty, the last first, added to a sum with their powers of sixty, each step
rounded. A power must not be beyond all numbers. -/
def sumSixtieths (sum : Binary64) (power : Nat) : List Binary64 → Option Binary64
  | [] => some sum
  | digit :: digits =>
      match Binary64.ofQuotient false power 1 with
      | .infinity _ => none
      | factor => sumSixtieths (sum.add (digit.mul factor)) (power * 60) digits

/-- The floating point number written by a text. -/
def readFloat (text : List Char) : Except Fault Binary64 :=
  let spelled := (text.filter (· != '_')).map Char.toLower
  let (negative, body) := splitSign spelled
  let magnitude :=
    if body = ".inf".toList then some (.infinity false)
    else if body = ".nan".toList then some .nan
    else
      match splitColons body with
      | [_] => readUnsignedFloat? body
      | parts => (parts.reverse.mapM readUnsignedFloat?).bind (sumSixtieths (.zero false) 1)
  if spelled.isEmpty then .error .noDigits
  else
    match magnitude with
    | some value => .ok (if negative then value.neg else value)
    | none => .error .outOfRange

end ClosureCapture.Yaml
