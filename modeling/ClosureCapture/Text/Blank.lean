/-!
# Blanks

The blank characters separate words and are trimmed from the ends of texts. They are the
ASCII controls that move the cursor, the information separators, and the space characters and
line separators of all scripts.
-/

namespace ClosureCapture.Text

/-- Whether a character is a blank. -/
def isBlank (character : Char) : Bool :=
  let code := character.toNat
  (0x09 ≤ code && code ≤ 0x0D) || (0x1C ≤ code && code ≤ 0x20) ||
    code == 0x85 || code == 0xA0 || code == 0x1680 ||
    (0x2000 ≤ code && code ≤ 0x200A) || code == 0x2028 || code == 0x2029 ||
    code == 0x202F || code == 0x205F || code == 0x3000

/-- A text without its leading blanks. -/
def trimStart (text : List Char) : List Char :=
  text.dropWhile isBlank

/-- A text without its trailing blanks. -/
def trimEnd (text : List Char) : List Char :=
  (text.reverse.dropWhile isBlank).reverse

/-- A text without the blanks at both ends. -/
def trim (text : List Char) : List Char :=
  trimEnd (trimStart text)

theorem trimStart_length_le (text : List Char) :
    (trimStart text).length ≤ text.length :=
  (List.dropWhile_suffix isBlank).length_le

end ClosureCapture.Text
