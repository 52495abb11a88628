import ClosureCapture.Text.Letter
import ClosureCapture.Text.Numeral

/-!
# Words

A word is a maximal run of letters, numerals and underscores that does not start with a
decimal digit. It may carry the raw marker `r#` in front, which is part of the word when a
word really follows it.
-/

namespace ClosureCapture.Text

/-- Whether a character can stand in a word. -/
def isWord (character : Char) : Bool :=
  character == '_' || isLetter character || isNumeral character

/-- Whether a character can start a word. -/
def isWordStart (character : Char) : Bool :=
  isWord character && !isDigit character

/-- The word without raw marker at the start of a text, empty when there is none. -/
def takeBareWord : List Char → List Char
  | [] => []
  | first :: rest => if isWordStart first then first :: rest.takeWhile isWord else []

/-- The word at the start of a text, empty when there is none. -/
def takeWord : List Char → List Char
  | 'r' :: '#' :: rest =>
      match takeBareWord rest with
      | [] => takeBareWord ('r' :: '#' :: rest)
      | word => 'r' :: '#' :: word
  | text => takeBareWord text

end ClosureCapture.Text
