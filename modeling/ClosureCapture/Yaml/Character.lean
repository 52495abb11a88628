/-!
# Characters of YAML documents

A document holds no control characters besides tabs and line ends. Carriage returns and next
line controls are line feeds to the reader; the two separators of lines and paragraphs are line
breaks that stand for themselves. Three hyphens or three dots separate documents when a gap
follows them.
-/

namespace ClosureCapture.Yaml

/-- Whether a character may stand in a document. -/
def isReadable (character : Char) : Bool :=
  let code := character.toNat
  code == 0x09 || code == 0x0A || code == 0x0D || (0x20 ≤ code && code ≤ 0x7E) ||
    code == 0x85 || (0xA0 ≤ code && code ≤ 0xFFFD) || 0x10000 ≤ code

/-- A text with every carriage return and next line control turned into a line feed. -/
def unifyBreaks : List Char → List Char
  | [] => []
  | '\r' :: '\n' :: rest => '\n' :: unifyBreaks rest
  | '\r' :: rest => '\n' :: unifyBreaks rest
  | character :: rest =>
      (if character.toNat = 0x85 then '\n' else character) :: unifyBreaks rest

/-- Whether a character ends a line. -/
def isBreak (character : Char) : Bool :=
  character == '\n' || character.toNat == 0x2028 || character.toNat == 0x2029

/-- Whether a character is a space or a tab. -/
def isWhite (character : Char) : Bool :=
  character == ' ' || character == '\t'

/-- Whether a text starts with a gap: white space, a line break, or its end. -/
def startsWithGap : List Char → Bool
  | [] => true
  | character :: _ => isWhite character || isBreak character

/-- Whether a text starts with an indicator: the given character and a gap. -/
def startsWithIndicator (indicator : Char) : List Char → Bool
  | first :: rest => first == indicator && startsWithGap rest
  | [] => false

/-- Whether a line starts with the mark of a new document. -/
def startsDocument : List Char → Bool
  | '-' :: '-' :: '-' :: rest => startsWithGap rest
  | _ => false

/-- Whether a line starts with the mark that ends a document. -/
def endsDocument : List Char → Bool
  | '.' :: '.' :: '.' :: rest => startsWithGap rest
  | _ => false

/-- Whether a line starts with either mark. -/
def separatesDocuments (text : List Char) : Bool :=
  startsDocument text || endsDocument text

end ClosureCapture.Yaml
