import ClosureCapture.Comment
import ClosureCapture.Text.Word

/-!
# Tokens of a capture list

The clauses of a capture list are read as commas, keywords, identifiers and stray characters;
blanks and comments separate them. The first keyword `in` ends the clauses: what follows it,
without the blanks around it, is one body token, unless nothing but blanks and comments is
left. Every token knows its offset, counted in characters.
-/

namespace ClosureCapture

/-- The words of the host language that are never identifiers. -/
def keywords : List String :=
  ["_", "as", "async", "await", "break", "const", "continue", "crate", "dyn", "else", "enum",
    "extern", "false", "fn", "for", "if", "impl", "in", "let", "loop", "match", "mod", "move",
    "mut", "pub", "ref", "return", "self", "Self", "static", "struct", "super", "trait",
    "true", "type", "unsafe", "use", "where", "while", "abstract", "become", "box", "do",
    "final", "macro", "override", "priv", "try", "typeof", "unsized", "virtual", "yield"]

/-- The sort of a token. -/
inductive TokenKind where
  | comma
  | keyword
  | identifier
  | body
  | other
  deriving DecidableEq, Repr

/-- A piece of a capture list with its place. -/
structure Token where
  kind : TokenKind
  text : String
  offset : Nat
  deriving DecidableEq, Repr

namespace Token

/-- The token of a word. -/
def ofWord (word : String) (offset : Nat) : Token :=
  ⟨if keywords.contains word then .keyword else .identifier, word, offset⟩

/-- Whether a token is the given keyword. -/
def isKeyword (token : Token) (word : String) : Bool :=
  token.kind == .keyword && token.text == word

/-- The body token of the text after `in`, if more than blanks and comments is left. -/
def scanBody (offset : Nat) (text : List Char) : List Token :=
  if (Comment.skip text).isEmpty then []
  else
    let blanks := text.length - (Text.trimStart text).length
    [⟨.body, String.ofList (Text.trim text), offset + blanks⟩]

/-- The tokens of a text whose first character stands at the given offset. -/
def scanFrom (offset : Nat) (text : List Char) : List Token :=
  match _skipped : Comment.skip text with
  | [] => []
  | first :: rest =>
      let start := offset + (text.length - (rest.length + 1))
      if first = ',' then ⟨.comma, ",", start⟩ :: scanFrom (start + 1) rest
      else
        match _word : Text.takeWord (first :: rest) with
        | [] => ⟨.other, String.ofList [first], start⟩ :: scanFrom (start + 1) rest
        | letter :: letters =>
            let word := String.ofList (letter :: letters)
            let after := rest.drop letters.length
            let next := start + (letters.length + 1)
            if word = "in" then ofWord word start :: scanBody next after
            else ofWord word start :: scanFrom next after
termination_by text.length
decreasing_by
  all_goals
    have shorter := (Comment.skip_suffix text).length_le
    simp only [_skipped, List.length_cons, List.length_drop] at shorter ⊢
    omega

/-- The tokens of a capture list. -/
def scan (text : List Char) : List Token :=
  scanFrom 0 text

end Token

end ClosureCapture
