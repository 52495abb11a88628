import ClosureCapture.Text.Hexadecimal
import ClosureCapture.Yaml.Character
import ClosureCapture.Yaml.Fault

/-!
# Quoted scalars

A scalar in single quotes writes a quote twice; one in double quotes knows escapes. In both, a
line break with the white space around it is folded: alone it is a space, and with empty lines
after it the empty lines remain. In double quotes an escaped line break vanishes.
-/

namespace ClosureCapture.Yaml

/-- The breaks of the empty lines at the start of a text, and the text from the first other
character on. -/
def takeEmptyLines (text : List Char) : List Char × List Char :=
  match _content : text.dropWhile isWhite with
  | [] => ([], [])
  | first :: rest =>
      if isBreak first then
        let (breaks, after) := takeEmptyLines rest
        (first :: breaks, after)
      else ([], first :: rest)
termination_by text.length
decreasing_by
  have shorter := (List.dropWhile_suffix (l := text) isWhite).length_le
  simp only [_content, List.length_cons] at shorter
  omega

/-- What a line break and the breaks of the empty lines after it stand for. -/
def foldBreaks (lineBreak : Char) (breaks : List Char) : List Char :=
  if lineBreak ≠ '\n' then lineBreak :: breaks
  else if breaks.isEmpty then [' ']
  else breaks

/-- The character of a one-letter escape. -/
def shortEscape? : Char → Option Char
  | '0' => some '\x00'
  | 'a' => some '\x07'
  | 'b' => some '\x08'
  | 't' => some '\t'
  | '\t' => some '\t'
  | 'n' => some '\n'
  | 'v' => some '\x0b'
  | 'f' => some '\x0c'
  | 'r' => some '\r'
  | 'e' => some '\x1b'
  | ' ' => some ' '
  | '"' => some '"'
  | '\\' => some '\\'
  | '/' => some '/'
  | 'N' => some '\u0085'
  | '_' => some '\u00a0'
  | 'L' => some '\u2028'
  | 'P' => some '\u2029'
  | _ => none

/-- The number of digits of an escape by code. -/
def codeWidth? : Char → Option Nat
  | 'x' => some 2
  | 'u' => some 4
  | 'U' => some 8
  | _ => none

/-- The character of a code; the codes of surrogates become the replacement character. -/
def characterOf (code : Nat) : Except Fault Char :=
  if 0x10FFFF < code then .error .outOfRange
  else if 0xD800 ≤ code ∧ code ≤ 0xDFFF then .ok '\ufffd'
  else .ok (Char.ofNat code)

/-- What the escape after a backslash stands for, and the text after it. -/
def readEscape : List Char → Except Fault (List Char × List Char)
  | [] => .error .malformed
  | letter :: rest =>
      match shortEscape? letter, codeWidth? letter with
      | some character, _ => .ok ([character], rest)
      | none, some width =>
          match Text.readHex? (rest.take width), decide (width ≤ rest.length) with
          | some code, true => (characterOf code).map fun character =>
              ([character], rest.drop width)
          | _, _ => .error .malformed
      | none, none =>
          if isBreak letter then .ok (takeEmptyLines rest) else .error .malformed

theorem takeEmptyLines_length_le (text : List Char) :
    (takeEmptyLines text).2.length ≤ text.length := by
  fun_induction takeEmptyLines text with
  | case1 => simp
  | case2 text first rest content _ breaks after _ ih =>
      have shorter := (List.dropWhile_suffix (l := text) isWhite).length_le
      simp_all only [List.length_cons]
      omega
  | case3 text first rest content _ =>
      have shorter := (List.dropWhile_suffix (l := text) isWhite).length_le
      rwa [content] at shorter

theorem readEscape_length_lt {text : List Char} {result : List Char × List Char}
    (read : readEscape text = .ok result) : result.2.length < text.length := by
  unfold readEscape at read
  split at read
  · simp at read
  · next letter rest =>
      split at read
      · obtain rfl := Except.ok.inj read
        simp
      · next width _ _ =>
          split at read
          · next code _ _ =>
              cases named : characterOf code with
              | error fault => simp [named, Except.map] at read
              | ok character =>
                  simp only [named, Except.map, Except.ok.injEq] at read
                  subst read
                  simp only [List.length_drop, List.length_cons]
                  omega
          · simp at read
      · split at read
        · obtain rfl := Except.ok.inj read
          exact Nat.lt_succ_of_le (takeEmptyLines_length_le rest)
        · simp at read

/-- The content of a quoted scalar after its opening quote, and the text after its closing
one. -/
def readQuoted (double : Bool) (text : List Char) : Except Fault (List Char × List Char) :=
  match text with
  | [] => .error .malformed
  | first :: rest =>
      if first = (if double then '"' else '\'') then
        match double, rest with
        | false, '\'' :: later => do
            let (content, after) ← readQuoted double later
            return ('\'' :: content, after)
        | _, _ => return ([], rest)
      else if double && first == '\\' then
        match _escape : readEscape rest with
        | .error fault => .error fault
        | .ok (characters, later) => do
            let (content, after) ← readQuoted double later
            return (characters ++ content, after)
      else if isWhite first || isBreak first then
        match _white : (first :: rest).dropWhile isWhite with
        | [] => .error .malformed
        | next :: later =>
            if isBreak next then
              match _lines : takeEmptyLines later with
              | (breaks, start) => do
                  let (content, after) ← readQuoted double start
                  return (foldBreaks next breaks ++ content, after)
            else if isWhite first then do
              let (content, after) ← readQuoted double (next :: later)
              return ((first :: rest).takeWhile isWhite ++ content, after)
            else .error .malformed
      else do
        let (content, after) ← readQuoted double rest
        return (first :: content, after)
termination_by text.length
decreasing_by
  · simp only [List.length_cons]; omega
  · exact Nat.lt_succ_of_lt (readEscape_length_lt _escape)
  · have shorter := (List.dropWhile_suffix (l := first :: rest) isWhite).length_le
    have lines := takeEmptyLines_length_le later
    simp only [_white, _lines, List.length_cons] at shorter lines ⊢
    omega
  · rename_i white
    have shorter := (List.dropWhile_suffix (l := rest) isWhite).length_le
    simp only [List.dropWhile_cons, white, if_true] at _white
    simp only [_white, List.length_cons] at shorter ⊢
    omega
  · simp

end ClosureCapture.Yaml
