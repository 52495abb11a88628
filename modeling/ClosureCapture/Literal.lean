import ClosureCapture.Comment
import ClosureCapture.Text.Hexadecimal
import ClosureCapture.Text.Word

/-!
# Comments and literals of the host language

A scan for code passes over comments and over string and character literals. A literal starts
only where no word character stands before it, so that its markers `b` and `r` are not the end
of a word. A quote that forms no character literal is left alone: it starts a lifetime. Strings
that are never closed run to the end of the text when they start with their quote.
-/

namespace ClosureCapture.Literal

/-- The text after the quote that closes a string, if there is one. A backslash takes the next
character with it. -/
def afterString? : List Char → Option (List Char)
  | [] => none
  | '"' :: rest => some rest
  | ['\\'] => none
  | '\\' :: _ :: rest => afterString? rest
  | _ :: rest => afterString? rest

/-- The text after the first occurrence of a pattern, empty when there is none. -/
def afterPattern (pattern : List Char) : List Char → List Char
  | [] => []
  | first :: rest =>
      if pattern.isPrefixOf (first :: rest) then (first :: rest).drop pattern.length
      else afterPattern pattern rest

/-- The text after a raw string, given the text after its `r`. Its closing quote is followed by
as many hashes as stand before its opening one. -/
def afterRaw? (text : List Char) : Option (List Char) :=
  let hashes := text.takeWhile (· == '#')
  match text.dropWhile (· == '#') with
  | '"' :: rest => some (afterPattern ('"' :: hashes) rest)
  | _ => none

/-- The texts that can follow the escape after a backslash in a character literal, the longer
escapes first. -/
def afterEscape (text : List Char) : List (List Char) :=
  let code := match text with
    | 'u' :: '\x7b' :: rest =>
        match (rest.takeWhile (Text.hexValue? · |>.isSome)).isEmpty,
            rest.dropWhile (Text.hexValue? · |>.isSome) with
        | false, '\x7d' :: after => [after]
        | _, _ => []
    | 'x' :: first :: second :: rest =>
        if (Text.hexValue? first).isSome && (Text.hexValue? second).isSome then [rest] else []
    | _ => []
  let single := match text with
    | character :: rest => if character == '\n' then [] else [rest]
    | [] => []
  code ++ single

/-- The text after the quote that closes a character literal, if one character or escape stands
before it. -/
def afterCharacter? : List Char → Option (List Char)
  | '\\' :: rest =>
      (afterEscape rest).findSome? fun
        | '\'' :: after => some after
        | _ => none
  | character :: '\'' :: rest =>
      if character == '\'' || character == '\n' then none else some rest
  | _ => none

/-- The text after the literal that starts with a quote, if it is closed. -/
def afterQuoted? : List Char → Option (List Char)
  | '"' :: rest => afterString? rest
  | '\'' :: rest => afterCharacter? rest
  | _ => none

/-- The text after the literal at the start of a text, if there is one. -/
def afterLiteral? : List Char → Option (List Char)
  | 'b' :: 'r' :: rest => afterRaw? rest
  | 'b' :: rest => afterQuoted? rest
  | 'r' :: rest => afterRaw? rest
  | '"' :: rest => some ((afterString? rest).getD [])
  | text => afterQuoted? text

/-- The text after the comment or literal at the start of a text, if there is one, given the
character before it. -/
def after? (previous : Option Char) (text : List Char) : Option (List Char) :=
  match Comment.after? text with
  | some rest => some rest
  | none => if previous.any Text.isWord then none else afterLiteral? text

theorem afterString?_suffix {text rest : List Char} (found : afterString? text = some rest) :
    rest <:+ text := by
  fun_induction afterString? text with
  | case1 => simp at found
  | case2 inner => obtain rfl := Option.some.inj found; exact List.suffix_cons _ _
  | case3 => simp at found
  | case4 escaped inner ih => exact (ih found).trans (List.suffix_append ['\\', escaped] inner)
  | case5 first inner _ _ _ ih => exact (ih found).trans (List.suffix_cons _ _)

theorem afterPattern_suffix (pattern text : List Char) : afterPattern pattern text <:+ text := by
  fun_induction afterPattern pattern text with
  | case1 => exact List.suffix_refl _
  | case2 first rest _ => exact List.drop_suffix _ _
  | case3 first rest _ ih => exact ih.trans (List.suffix_cons _ _)

theorem afterRaw?_suffix {text rest : List Char} (found : afterRaw? text = some rest) :
    rest <:+ text := by
  simp only [afterRaw?] at found
  split at found
  · next inner quoted =>
      obtain rfl := Option.some.inj found
      have tail : inner <:+ text :=
        (List.suffix_cons '"' inner).trans (quoted ▸ List.dropWhile_suffix _)
      exact (afterPattern_suffix _ inner).trans tail
  · simp at found

theorem afterEscape_suffix {text rest : List Char} (found : rest ∈ afterEscape text) :
    rest <:+ text := by
  simp only [afterEscape, List.mem_append] at found
  rcases found with code | single
  · split at code
    · next inner =>
        split at code
        · next after _ closed =>
            obtain rfl := List.mem_singleton.1 code
            have tail : rest <:+ inner :=
              (List.suffix_cons _ rest).trans (closed ▸ List.dropWhile_suffix _)
            exact tail.trans (List.suffix_append ['u', '\x7b'] inner)
        · simp at code
    · next first second inner =>
        split at code
        · obtain rfl := List.mem_singleton.1 code
          exact List.suffix_append ['x', first, second] rest
        · simp at code
    · simp at code
  · split at single
    · split at single
      · simp at single
      · obtain rfl := List.mem_singleton.1 single
        exact List.suffix_cons _ _
    · simp at single

theorem afterCharacter?_suffix {text rest : List Char}
    (found : afterCharacter? text = some rest) : rest <:+ text := by
  unfold afterCharacter? at found
  split at found
  · next inner =>
      obtain ⟨ending, member, closed⟩ := List.exists_of_findSome?_eq_some found
      split at closed
      · next after =>
          obtain rfl := Option.some.inj closed
          exact (List.suffix_cons _ _).trans
            ((afterEscape_suffix member).trans (List.suffix_cons _ _))
      · simp at closed
  · next character inner _ =>
      split at found
      · simp at found
      · obtain rfl := Option.some.inj found
        exact List.suffix_append [character, '\''] inner
  · simp at found

theorem afterQuoted?_length_lt {text rest : List Char} (found : afterQuoted? text = some rest) :
    rest.length < text.length := by
  unfold afterQuoted? at found
  split at found
  · exact Nat.lt_succ_of_le (afterString?_suffix found).length_le
  · exact Nat.lt_succ_of_le (afterCharacter?_suffix found).length_le
  · simp at found

theorem afterLiteral?_length_lt {text rest : List Char} (found : afterLiteral? text = some rest) :
    rest.length < text.length := by
  unfold afterLiteral? at found
  split at found
  · have shorter := (afterRaw?_suffix found).length_le
    simp only [List.length_cons]
    omega
  · exact Nat.lt_succ_of_lt (afterQuoted?_length_lt found)
  · exact Nat.lt_succ_of_le (afterRaw?_suffix found).length_le
  · next inner =>
      obtain rfl := Option.some.inj found
      cases closed : afterString? inner with
      | none => simp
      | some after => exact Nat.lt_succ_of_le (afterString?_suffix closed).length_le
  · exact afterQuoted?_length_lt found

theorem after?_length_lt {previous : Option Char} {text rest : List Char}
    (found : after? previous text = some rest) : rest.length < text.length := by
  unfold after? at found
  split at found
  · next inner comment =>
      obtain rfl := Option.some.inj found
      exact Comment.after?_length_lt comment
  · split at found
    · simp at found
    · exact afterLiteral?_length_lt found

end ClosureCapture.Literal
