import ClosureCapture.Text.Blank

/-!
# Comments

A line comment starts with `//` and ends after the next line feed. A block comment starts with
`/*` and ends with the `*/` that closes it; block comments nest. A comment that is never closed
runs to the end of the text. All scanners of this library return the text that remains, which is
a suffix of what they were given.
-/

namespace ClosureCapture.Comment

/-- The text after the next line feed, empty when there is none. -/
def afterLine : List Char → List Char
  | [] => []
  | '\n' :: rest => rest
  | _ :: rest => afterLine rest

/-- The text after the block comment of which `depth` levels are open, empty when one of them
is never closed. -/
def afterBlock : (depth : Nat) → List Char → List Char
  | 0, text => text
  | _ + 1, [] => []
  | depth + 1, '/' :: '*' :: rest => afterBlock (depth + 2) rest
  | depth + 1, '*' :: '/' :: rest => afterBlock depth rest
  | depth + 1, _ :: rest => afterBlock (depth + 1) rest

/-- The text after the comment at the start of a text, if there is one. -/
def after? : List Char → Option (List Char)
  | '/' :: '/' :: rest => some (afterLine rest)
  | '/' :: '*' :: rest => some (afterBlock 1 rest)
  | _ => none

theorem afterLine_suffix (text : List Char) : afterLine text <:+ text := by
  fun_induction afterLine text with
  | case1 => exact List.suffix_refl _
  | case2 rest => exact List.suffix_cons _ _
  | case3 character rest _ ih => exact ih.trans (List.suffix_cons _ _)

theorem afterBlock_suffix (depth : Nat) (text : List Char) :
    afterBlock depth text <:+ text := by
  fun_induction afterBlock depth text with
  | case1 text => exact List.suffix_refl _
  | case2 depth => exact List.suffix_refl _
  | case3 depth rest ih => exact ih.trans (List.suffix_append ['/', '*'] rest)
  | case4 depth rest ih => exact ih.trans (List.suffix_append ['*', '/'] rest)
  | case5 depth character rest _ _ ih => exact ih.trans (List.suffix_cons _ _)

theorem after?_suffix {text rest : List Char} (found : after? text = some rest) :
    rest <:+ text := by
  unfold after? at found
  split at found
  · next inner =>
      obtain rfl := Option.some.inj found
      exact (afterLine_suffix inner).trans (List.suffix_append ['/', '/'] inner)
  · next inner =>
      obtain rfl := Option.some.inj found
      exact (afterBlock_suffix 1 inner).trans (List.suffix_append ['/', '*'] inner)
  · simp at found

theorem after?_length_lt {text rest : List Char} (found : after? text = some rest) :
    rest.length < text.length := by
  unfold after? at found
  split at found
  · next inner =>
      obtain rfl := Option.some.inj found
      have shorter := (afterLine_suffix inner).length_le
      simp only [List.length_cons]
      omega
  · next inner =>
      obtain rfl := Option.some.inj found
      have shorter := (afterBlock_suffix 1 inner).length_le
      simp only [List.length_cons]
      omega
  · simp at found

/-- A text without the blanks and comments at its start. -/
def skip (text : List Char) : List Char :=
  match _found : after? (Text.trimStart text) with
  | none => Text.trimStart text
  | some rest => skip rest
termination_by text.length
decreasing_by
  exact Nat.lt_of_lt_of_le (after?_length_lt _found) (Text.trimStart_length_le text)

theorem skip_suffix (text : List Char) : skip text <:+ text := by
  fun_induction skip text with
  | case1 text _ => exact List.dropWhile_suffix _
  | case2 text rest found ih =>
      exact ih.trans ((after?_suffix found).trans (List.dropWhile_suffix _))

end ClosureCapture.Comment
