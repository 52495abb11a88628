import ClosureCapture.Yaml.Quoted

/-!
# Plain scalars

A plain scalar is written without quotes. It is a run of chunks without white space, each ended
by a gap, by a colon before a gap, and inside brackets also by the flow indicators. A gap before
the next chunk belongs to the scalar, with line breaks folded, unless a comment follows it or,
outside brackets, the next line is not indented enough.
-/

namespace ClosureCapture.Yaml

/-- The characters that start something else than a plain scalar. -/
def reservedStarts : List Char :=
  ['-', '?', ':', ',', '[', ']', '\x7b', '\x7d', '#', '&', '*', '!', '|', '>', '\'', '"', '%',
    '@', '\x60']

/-- The characters that structure a collection in brackets. -/
def flowIndicators : List Char :=
  [',', '?', '[', ']', '\x7b', '\x7d']

/-- Whether a plain scalar starts here. A hyphen, and outside brackets a question mark or a
colon, may start one when no gap follows. -/
def startsPlain (inFlow : Bool) : List Char → Bool
  | [] => false
  | first :: rest =>
      if reservedStarts.contains first then
        !startsWithGap rest && (first == '-' || (!inFlow && (first == '?' || first == ':')))
      else !startsWithGap [first]

/-- Whether a colon ends a chunk before the given text. -/
def endsAtColon (inFlow : Bool) (rest : List Char) : Bool :=
  startsWithGap rest ||
    (inFlow && rest.head?.any fun next => next != '?' && flowIndicators.contains next)

/-- The chunk at the start of a text, and what follows it. -/
def takeChunk (inFlow : Bool) : List Char → List Char × List Char
  | [] => ([], [])
  | first :: rest =>
      if isWhite first || isBreak first || (first == ':' && endsAtColon inFlow rest) ||
          (inFlow && flowIndicators.contains first) then
        ([], first :: rest)
      else
        let (chunk, after) := takeChunk inFlow rest
        (first :: chunk, after)

/-- The breaks of the empty lines at the start of a text, the indentation of the next line, and
the text from its first other character on; `indentation` spaces have been met on the first. -/
def takePlainLines (indentation : Nat) : List Char → List Char × Nat × List Char
  | [] => ([], indentation, [])
  | first :: rest =>
      if first = ' ' then takePlainLines (indentation + 1) rest
      else if isBreak first then
        let (breaks, last, after) := takePlainLines 0 rest
        (first :: breaks, last, after)
      else ([], indentation, first :: rest)

/-- What the gap at the start of a text stands for and the text after it, when a plain scalar
may go on behind it. Outside brackets the next line must be indented up to the floor. -/
def takeGap (inFlow : Bool) (floor : Nat) (text : List Char) :
    Option (List Char × List Char) :=
  let spaces := text.takeWhile (· == ' ')
  let continued (gap after : List Char) : Option (List Char × List Char) :=
    if after.head? = some '#' then none else some (gap, after)
  match text.dropWhile (· == ' ') with
  | [] => none
  | first :: rest =>
      if isBreak first then
        let (breaks, indentation, after) := takePlainLines 0 rest
        if !inFlow && indentation < floor then none
        else continued (foldBreaks first breaks) after
      else if spaces.isEmpty then none
      else continued spaces (first :: rest)

theorem takeChunk_append (inFlow : Bool) (text : List Char) :
    (takeChunk inFlow text).1 ++ (takeChunk inFlow text).2 = text := by
  induction text with
  | nil => rfl
  | cons first rest ih =>
      simp only [takeChunk]
      split
      · rfl
      · simp [ih]

theorem takePlainLines_length_le (indentation : Nat) (text : List Char) :
    (takePlainLines indentation text).2.2.length ≤ text.length := by
  fun_induction takePlainLines indentation text with
  | case1 => simp
  | case2 indentation rest ih => exact Nat.le_succ_of_le ih
  | case3 indentation first rest _ _ breaks last after _ ih =>
      simp_all only [List.length_cons]
      omega
  | case4 => simp

theorem takeGap_length_le {inFlow : Bool} {floor : Nat} {text : List Char}
    {result : List Char × List Char} (taken : takeGap inFlow floor text = some result) :
    result.2.length ≤ text.length := by
  have spaces := (List.dropWhile_suffix (l := text) (· == ' ')).length_le
  simp only [takeGap] at taken
  split at taken
  · simp at taken
  · next first rest content =>
      rw [content, List.length_cons] at spaces
      have lines := takePlainLines_length_le 0 rest
      rcases below : takePlainLines 0 rest with ⟨breaks, indentation, after⟩
      simp only [below] at lines taken
      repeat' split at taken
      all_goals simp only [Option.some.injEq, reduceCtorEq] at taken
      all_goals subst taken
      all_goals simp only [List.length_cons]
      all_goals omega

/-- A plain scalar and the text right after its last chunk. -/
def readPlain (inFlow : Bool) (floor : Nat) (text : List Char) : List Char × List Char :=
  match _chunk : takeChunk inFlow text with
  | ([], after) => ([], after)
  | (first :: chunk, after) =>
      match _gap : takeGap inFlow floor after with
      | none => (first :: chunk, after)
      | some (gap, start) =>
          match readPlain inFlow floor start with
          | ([], _) => (first :: chunk, after)
          | (content, later) => (first :: chunk ++ gap ++ content, later)
termination_by text.length
decreasing_by
  have split := takeChunk_append inFlow text
  have shorter := takeGap_length_le _gap
  rw [_chunk] at split
  simp only [← split, List.cons_append, List.length_cons, List.length_append] at shorter ⊢
  omega

end ClosureCapture.Yaml
