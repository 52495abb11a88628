import ClosureCapture.Proofs.Block.Closing

/-!
# The two layouts of a block say the same

A block expression is its body with a text before it and one behind it.  Both layouts write the same
words and signs there: before the body a brace and a `let` statement for each scope, the outermost
first, and behind it as many braces.  They differ in the blanks between them alone.

The inline layout looks at what it has written for a line comment at every level.  This file proves
that it finds one at the innermost level or never, so that it breaks the line at most once, right
behind the body.
-/

namespace ClosureCapture

namespace Text

/-! ### Words and signs -/

/-- A text without its blanks. -/
def visible (text : List Char) : List Char :=
  text.filter (!isBlank ·)

/-- The words of a text and the other characters that are no blanks, in order. -/
def lexemes (text : List Char) : List String :=
  match _trimmed : trimStart text with
  | [] => []
  | first :: rest =>
      match takeWord (first :: rest) with
      | [] => String.ofList [first] :: lexemes rest
      | letter :: letters =>
          String.ofList (letter :: letters) :: lexemes (rest.drop letters.length)
termination_by text.length
decreasing_by
  all_goals
    have shorter := trimStart_length_le text
    simp only [_trimmed, List.length_cons, List.length_drop] at shorter ⊢
    omega

theorem lexemes_nil : lexemes [] = [] := by
  rw [lexemes]
  rfl

theorem lexemes_blanks {blanks : List Char} (allBlank : ∀ blank ∈ blanks, isBlank blank = true)
    (rest : List Char) : lexemes (blanks ++ rest) = lexemes rest := by
  have trimmed : trimStart (blanks ++ rest) = trimStart rest :=
    List.dropWhile_append_of_pos allBlank
  rw [lexemes, lexemes, trimmed]

theorem lexemes_of_visible {first : Char} (visible : isBlank first = false) (rest : List Char) :
    lexemes (first :: rest) =
      match takeWord (first :: rest) with
      | [] => String.ofList [first] :: lexemes rest
      | letter :: letters =>
          String.ofList (letter :: letters) :: lexemes (rest.drop letters.length) := by
  have trimmed : trimStart (first :: rest) = first :: rest :=
    List.dropWhile_cons_of_neg (by simp [visible])
  rw [lexemes, trimmed]

theorem lexemes_word {word : String} {rest : List Char} (whole : IsWhole word.toList)
    (ends : EndsWord rest) : lexemes (word.toList ++ rest) = word :: lexemes rest := by
  obtain ⟨first, others, spelled, isWord⟩ := whole.exists_cons
  have visible : isBlank first = false := by
    rw [Bool.eq_false_iff]
    intro blank
    simp [isWord_of_isBlank blank] at isWord
  have taken := takeWord_append whole ends
  have same : String.ofList (first :: others) = word := by
    rw [← spelled, String.ofList_toList]
  rw [spelled, List.cons_append] at taken ⊢
  rw [lexemes_of_visible visible, taken]
  simp only [same, List.drop_left]

theorem lexemes_sign {sign : Char} (visible : isBlank sign = false)
    (noWord : isWordStart sign = false) (rest : List Char) :
    lexemes (sign :: rest) = String.ofList [sign] :: lexemes rest := by
  rw [lexemes_of_visible visible, takeWord_eq_nil_iff.2 noWord]

theorem lexemes_space (rest : List Char) : lexemes (' ' :: rest) = lexemes rest :=
  @lexemes_blanks [' '] (by simp [isBlank]) rest

/-- Behind a word that a sign or a blank ends, reading goes on there. -/
theorem lexemes_word_cons {word : String} (whole : IsWhole word.toList) {next : Char}
    (ends : isWord next = false ∧ next ≠ '#') (rest : List Char) :
    lexemes (word.toList ++ next :: rest) = word :: lexemes (next :: rest) := by
  apply lexemes_word whole
  rintro character (_ | _)
  exact ends

end Text

namespace Block

open Text

/-! ### Statements -/

/-- The words and signs of the value that a name is rebound to. -/
def valueLexemes (binding : Binding) : List String :=
  match binding.mode with
  | .move => [binding.name]
  | .ref => ["&", binding.name]
  | .refMut => ["&", "mut", binding.name]
  | .method method => [binding.name, ".", method, "(", ")"]

/-- The words and signs that open a scope: a brace and one `let` statement. -/
def openingLexemes (binding : Binding) : List String :=
  ["\x7b", "let", binding.name, "="] ++ valueLexemes binding ++ [";"]

theorem lexemes_value {binding : Binding} (worded : binding.IsWorded) (rest : List Char) :
    lexemes ((value binding).toList ++ ';' :: rest) =
      valueLexemes binding ++ lexemes (';' :: rest) := by
  have name := @lexemes_word_cons _ worded.name ';' (by decide) rest
  cases called : binding.mode with
  | move => simpa [value, valueLexemes, called] using name
  | ref =>
      have spelled : (value binding).toList = '&' :: binding.name.toList := by
        simp [value, called]
      rw [spelled, List.cons_append, lexemes_sign (by decide) (by decide), name]
      simp [valueLexemes, called]
  | refMut =>
      have spelled : (value binding).toList =
          '&' :: ("mut".toList ++ ' ' :: binding.name.toList) := by
        simp [value, called]
      have mutable : IsWhole "mut".toList :=
        .bare (by decide) (List.all_eq_true.1 (by decide))
      rw [spelled, List.cons_append, List.append_assoc, List.cons_append,
        lexemes_sign (by decide) (by decide), lexemes_word_cons mutable (by decide),
        lexemes_space, name]
      simp [valueLexemes, called]
  | method method =>
      have spelled : (value binding).toList =
          binding.name.toList ++ '.' :: (method.toList ++ ['(', ')']) := by
        simp [value, called]
      rw [spelled, List.append_assoc, List.cons_append, List.append_assoc, List.cons_append,
        List.cons_append, List.nil_append, lexemes_word_cons worded.name (by decide),
        lexemes_sign (by decide) (by decide),
        lexemes_word_cons (worded.method method called) (by decide),
        lexemes_sign (by decide) (by decide), lexemes_sign (by decide) (by decide)]
      simp [valueLexemes, called]

theorem lexemes_scope {binding : Binding} (worded : binding.IsWorded) {gap : List Char}
    (allBlank : ∀ blank ∈ gap, isBlank blank = true) (rest : List Char) :
    lexemes ('\x7b' :: (gap ++ ((statement binding).toList ++ rest))) =
      openingLexemes binding ++ lexemes rest := by
  have spelled : (statement binding).toList ++ rest = "let".toList ++ ' ' ::
      (binding.name.toList ++ ' ' :: '=' :: ' ' :: ((value binding).toList ++ ';' :: rest)) := by
    simp [statement]
  have announces : IsWhole "let".toList :=
    .bare (by decide) (List.all_eq_true.1 (by decide))
  rw [lexemes_sign (by decide) (by decide), lexemes_blanks allBlank, spelled,
    lexemes_word_cons announces (by decide), lexemes_space,
    lexemes_word_cons worded.name (by decide), lexemes_space,
    lexemes_sign (by decide) (by decide), lexemes_space, lexemes_value worded,
    lexemes_sign (by decide) (by decide)]
  simp [openingLexemes]

theorem not_mem_of_isWhole {word : List Char} (whole : IsWhole word) {mark : Char}
    (apart : isWord mark = false) (noHash : mark ≠ '#') : mark ∉ word := by
  intro member
  rcases whole.isSpelling mark member with isWord | hash
  · simp [apart] at isWord
  · exact noHash hash

/-- A statement holds words, blanks and a few signs. -/
theorem not_mem_statement {binding : Binding} (worded : binding.IsWorded) (mark : Char)
    (apart : isWord mark = false) (noSign : mark ∉ "# =&.();".toList) :
    mark ∉ (statement binding).toList := by
  have noHash : mark ≠ '#' := fun same => noSign (by simp [same])
  have name := not_mem_of_isWhole worded.name apart noHash
  have letters : ∀ letter ∈ "letmu".toList, mark ≠ letter := by
    rintro letter member rfl
    have areWords : "letmu".toList.all isWord = true := by decide
    exact Bool.false_ne_true (apart.symm.trans (List.all_eq_true.1 areWords mark member))
  cases called : binding.mode with
  | method method =>
      have method := not_mem_of_isWhole (worded.method method called) apart noHash
      simp_all [statement, value]
  | _ => simp_all [statement, value]

/-! ### What stands around a body -/

/-- A text before and one behind a body, made of the statements of some bindings, the first
outermost, of a pair of braces for each of them, and of blanks. -/
inductive Wraps : List Binding → (front back : List Char) → Prop
  | body {front back : List Char} : (∀ blank ∈ front ++ back, isBlank blank = true) →
      Wraps [] front back
  | bind {binding : Binding} {bindings : List Binding}
      {lead gap space front back last : List Char} :
      (∀ blank ∈ lead ++ gap ++ space ++ last, isBlank blank = true) →
      Wraps bindings front back →
      Wraps (binding :: bindings)
        (lead ++ '\x7b' :: (gap ++ ((statement binding).toList ++ (space ++ front))))
        (back ++ (last ++ ['\x7d']))

theorem visible_blanks {blanks : List Char} (allBlank : ∀ blank ∈ blanks, isBlank blank = true) :
    visible blanks = [] := by
  rw [visible, List.filter_eq_nil_iff]
  simpa using allBlank

theorem visible_append (first second : List Char) :
    visible (first ++ second) = visible first ++ visible second :=
  List.filter_append ..

variable {bindings : List Binding} {front back : List Char}

theorem Wraps.visible_front (wraps : Wraps bindings front back) :
    visible front =
      bindings.flatMap fun binding => '\x7b' :: visible (statement binding).toList := by
  induction wraps with
  | body allBlank => exact visible_blanks (List.forall_mem_append.1 allBlank).1
  | bind allBlank _ ih =>
      simp only [List.forall_mem_append] at allBlank
      obtain ⟨⟨⟨blankLead, blankGap⟩, blankSpace⟩, -⟩ := allBlank
      have brace : visible ['\x7b'] = ['\x7b'] := by decide
      rw [← List.singleton_append, visible_append, visible_append, visible_append, visible_append,
        visible_append, visible_blanks blankLead, visible_blanks blankGap,
        visible_blanks blankSpace, brace, ih]
      simp

theorem Wraps.visible_back (wraps : Wraps bindings front back) :
    visible back = List.replicate bindings.length '\x7d' := by
  induction wraps with
  | body allBlank => exact visible_blanks (List.forall_mem_append.1 allBlank).2
  | bind allBlank _ ih =>
      have blankLast := (List.forall_mem_append.1 allBlank).2
      have brace : visible ['\x7d'] = ['\x7d'] := by decide
      rw [visible_append, visible_append, visible_blanks blankLast, brace, ih, List.length_cons,
        List.replicate_succ', List.nil_append]

theorem Wraps.lexemes_front (wraps : Wraps bindings front back)
    (worded : ∀ binding ∈ bindings, binding.IsWorded) :
    lexemes front = bindings.flatMap openingLexemes := by
  induction wraps with
  | @body front back allBlank =>
      have blankFront := (List.forall_mem_append.1 allBlank).1
      rw [← List.append_nil front, lexemes_blanks blankFront, lexemes_nil, List.flatMap_nil]
  | bind allBlank _ ih =>
      simp only [List.forall_mem_append] at allBlank
      obtain ⟨⟨⟨blankLead, blankGap⟩, blankSpace⟩, -⟩ := allBlank
      obtain ⟨here, inside⟩ := List.forall_mem_cons.1 worded
      rw [lexemes_blanks blankLead, lexemes_scope here blankGap, lexemes_blanks blankSpace,
        ih inside, List.flatMap_cons]

/-- The text before a body opens its scopes: the words and signs are those of the bindings in their
order, each with one brace and one `let`. -/
structure IsOpening (bindings : List Binding) (front : List Char) : Prop where
  lexemes_eq : lexemes front = bindings.flatMap openingLexemes
  braces : front.count '\x7b' = bindings.length
  unclosed : '\x7d' ∉ front
  lets : (∀ binding ∈ bindings, binding.name ≠ "let" ∧ binding.mode ≠ .method "let") →
    (lexemes front).count "let" = bindings.length

theorem count_flatMap_of_one {Item Part : Type} [BEq Part] {part : Part} {items : List Item}
    {parts : Item → List Part} (once : ∀ item ∈ items, (parts item).count part = 1) :
    (items.flatMap parts).count part = items.length := by
  induction items with
  | nil => rfl
  | cons item items ih =>
      obtain ⟨here, others⟩ := List.forall_mem_cons.1 once
      rw [List.flatMap_cons, List.count_append, here, ih others, List.length_cons, Nat.add_comm]

theorem count_let_openingLexemes {binding : Binding}
    (other : binding.name ≠ "let" ∧ binding.mode ≠ .method "let") :
    (openingLexemes binding).count "let" = 1 := by
  obtain ⟨name, mode⟩ := binding
  cases mode <;> simp_all [openingLexemes, valueLexemes]

theorem Wraps.isOpening (wraps : Wraps bindings front back)
    (worded : ∀ binding ∈ bindings, binding.IsWorded) : IsOpening bindings front where
  lexemes_eq := wraps.lexemes_front worded
  braces := by
    have seen : (visible front).count '\x7b' = front.count '\x7b' := List.count_filter (by decide)
    rw [← seen, wraps.visible_front]
    apply count_flatMap_of_one
    intro binding member
    have absent := not_mem_statement (worded binding member) '\x7b' (by decide) (by decide)
    rw [List.count_cons_self, List.count_eq_zero_of_not_mem]
    exact fun inside => absent (List.mem_filter.1 inside).1
  unclosed := by
    intro member
    have seen : '\x7d' ∈ visible front := List.mem_filter.2 ⟨member, by decide⟩
    rw [wraps.visible_front, List.mem_flatMap] at seen
    obtain ⟨binding, inBindings, inside⟩ := seen
    have absent := not_mem_statement (worded binding inBindings) '\x7d' (by decide) (by decide)
    rcases List.mem_cons.1 inside with same | inStatement
    · exact absurd same (by decide)
    · exact absent (List.mem_filter.1 inStatement).1
  lets := by
    intro others
    rw [wraps.lexemes_front worded]
    exact count_flatMap_of_one fun binding member =>
      count_let_openingLexemes (others binding member)

/-! ### The pretty layout -/

theorem exists_wraps_pretty (level : Nat) (scope : Scope) :
    ∃ front back, ("\n".intercalate (prettyLines level scope)).toList =
      front ++ (scope.innermost.toList ++ back) ∧ Wraps scope.bindings front back := by
  induction scope generalizing level with
  | body text =>
      refine ⟨(indentation level).toList, [], by simp [prettyLines, Scope.innermost], .body ?_⟩
      simpa using isBlank_indentation level
  | bind binding inner ih =>
      obtain ⟨front, back, split, wraps⟩ := ih (level + 1)
      have blank : ∀ level, ∀ blank ∈ '\n' :: (indentation level).toList,
          isBlank blank = true :=
        fun level => List.forall_mem_append.2 ⟨isBlank_lineEnd, isBlank_indentation level⟩
      refine ⟨_, _, ?_, @Wraps.bind binding inner.bindings (indentation level).toList
        ('\n' :: (indentation (level + 1)).toList) ['\n'] front back
        ('\n' :: (indentation level).toList) ?_ wraps⟩
      · rw [toList_prettyLines_bind, split]
        simp [Scope.innermost]
      · simp only [List.forall_mem_append]
        exact ⟨⟨⟨isBlank_indentation level, blank _⟩, isBlank_lineEnd⟩, blank _⟩

/-! ### The inline layout -/

theorem hasSlashes_iff {text : List Char} : hasSlashes text = true ↔ ['/', '/'] <:+: text := by
  constructor
  · fun_induction hasSlashes text with
    | case1 rest => exact fun _ => ⟨[], rest, rfl⟩
    | case2 first rest _ ih =>
        exact fun found => (ih found).trans (List.suffix_cons first rest).isInfix
    | case3 => simp
  · rintro ⟨front, back, rfl⟩
    simpa using hasSlashes_append front back

theorem exists_append_lastLine (text : List Char) :
    ∃ front, text = front ++ lastLine text ∧ '\n' ∉ lastLine text := by
  refine ⟨(text.reverse.dropWhile (· != '\n')).reverse, ?_, ?_⟩
  · rw [lastLine, ← List.reverse_append, List.takeWhile_append_dropWhile, List.reverse_reverse]
  · intro member
    rw [lastLine, List.mem_reverse] at member
    exact absurd (List.all_eq_true.1 List.all_takeWhile _ member) (by decide)

/-- A line comment may end a text if two slashes stand on its last line. -/
theorem endsInComment_iff {text : String} :
    endsInComment text = true ↔
      ∃ front inside, text.toList = front ++ '/' :: '/' :: inside ∧ '\n' ∉ inside := by
  constructor
  · intro comment
    rw [endsInComment, hasSlashes_iff] at comment
    obtain ⟨before, inside, slashes⟩ := comment
    obtain ⟨front, split, oneLine⟩ := exists_append_lastLine text.toList
    rw [← slashes] at split oneLine
    refine ⟨front ++ before, inside, by simpa using split, ?_⟩
    exact fun member => oneLine (List.mem_append_right _ member)
  · rintro ⟨front, inside, split, oneLine⟩
    exact endsInComment_of_eq_append split oneLine

/-- Texts without slashes around another one make no line comment of it, and a line break behind it
ends the one that is there. -/
theorem endsInComment_of_wrapped {text inside : String} {head tail : List Char}
    (split : text.toList = head ++ (inside.toList ++ tail)) (cleanHead : '/' ∉ head)
    (cleanTail : '/' ∉ tail) (comment : endsInComment text = true) :
    '\n' ∉ tail ∧ endsInComment inside = true := by
  obtain ⟨front, behind, slashes, oneLine⟩ := endsInComment_iff.1 comment
  have whole : (head ++ inside.toList) ++ tail = (front ++ ['/']) ++ '/' :: behind := by
    rw [List.append_assoc, ← split, slashes, List.append_assoc, List.singleton_append]
  obtain ⟨after, early⟩ := exists_of_append_eq_append_cons whole cleanTail
  obtain rfl : after ++ tail = behind := by
    rw [early, List.append_assoc, List.append_cancel_left_eq] at whole
    exact (List.cons.inj whole).2
  rw [List.mem_append, not_or] at oneLine
  refine ⟨oneLine.2, endsInComment_iff.2 ?_⟩
  rw [List.append_assoc, List.singleton_append] at early
  rcases List.append_eq_append_iff.1 early with ⟨middle, -, later⟩ | ⟨middle, whole, later⟩
  · exact ⟨middle, after, later, oneLine.1⟩
  · cases middle with
    | nil => exact ⟨[], after, later.symm, oneLine.1⟩
    | cons slash middle =>
        obtain ⟨rfl, -⟩ := List.cons.inj later
        exact absurd (whole ▸ List.mem_append_right front List.mem_cons_self) cleanHead

/-- What the inline layout puts behind a text. -/
def gapBehind (text : String) : Char :=
  if endsInComment text then '\n' else ' '

theorem gapBehind_eq_iff {text : String} :
    gapBehind text = '\n' ↔ ['/', '/'] <:+: lastLine text.toList := by
  rw [gapBehind, ← hasSlashes_iff, ← endsInComment]
  split <;> simp_all

theorem isBlank_gapBehind (text : String) : isBlank (gapBehind text) = true := by
  unfold gapBehind
  split <;> decide

theorem toList_inlineText_bind (binding : Binding) (inner : Scope) :
    (inlineText (.bind binding inner)).toList =
      ('\x7b' :: ([' '] ++ ((statement binding).toList ++ [' ']))) ++
        ((inlineText inner).toList ++ [gapBehind (inlineText inner), '\x7d']) := by
  rw [inlineText, gapBehind]
  split <;> simp

/-- A block ends in no line comment, whatever is inside. -/
theorem endsInComment_inlineText_bind {binding : Binding} (worded : binding.IsWorded)
    (inner : Scope) : endsInComment (inlineText (.bind binding inner)) = false := by
  have cleanHead : '/' ∉ '\x7b' :: ([' '] ++ ((statement binding).toList ++ [' '])) := by
    simpa using not_mem_statement worded '/' (by decide) (by decide)
  by_contra comment
  rw [Bool.not_eq_false] at comment
  have split := toList_inlineText_bind binding inner
  have cleanTail : '/' ∉ [gapBehind (inlineText inner), '\x7d'] := by
    unfold gapBehind
    split <;> simp
  obtain ⟨noBreak, inside⟩ := endsInComment_of_wrapped split cleanHead cleanTail comment
  simp [gapBehind, inside] at noBreak

/-- Scopes on one line: the line is broken right behind the body if its last line holds two slashes,
and nowhere else. -/
theorem exists_wraps_inline {binding : Binding} {inner : Scope}
    (worded : ∀ other ∈ (Scope.bind binding inner).bindings, other.IsWorded) :
    ∃ front rest, (inlineText (.bind binding inner)).toList =
        front ++ (inner.innermost.toList ++ gapBehind inner.innermost :: rest) ∧
      Wraps (binding :: inner.bindings) front (gapBehind inner.innermost :: rest) ∧
      '\n' ∉ front ∧ '\n' ∉ rest := by
  induction inner generalizing binding with
  | body text =>
      have oneLine := not_mem_statement (worded binding (by simp [Scope.bindings])) '\n' (by decide)
        (by decide)
      refine ⟨_, _, toList_inlineText_bind binding (.body text),
        @Wraps.bind binding [] [] [' '] [' '] [] [] [_] ?_ (.body (by simp)), ?_, by simp⟩
      · simp only [List.nil_append, List.cons_append, List.forall_mem_cons]
        exact ⟨by decide, by decide, isBlank_gapBehind text, by simp⟩
      · simpa using oneLine
  | bind next inner ih =>
      obtain ⟨wordedHere, wordedInside⟩ := List.forall_mem_cons.1 worded
      obtain ⟨front, rest, split, wraps, oneFront, oneRest⟩ := ih wordedInside
      have oneLine := not_mem_statement wordedHere '\n' (by decide) (by decide)
      have noComment := endsInComment_inlineText_bind
        (wordedInside next (by simp [Scope.bindings])) inner
      have space : gapBehind (inlineText (.bind next inner)) = ' ' := by
        simp [gapBehind, noComment]
      refine ⟨_, _, ?_, @Wraps.bind binding _ [] [' '] [' '] front _ [' '] ?_ wraps, ?_, ?_⟩
      · rw [toList_inlineText_bind, split, space]
        simp [Scope.innermost]
      · simp [isBlank]
      · simpa using ⟨oneLine, oneFront⟩
      · simpa using oneRest

/-- The two layouts of scopes are the body with texts around it that agree but for their blanks.
The inline layout breaks the line right behind the body if its last line holds two slashes, and
nowhere else outside the body. -/
theorem render_layouts_agree (outermost : Binding) (inside : Scope)
    (worded : ∀ binding ∈ (Scope.bind outermost inside).bindings, binding.IsWorded) :
    let scope := Scope.bind outermost inside
    ∃ front back prettyFront prettyBack,
      (render .inline scope).toList = front ++ (scope.innermost.toList ++ back) ∧
      (render .pretty scope).toList = prettyFront ++ (scope.innermost.toList ++ prettyBack) ∧
      visible front = visible prettyFront ∧ visible back = visible prettyBack ∧
      IsOpening scope.bindings front ∧ IsOpening scope.bindings prettyFront ∧
      visible back = List.replicate scope.bindings.length '\x7d' ∧
      '\n' ∉ front ∧ ∃ gap rest, back = gap :: rest ∧ '\n' ∉ rest ∧
        (gap = '\n' ↔ ['/', '/'] <:+: lastLine scope.innermost.toList) := by
  intro scope
  obtain ⟨front, rest, split, wraps, oneFront, oneRest⟩ := exists_wraps_inline worded
  obtain ⟨prettyFront, prettyBack, prettySplit, prettyWraps⟩ := exists_wraps_pretty 0 scope
  refine ⟨front, _, prettyFront, prettyBack, split, prettySplit,
    wraps.visible_front.trans prettyWraps.visible_front.symm,
    wraps.visible_back.trans prettyWraps.visible_back.symm, wraps.isOpening worded,
    prettyWraps.isOpening worded, wraps.visible_back, oneFront, _, rest, rfl, oneRest,
    gapBehind_eq_iff⟩

/-- Two scopes, one of them for a raw name, around a body of two lines that ends in a comment. -/
theorem render_layouts_agree_commented :
    (∀ binding ∈ [⟨"r#let", .method "clone"⟩, ⟨"y", .refMut⟩], Binding.IsWorded binding) ∧
    ∃ front rest, (render .inline (.bind ⟨"r#let", .method "clone"⟩
        (.bind ⟨"y", .refMut⟩ (.body "f(\n  y) // )")))).toList =
          front ++ ("f(\n  y) // )".toList ++ '\n' :: rest) ∧
      front.count '\x7b' = 2 ∧ (lexemes front).count "let" = 2 ∧ visible rest = ['\x7d', '\x7d'] ∧
      '\n' ∉ front ∧ '\n' ∉ rest := by
  have worded : ∀ binding ∈ [⟨"r#let", .method "clone"⟩, ⟨"y", .refMut⟩],
      Binding.IsWorded binding := by
    simp only [List.forall_mem_cons, List.not_mem_nil, false_implies, implies_true, and_true]
    refine ⟨⟨.raw (by decide) (List.all_eq_true.1 (by decide)), ?_⟩,
      ⟨.bare (by decide) (List.all_eq_true.1 (by decide)), by simp⟩⟩
    rintro method ⟨⟩
    exact .bare (by decide) (List.all_eq_true.1 (by decide))
  refine ⟨worded, ?_⟩
  obtain ⟨front, _, _, _, split, -, -, -, opening, -, closing, oneFront, gap, rest, rfl, oneRest,
    breaks⟩ := render_layouts_agree ⟨"r#let", .method "clone"⟩
      (.bind ⟨"y", .refMut⟩ (.body "f(\n  y) // )")) worded
  obtain rfl := breaks.2 ⟨"  y) ".toList, " )".toList, by decide⟩
  exact ⟨front, rest, split, opening.braces, opening.lets (by decide), closing, oneFront, oneRest⟩

end Block

end ClosureCapture
