import ClosureCapture.Delimiter
import ClosureCapture.Lambda
import Mathlib.Data.List.Induction
import Mathlib.Tactic.SplitIfs

/-!
# Where a group ends

An expression can hold strings, comments and brackets, and a parenthesis closes a group only
where it stands outside of the first two and all brackets inside the group are closed.  A scanner
reads an expression character by character and knows where it is: in code, in a comment or in a
string, and which brackets are still open.

A text is complete when it opens no bracket or string that it does not close.  This file proves
that the parenthesis behind a complete text closes the group that the text is put into, provided
that a comment at its end is ended first.
-/

namespace ClosureCapture.Lambda

/-- The characters that strings stand between. -/
inductive Quote where
  | single
  | double
  deriving DecidableEq, Repr

/-- The character of a quote. -/
def Quote.character : Quote → Char
  | .single => '\''
  | .double => '"'

/-- The quote that a character is. -/
def Quote.of? (character : Char) : Option Quote :=
  [Quote.single, .double].find? (·.character == character)

/-- Where the scanner of an expression is.  A long string stands between triple quotes. -/
inductive Region where
  | code
  | comment
  /-- Behind the first quote of a string. -/
  | opened (quote : Quote)
  /-- Behind two quotes, which are an empty string or begin a long one. -/
  | doubled (quote : Quote)
  /-- In a string; in a long one, behind the given number of quotes in a row. -/
  | string (quote : Quote) (long : Bool) (quotes : Nat)
  /-- In a string, behind a backslash. -/
  | escape (quote : Quote) (long : Bool)
  deriving DecidableEq, Repr

/-- Whether code goes on here. -/
def Region.isCode : Region → Bool
  | .code => true
  | .doubled _ => true
  | _ => false

theorem Region.isCode_iff {region : Region} :
    region.isCode = true ↔ region = .code ∨ ∃ quote, region = .doubled quote := by
  cases region <;> simp [Region.isCode]

/-- Where the scanner is, and the brackets that are open, the innermost first. -/
structure Position where
  region : Region
  brackets : List Bracket
  deriving DecidableEq, Repr

namespace Position

/-- The start of an expression. -/
def start : Position := ⟨.code, []⟩

/-- Whether a character ends a line. -/
def endsLine (character : Char) : Bool :=
  character == '\n' || character == '\r'

/-- The position behind a character of code.  A bracket must not close another one than the
innermost. -/
def stepCode (brackets : List Bracket) (character : Char) : Option Position :=
  if character = '#' then some ⟨.comment, brackets⟩
  else
    match Quote.of? character, Bracket.ofOpening? character, Bracket.ofClosing? character with
    | some quote, _, _ => some ⟨.opened quote, brackets⟩
    | none, some bracket, _ => some ⟨.code, bracket :: brackets⟩
    | none, none, some bracket =>
        match brackets with
        | [] => none
        | inner :: outer => if inner = bracket then some ⟨.code, outer⟩ else none
    | none, none, none => some ⟨.code, brackets⟩

/-- The position behind a character.  Only a long string may go on over the end of a line. -/
def step (position : Position) (character : Char) : Option Position :=
  let brackets := position.brackets
  match position.region with
  | .code => stepCode brackets character
  | .comment => some ⟨if endsLine character then .code else .comment, brackets⟩
  | .opened quote =>
      if character = quote.character then some ⟨.doubled quote, brackets⟩
      else if character = '\\' then some ⟨.escape quote false, brackets⟩
      else if endsLine character then none
      else some ⟨.string quote false 0, brackets⟩
  | .doubled quote =>
      if character = quote.character then some ⟨.string quote true 0, brackets⟩
      else stepCode brackets character
  | .string quote long quotes =>
      if character = quote.character then
        if long = false ∨ quotes = 2 then some ⟨.code, brackets⟩
        else some ⟨.string quote long (quotes + 1), brackets⟩
      else if character = '\\' then some ⟨.escape quote long, brackets⟩
      else if long = false ∧ endsLine character then none
      else some ⟨.string quote long 0, brackets⟩
  | .escape quote long => some ⟨.string quote long 0, brackets⟩

/-- The position behind a text. -/
def run (position : Position) (text : List Char) : Option Position :=
  text.foldlM step position

/-- Whether a closing parenthesis here closes a group that was opened before the scan. -/
def isClosable (position : Position) : Bool :=
  position.region.isCode && position.brackets.isEmpty

end Position

/-- A text whose strings and brackets are closed; it may end in a comment. -/
def Complete (text : List Char) : Prop :=
  ∃ region, Position.start.run text = some ⟨region, []⟩ ∧
    (region.isCode = true ∨ region = .comment)

/-- A complete text that does not end in a comment. -/
def Balanced (text : List Char) : Prop :=
  ∃ region, Position.start.run text = some ⟨region, []⟩ ∧ region.isCode = true

/-- The text up to the parenthesis that closes a group, and the text behind that. -/
def takeInside (position : Position) : List Char → Option (List Char × List Char)
  | [] => none
  | first :: rest =>
      if first = ')' ∧ position.isClosable = true then some ([], rest)
      else
        match position.step first with
        | none => none
        | some next =>
            (takeInside next rest).map fun (inside, behind) => (first :: inside, behind)

/-- The inside of the group at the start of a text, and the text behind the group. -/
def takeGroup : List Char → Option (List Char × List Char)
  | '(' :: rest => takeInside .start rest
  | _ => none

theorem takeInside_length {position : Position} {text inside behind : List Char}
    (taken : takeInside position text = some (inside, behind)) :
    inside.length + behind.length + 1 = text.length := by
  fun_induction takeInside position text generalizing inside with
  | case1 => simp at taken
  | case2 position first rest closes =>
      simp only [Option.some.injEq, Prod.mk.injEq] at taken
      obtain ⟨rfl, rfl⟩ := taken
      simp
  | case3 => simp at taken
  | case4 position first rest _ next _ ih =>
      simp only [Option.map_eq_some_iff, Prod.exists, Prod.mk.injEq] at taken
      obtain ⟨inside, behind, found, rfl, rfl⟩ := taken
      have := ih found
      simp only [List.length_cons]
      omega

theorem takeGroup_length {text inside behind : List Char}
    (taken : takeGroup text = some (inside, behind)) :
    inside.length + behind.length + 2 = text.length := by
  unfold takeGroup at taken
  split at taken
  · have := takeInside_length taken
    simp only [List.length_cons]
    omega
  · simp at taken

namespace Position

theorem run_nil (position : Position) : position.run [] = some position := rfl

theorem run_cons (position : Position) (first : Char) (rest : List Char) :
    position.run (first :: rest) = (position.step first).bind fun next => next.run rest :=
  rfl

theorem run_append (position : Position) (front rest : List Char) :
    position.run (front ++ rest) = (position.run front).bind fun next => next.run rest := by
  induction front generalizing position with
  | nil => rfl
  | cons first front ih =>
      rw [List.cons_append, run_cons, run_cons]
      cases position.step first with
      | none => rfl
      | some next => exact ih next

theorem run_append_of_eq_some {position next : Position} {front : List Char}
    (reached : position.run front = some next) (rest : List Char) :
    position.run (front ++ rest) = next.run rest := by
  rw [run_append, reached]
  rfl

/-! ### Brackets around what is scanned -/

theorem stepCode_append {brackets brackets' : List Bracket} {character : Char} {region : Region}
    (stepped : stepCode brackets character = some ⟨region, brackets'⟩) (outer : List Bracket) :
    stepCode (brackets ++ outer) character = some ⟨region, brackets' ++ outer⟩ := by
  unfold stepCode at stepped ⊢
  split at stepped
  · next isComment =>
      obtain ⟨rfl, rfl⟩ := Position.mk.inj (Option.some.inj stepped)
      rw [if_pos isComment]
  next noComment =>
  rw [if_neg noComment]
  split at stepped
  · obtain ⟨rfl, rfl⟩ := Position.mk.inj (Option.some.inj stepped)
    rfl
  · obtain ⟨rfl, rfl⟩ := Position.mk.inj (Option.some.inj stepped)
    rfl
  · next bracket _ _ _ =>
      cases brackets with
      | nil => simp at stepped
      | cons inner others =>
          simp only at stepped
          split at stepped
          · next same =>
              obtain ⟨rfl, rfl⟩ := Position.mk.inj (Option.some.inj stepped)
              simp [same]
          · simp at stepped
  · obtain ⟨rfl, rfl⟩ := Position.mk.inj (Option.some.inj stepped)
    rfl

/-- Brackets that are open around a text make no difference to its characters. -/
theorem step_append {position : Position} {character : Char} {region : Region}
    {brackets : List Bracket} (stepped : position.step character = some ⟨region, brackets⟩)
    (outer : List Bracket) :
    step ⟨position.region, position.brackets ++ outer⟩ character =
      some ⟨region, brackets ++ outer⟩ := by
  obtain ⟨place, open'⟩ := position
  cases place with
  | code => exact stepCode_append stepped outer
  | doubled quote =>
      simp only [step] at stepped ⊢
      split at stepped
      · next same =>
          obtain ⟨rfl, rfl⟩ := Position.mk.inj (Option.some.inj stepped)
          rw [if_pos same]
      · next different =>
          rw [if_neg different]
          exact stepCode_append stepped outer
  | comment =>
      simp only [step, Option.some.injEq, Position.mk.injEq] at stepped ⊢
      obtain ⟨rfl, rfl⟩ := stepped
      exact ⟨rfl, rfl⟩
  | opened quote =>
      simp only [step] at stepped ⊢
      split_ifs at stepped ⊢ <;> simp_all
  | string quote long quotes =>
      simp only [step] at stepped ⊢
      split_ifs at stepped ⊢ <;> simp_all
  | escape quote long =>
      simp only [step, Option.some.injEq, Position.mk.injEq] at stepped ⊢
      obtain ⟨rfl, rfl⟩ := stepped
      exact ⟨rfl, rfl⟩

theorem run_append_brackets {position : Position} {text : List Char} {region : Region}
    {brackets : List Bracket} (reached : position.run text = some ⟨region, brackets⟩)
    (outer : List Bracket) :
    run ⟨position.region, position.brackets ++ outer⟩ text =
      some ⟨region, brackets ++ outer⟩ := by
  induction text generalizing position with
  | nil =>
      rw [run_nil, Option.some.injEq] at reached
      rw [reached, run_nil]
  | cons first text ih =>
      rw [run_cons] at reached ⊢
      cases stepped : position.step first with
      | none => simp [stepped] at reached
      | some next =>
          obtain ⟨place, open'⟩ := next
          rw [stepped] at reached
          rw [step_append stepped outer]
          exact ih reached

/-! ### The end of a group -/

/-- Where a group can be closed, a closing parenthesis is no part of it. -/
theorem step_closing_of_isClosable {position : Position} (closable : position.isClosable = true) :
    position.step ')' = none := by
  obtain ⟨region, brackets⟩ := position
  simp only [isClosable, Bool.and_eq_true, List.isEmpty_iff] at closable
  obtain ⟨isCode, rfl⟩ := closable
  rcases Region.isCode_iff.1 isCode with rfl | ⟨quote, rfl⟩
  · rfl
  · cases quote <;> rfl

theorem takeInside_append {position final : Position} {inside : List Char}
    (reached : position.run inside = some final) (closable : final.isClosable = true)
    (behind : List Char) :
    takeInside position (inside ++ ')' :: behind) = some (inside, behind) := by
  induction inside generalizing position with
  | nil =>
      rw [run_nil, Option.some.injEq] at reached
      subst reached
      rw [List.nil_append, takeInside, if_pos ⟨rfl, closable⟩]
  | cons first inside ih =>
      rw [run_cons] at reached
      cases stepped : position.step first with
      | none => simp [stepped] at reached
      | some next =>
          rw [stepped] at reached
          have inner : ¬ (first = ')' ∧ position.isClosable = true) := by
            rintro ⟨rfl, early⟩
            rw [step_closing_of_isClosable early] at stepped
            simp at stepped
          rw [List.cons_append, takeInside, if_neg inner, stepped]
          simp only [ih reached, Option.map_some]

/-! ### The end of a comment -/

theorem step_eq_comment {position : Position} {character : Char} {brackets : List Bracket}
    (stepped : position.step character = some ⟨.comment, brackets⟩) :
    character = '#' ∨ (position.region = .comment ∧ character ≠ '\n') := by
  have fromCode : ∀ {inner : List Bracket},
      stepCode inner character = some ⟨.comment, brackets⟩ → character = '#' := by
    intro inner stepped
    unfold stepCode at stepped
    split at stepped
    · next isComment => exact isComment
    · repeat' split at stepped
      all_goals simp at stepped
  obtain ⟨region, open'⟩ := position
  cases region with
  | code => exact .inl (fromCode stepped)
  | doubled quote =>
      simp only [step] at stepped
      split at stepped
      · simp at stepped
      · exact .inl (fromCode stepped)
  | comment =>
      refine .inr ⟨rfl, ?_⟩
      rintro rfl
      simp [step, endsLine] at stepped
  | opened quote =>
      simp only [step] at stepped
      repeat' split at stepped
      all_goals simp at stepped
  | string quote long quotes =>
      simp only [step] at stepped
      repeat' split at stepped
      all_goals simp at stepped
  | escape quote long => simp [step] at stepped

/-- A text that ends in a comment has the sign of the comment on its last line. -/
theorem sign_mem_lastLine {text : List Char} {brackets : List Bracket}
    (reached : start.run text = some ⟨.comment, brackets⟩) : '#' ∈ Text.lastLine text := by
  induction text using List.reverseRecOn generalizing brackets with
  | nil => simp [run_nil, start] at reached
  | append_singleton front last ih =>
      rw [run_append] at reached
      obtain ⟨position, before, stepped⟩ := Option.bind_eq_some_iff.1 reached
      rw [run_cons] at stepped
      obtain ⟨next, stepped, same⟩ := Option.bind_eq_some_iff.1 stepped
      rw [run_nil, Option.some.injEq] at same
      subst same
      have line : last ≠ '\n' →
          Text.lastLine (front ++ [last]) = Text.lastLine front ++ [last] := by
        intro different
        simp [Text.lastLine, different]
      rcases step_eq_comment stepped with rfl | ⟨inComment, different⟩
      · rw [line (by decide)]
        simp
      · obtain ⟨region, open'⟩ := position
        subst inComment
        rw [line different]
        exact List.mem_append_left _ (ih before)

theorem run_newline {region : Region} (brackets : List Bracket)
    (settled : region.isCode = true ∨ region = .comment) :
    run ⟨region, brackets⟩ ['\n'] = some ⟨.code, brackets⟩ := by
  rcases settled with isCode | rfl
  · rcases Region.isCode_iff.1 isCode with rfl | ⟨quote, rfl⟩
    · rfl
    · cases quote <;> rfl
  · rfl

end Position

/-- A complete text is balanced once a line break ends the comment that it may end in. -/
theorem Complete.balanced_closeBody {body : String} (complete : Complete body.toList) :
    Balanced (closeBody body).toList := by
  obtain ⟨region, reached, settled⟩ := complete
  unfold closeBody
  split
  · refine ⟨.code, ?_, rfl⟩
    rw [String.toList_append, Position.run_append_of_eq_some reached]
    exact Position.run_newline [] settled
  · next noSign =>
      rcases settled with isCode | rfl
      · exact ⟨region, reached, isCode⟩
      · have sign := Position.sign_mem_lastLine reached
        simp [endsInComment, sign] at noSign

theorem Balanced.takeGroup {inside : List Char} (balanced : Balanced inside)
    (behind : List Char) :
    takeGroup ('(' :: (inside ++ ')' :: behind)) = some (inside, behind) := by
  obtain ⟨region, reached, isCode⟩ := balanced
  exact Position.takeInside_append reached (by simp [Position.isClosable, isCode]) behind

/-! ### Texts that leave the scanner where it was -/

/-- A text of code that closes all that it opens. -/
def Steady (text : List Char) : Prop :=
  ∀ brackets, Position.run ⟨.code, brackets⟩ text = some ⟨.code, brackets⟩

theorem Steady.append {first second : List Char} (steadyFirst : Steady first)
    (steadySecond : Steady second) : Steady (first ++ second) := by
  intro brackets
  rw [Position.run_append_of_eq_some (steadyFirst brackets)]
  exact steadySecond brackets

theorem Steady.balanced {text : List Char} (steady : Steady text) : Balanced text :=
  ⟨.code, steady [], rfl⟩

theorem Balanced.group {inside : List Char} (balanced : Balanced inside) :
    Steady ('(' :: (inside ++ [')'])) := by
  intro brackets
  obtain ⟨region, reached, isCode⟩ := balanced
  have opened : Position.run ⟨.code, brackets⟩ ['('] = some ⟨.code, .round :: brackets⟩ := rfl
  have within : Position.run ⟨.code, .round :: brackets⟩ inside =
      some ⟨region, .round :: brackets⟩ :=
    Position.run_append_brackets reached (.round :: brackets)
  have closed : Position.run ⟨region, .round :: brackets⟩ [')'] = some ⟨.code, brackets⟩ := by
    rcases Region.isCode_iff.1 isCode with rfl | ⟨quote, rfl⟩
    · rfl
    · cases quote <;> rfl
  rw [← List.singleton_append, Position.run_append_of_eq_some opened,
    Position.run_append_of_eq_some within, closed]

/-- The characters with a meaning to the scanner. -/
def loudCharacters : List Char :=
  ['#', '\'', '"', '(', ')', '[', ']', '\x7b', '\x7d']

theorem steady_of_quiet {text : List Char}
    (quiet : ∀ character ∈ text, character ∉ loudCharacters) : Steady text := by
  intro brackets
  induction text with
  | nil => rfl
  | cons first text ih =>
      have silent := quiet first (by simp)
      have stepped : Position.step ⟨.code, brackets⟩ first = some ⟨.code, brackets⟩ := by
        simp only [loudCharacters, List.mem_cons, List.not_mem_nil, or_false, not_or] at silent
        obtain ⟨sign, single, double, round, round', square, square', curly, curly'⟩ := silent
        simp [Position.step, Position.stepCode, Quote.of?, Quote.character, Bracket.ofOpening?,
          Bracket.ofClosing?, Bracket.opening, Bracket.closing, sign,
          Ne.symm single, Ne.symm double, Ne.symm round, Ne.symm round', Ne.symm square,
          Ne.symm square', Ne.symm curly, Ne.symm curly', beq_eq_false_iff_ne.2]
      rw [Position.run_cons, stepped]
      exact ih fun character member => quiet character (by simp [member])

end ClosureCapture.Lambda
