import ClosureCapture.Delimiter
import ClosureCapture.Proofs.Literal.Locality

/-!
# Nested delimiters

The search for a closing delimiter composes: closing the pairs of a stack on top of another one
is closing the former, then the latter from there on.  The search is also local, so that it ends
the same way when the text is cut behind the delimiter that it finds.
-/

namespace ClosureCapture

namespace Bracket

theorem ofOpening?_opening (bracket : Bracket) : ofOpening? bracket.opening = some bracket := by
  cases bracket <;> rfl

theorem ofOpening?_closing (bracket : Bracket) : ofOpening? bracket.closing = none := by
  cases bracket <;> decide

theorem ofClosing?_closing (bracket : Bracket) : ofClosing? bracket.closing ≠ none := by
  cases bracket <;> decide

end Bracket

namespace Delimiter

variable {inner : Bracket} {outer : List Bracket} {previous : Option Char}

/-! ### One step of the search -/

theorem close_nil : close inner outer previous [] = .error .unclosed := by
  rw [close]

theorem close_skip {first : Char} {rest after : List Char}
    (skipped : Literal.after? previous (first :: rest) = some after) :
    close inner outer previous (first :: rest) =
      close inner outer (lastBefore (first :: rest) after) after := by
  rw [close.eq_def]
  simp only
  split
  · next other found => simp_all
  · next found => simp_all

theorem close_open {first : Char} {rest : List Char} {bracket : Bracket}
    (code : Literal.after? previous (first :: rest) = none)
    (opens : Bracket.ofOpening? first = some bracket) :
    close inner outer previous (first :: rest) =
      close bracket (inner :: outer) (some first) rest := by
  rw [close.eq_def]
  simp only
  split
  · next other found => simp_all
  · simp [opens]

theorem close_plain {first : Char} {rest : List Char}
    (code : Literal.after? previous (first :: rest) = none)
    (opens : Bracket.ofOpening? first = none) (closes : Bracket.ofClosing? first = none) :
    close inner outer previous (first :: rest) = close inner outer (some first) rest := by
  rw [close.eq_def]
  simp only
  split
  · next other found => simp_all
  · simp [opens, closes]

theorem close_mismatch {first : Char} {rest : List Char}
    (code : Literal.after? previous (first :: rest) = none)
    (opens : Bracket.ofOpening? first = none) (closes : Bracket.ofClosing? first ≠ none)
    (wrong : first ≠ inner.closing) :
    close inner outer previous (first :: rest) =
      .error (.mismatch inner.closing first (first :: rest)) := by
  rw [close.eq_def]
  simp only
  split
  · next other found => simp_all
  · simp [opens, closes, wrong]

theorem close_last {rest : List Char}
    (code : Literal.after? previous (inner.closing :: rest) = none) :
    close inner [] previous (inner.closing :: rest) = .ok (inner.closing :: rest) := by
  have opens := Bracket.ofOpening?_closing inner
  have closes := Bracket.ofClosing?_closing inner
  rw [close.eq_def]
  simp only
  split
  · next other found => simp_all
  · simp [opens, closes]

theorem close_pop {next : Bracket} {rest : List Char}
    (code : Literal.after? previous (inner.closing :: rest) = none) :
    close inner (next :: outer) previous (inner.closing :: rest) =
      close next outer (some inner.closing) rest := by
  have opens := Bracket.ofOpening?_closing inner
  have closes := Bracket.ofClosing?_closing inner
  rw [close.eq_def]
  simp only
  split
  · next other found => simp_all
  · simp [opens, closes]

/-! ### Stacks on top of each other -/

/-- Closing a stack on top of another one closes the former first. -/
theorem close_append (inner : Bracket) (outer : List Bracket) (next : Bracket)
    (others : List Bracket) (previous : Option Char) (text : List Char) :
    close inner (outer ++ next :: others) previous text =
      (close inner outer previous text).bind fun rest => close next others rest.head? rest.tail := by
  fun_induction close inner outer previous text with
  | case1 => rw [close_nil]; rfl
  | case2 inner outer previous first rest after skipped ih =>
      rw [close_skip skipped, ih]
  | case3 inner outer previous first rest code bracket opens ih =>
      rw [close_open code opens]
      exact ih
  | case4 inner outer previous first rest code opens closes ih =>
      rw [close_plain code opens (by simpa using closes), ih]
  | case5 inner outer previous first rest code opens closes wrong =>
      rw [close_mismatch code opens (by simpa using closes) wrong]
      rfl
  | case6 inner previous first rest code opens closes right =>
      obtain rfl := Decidable.not_not.1 right
      rw [List.nil_append, close_pop code]
      rfl
  | case7 inner previous first rest code opens closes right top stack ih =>
      obtain rfl := Decidable.not_not.1 right
      rw [List.cons_append, close_pop code, ih]

/-- The search ends at the delimiter that closes the bottom of the stack. -/
theorem close_eq_ok {inner : Bracket} {outer : List Bracket} {previous : Option Char}
    {text rest : List Char} (closed : close inner outer previous text = .ok rest) :
    rest <:+ text ∧ rest.head? = some (outer.getLastD inner).closing := by
  fun_induction close inner outer previous text with
  | case1 => simp at closed
  | case2 inner outer previous first tail after skipped ih =>
      exact ⟨(ih closed).1.trans (Literal.after?_suffix skipped), (ih closed).2⟩
  | case3 inner outer previous first tail code bracket opens ih =>
      refine ⟨(ih closed).1.trans (List.suffix_cons _ _), ?_⟩
      rw [(ih closed).2]
      cases outer <;> simp [List.getLastD]
  | case4 inner outer previous first tail code opens closes ih =>
      exact ⟨(ih closed).1.trans (List.suffix_cons _ _), (ih closed).2⟩
  | case5 => simp at closed
  | case6 inner previous first tail code opens closes right =>
      obtain rfl := Except.ok.inj closed
      obtain rfl := Decidable.not_not.1 right
      exact ⟨List.suffix_refl _, rfl⟩
  | case7 inner previous first tail code opens closes right top stack ih =>
      refine ⟨(ih closed).1.trans (List.suffix_cons _ _), ?_⟩
      rw [(ih closed).2]
      cases stack <;> simp [List.getLastD]

/-! ### Cutting behind the closing delimiter -/

theorem lastBefore_append (text rest more : List Char) :
    lastBefore (text ++ more) (rest ++ more) = lastBefore text rest := by
  have same : (text ++ more).length - (rest ++ more).length = text.length - rest.length := by
    simp only [List.length_append]
    omega
  rw [lastBefore, same, List.take_append_of_le_length (Nat.sub_le _ _), lastBefore]

theorem lastBefore_append_self (passed rest : List Char) :
    lastBefore (passed ++ rest) rest = passed.getLast? := by
  simp [lastBefore]

private theorem exists_cons_of_append_eq_cons {text more tail : List Char} {first : Char}
    (same : text ++ more = first :: tail) (shorter : more.length < (first :: tail).length) :
    ∃ inside, text = first :: inside ∧ tail = inside ++ more := by
  cases text with
  | nil =>
      rw [← same] at shorter
      simp at shorter
  | cons other inside =>
      obtain ⟨rfl, rfl⟩ := List.cons.inj same
      exact ⟨inside, rfl, rfl⟩

/-- The search does not look behind the delimiter that it finds. -/
theorem close_of_append {inner : Bracket} {outer : List Bracket} {previous : Option Char}
    {text rest more : List Char} (nonempty : rest ≠ [])
    (closed : close inner outer previous (text ++ more) = .ok (rest ++ more)) :
    close inner outer previous text = .ok rest := by
  -- The cut lies behind the delimiter, so that every step starts before the cut.
  have before : ∀ {bracket : Bracket} {stack : List Bracket} {character : Option Char}
      {whole : List Char}, close bracket stack character whole = .ok (rest ++ more) →
      more.length < whole.length := by
    intro bracket stack character whole found
    have inside := (close_eq_ok found).1.length_le
    have positive := List.length_pos_iff.2 nonempty
    rw [List.length_append] at inside
    omega
  generalize same : text ++ more = whole at closed
  fun_induction close inner outer previous whole generalizing text with
  | case1 => simp at closed
  | case2 inner outer previous first tail after skipped ih =>
      obtain ⟨front, split⟩ := Literal.after?_suffix skipped
      obtain ⟨middle, rfl, parts⟩ :=
        exists_append_of_append_eq_append (same.trans split.symm) (Nat.le_of_lt (before closed))
      have longer := Nat.lt_of_lt_of_le (before closed) (Literal.after?_suffix skipped).length_le
      obtain ⟨inside, rfl, rfl⟩ := exists_cons_of_append_eq_cons same longer
      rw [← List.cons_append] at skipped
      have cut := (Literal.after?_isLocal previous).some_of_append skipped
      rw [close_skip cut, ← lastBefore_append _ _ more]
      exact ih rfl closed
  | case3 inner outer previous first tail code bracket opens ih =>
      have longer := Nat.lt_succ_of_lt (before closed)
      obtain ⟨inside, rfl, rfl⟩ := exists_cons_of_append_eq_cons same longer
      rw [close_open ((Literal.after?_isLocal previous).none_of_append code) opens]
      exact ih rfl closed
  | case4 inner outer previous first tail code opens closes ih =>
      have longer := Nat.lt_succ_of_lt (before closed)
      obtain ⟨inside, rfl, rfl⟩ := exists_cons_of_append_eq_cons same longer
      rw [close_plain ((Literal.after?_isLocal previous).none_of_append code) opens
        (by simpa using closes)]
      exact ih rfl closed
  | case5 => simp at closed
  | case6 inner previous first tail code opens closes right =>
      rw [← same] at closed
      obtain rfl := List.append_cancel_right (Except.ok.inj closed)
      obtain ⟨_, inside, rfl⟩ := List.exists_cons_of_ne_nil nonempty
      obtain ⟨rfl, rfl⟩ := List.cons.inj same
      obtain rfl := Decidable.not_not.1 right
      exact close_last ((Literal.after?_isLocal previous).none_of_append code)
  | case7 inner previous first tail code opens closes right top stack ih =>
      have longer := Nat.lt_succ_of_lt (before closed)
      obtain ⟨inside, rfl, rfl⟩ := exists_cons_of_append_eq_cons same longer
      obtain rfl := Decidable.not_not.1 right
      rw [close_pop ((Literal.after?_isLocal previous).none_of_append code)]
      exact ih rfl closed

/-! ### Passing over a text without marks and delimiters -/

/-- A character that neither starts a comment or literal nor is a delimiter. -/
def IsQuiet (character : Char) : Prop :=
  character ∉ Literal.marks ∧ Bracket.ofOpening? character = none ∧
    Bracket.ofClosing? character = none

theorem opening_not_mem_marks (bracket : Bracket) : bracket.opening ∉ Literal.marks := by
  cases bracket <;> decide

theorem after?_opening (bracket : Bracket) (previous : Option Char) (rest : List Char) :
    Literal.after? previous (bracket.opening :: rest) = none := by
  cases bracket <;>
    simp [Bracket.opening, Literal.after?, Comment.after?, Literal.afterLiteral?,
      Literal.afterQuoted?]

/-- The search passes over quiet characters and opens the pair behind them. -/
theorem close_quiet_append {head : List Char} (quiet : ∀ character ∈ head, IsQuiet character)
    (inner : Bracket) (outer : List Bracket) (previous : Option Char) (bracket : Bracket)
    (inside : List Char) :
    close inner outer previous (head ++ bracket.opening :: inside) =
      close bracket (inner :: outer) (some bracket.opening) inside := by
  induction head generalizing previous with
  | nil =>
      exact close_open (after?_opening bracket previous inside) (Bracket.ofOpening?_opening bracket)
  | cons first head ih =>
      have code : Literal.after? previous (first :: head ++ bracket.opening :: inside) = none :=
        Literal.after?_eq_none (fun character member => (quiet character member).1)
          (opening_not_mem_marks bracket) (by cases bracket <;> decide)
      have quietFirst := quiet first (by simp)
      rw [List.cons_append] at code ⊢
      rw [close_plain code quietFirst.2.1 quietFirst.2.2]
      exact ih (fun character member => quiet character (List.mem_cons_of_mem _ member)) _

end Delimiter

end ClosureCapture
