import ClosureCapture.Proofs.Delimiter.Nesting
import Mathlib.Logic.Relation

/-!
# Walking to a closing delimiter

The search for a closing delimiter is a walk: each step passes over a comment or literal, opens
a pair, closes one that was opened on the way, or passes over another character.  The search ends
in the same way from every place of its walk.  A walk is deterministic, and what it does before a
cut of the text is decided by the text before the cut.
-/

namespace ClosureCapture.Delimiter

/-- The place of a search: the pairs that were opened on the way and are not closed yet, the
innermost first, the character before the place, and the text from there on. -/
structure Search where
  nested : List Bracket
  previous : Option Char
  rest : List Char

namespace Search

/-- The search from a place on, for the end of a pair with other pairs around it. -/
def close (search : Search) (inner : Bracket) (outer : List Bracket) : Except Fault (List Char) :=
  match search.nested with
  | [] => Delimiter.close inner outer search.previous search.rest
  | bracket :: nested =>
      Delimiter.close bracket (nested ++ inner :: outer) search.previous search.rest

/-- The same place with another text behind it. -/
def withRest (search : Search) (rest : List Char) : Search :=
  { search with rest := rest }

/-- One step of a search. -/
inductive Step : Search → Search → Prop
  | skip {nested : List Bracket} {previous : Option Char} {rest after : List Char} :
      Literal.after? previous rest = some after →
      Step ⟨nested, previous, rest⟩ ⟨nested, lastBefore rest after, after⟩
  | enter {nested : List Bracket} {bracket : Bracket} {previous : Option Char} {first : Char}
      {rest : List Char} : Literal.after? previous (first :: rest) = none →
      Bracket.ofOpening? first = some bracket →
      Step ⟨nested, previous, first :: rest⟩ ⟨bracket :: nested, some first, rest⟩
  | pass {nested : List Bracket} {previous : Option Char} {first : Char} {rest : List Char} :
      Literal.after? previous (first :: rest) = none →
      Bracket.ofOpening? first = none → Bracket.ofClosing? first = none →
      Step ⟨nested, previous, first :: rest⟩ ⟨nested, some first, rest⟩
  | leave {nested : List Bracket} {bracket : Bracket} {previous : Option Char}
      {rest : List Char} : Literal.after? previous (bracket.closing :: rest) = none →
      Step ⟨bracket :: nested, previous, bracket.closing :: rest⟩
        ⟨nested, some bracket.closing, rest⟩

/-- Any number of steps. -/
def Walk : Search → Search → Prop :=
  Relation.ReflTransGen Step

variable {search other : Search}

theorem Step.close_eq (step : Step search other) (inner : Bracket) (outer : List Bracket) :
    search.close inner outer = other.close inner outer := by
  cases step with
  | @skip nested previous rest after skipped =>
      cases rest with
      | nil => simp [Literal.after?, Comment.after?, Literal.afterLiteral?, Literal.afterQuoted?]
          at skipped
      | cons first rest => cases nested <;> exact close_skip skipped
  | @enter nested bracket previous first rest code opens =>
      cases nested <;> exact close_open code opens
  | @pass nested previous first rest code opens closes =>
      cases nested <;> exact close_plain code opens closes
  | @leave nested bracket previous rest code =>
      cases nested <;> exact close_pop code

/-- The search ends in the same way from every place of its walk. -/
theorem Walk.close_eq (walk : Walk search other) (inner : Bracket) (outer : List Bracket) :
    search.close inner outer = other.close inner outer := by
  induction walk with
  | refl => rfl
  | tail _ step ih => exact ih.trans (step.close_eq inner outer)

theorem Step.suffix (step : Step search other) : other.rest <:+ search.rest := by
  cases step with
  | skip skipped => exact Literal.after?_suffix skipped
  | enter | pass | leave => exact List.suffix_cons _ _

theorem Walk.suffix (walk : Walk search other) : other.rest <:+ search.rest := by
  induction walk with
  | refl => exact List.suffix_refl _
  | tail _ step ih => exact step.suffix.trans ih

theorem Step.length_lt (step : Step search other) : other.rest.length < search.rest.length := by
  cases step with
  | skip skipped => exact Literal.after?_length_lt skipped
  | enter | pass | leave => exact Nat.lt_succ_self _

theorem step_rightUnique : Relator.RightUnique Step := by
  intro search first second one two
  cases one with
  | skip skipped =>
      cases two with
      | skip again =>
          rw [skipped] at again
          obtain rfl := Option.some.inj again
          rfl
      | enter code | pass code | leave code => simp [skipped] at code
  | enter code opens =>
      cases two with
      | skip skipped => simp [code] at skipped
      | enter _ again =>
          rw [opens] at again
          obtain rfl := Option.some.inj again
          rfl
      | pass _ missing => simp [opens] at missing
      | leave => simp [Bracket.ofOpening?_closing] at opens
  | pass code opens closes =>
      cases two with
      | skip skipped => simp [code] at skipped
      | enter _ found => simp [opens] at found
      | pass => rfl
      | leave => exact absurd closes (Bracket.ofClosing?_closing _)
  | leave code =>
      cases two with
      | skip skipped => simp [code] at skipped
      | enter _ found => simp [Bracket.ofOpening?_closing] at found
      | pass _ _ closes => exact absurd closes (Bracket.ofClosing?_closing _)
      | leave => rfl

theorem eq_cons_of_append {text rest tail more : List Char} {first : Char}
    (before : first :: tail = text ++ more) (after : tail = rest ++ more) :
    text = first :: rest := by
  rw [after, ← List.cons_append] at before
  exact (List.append_cancel_right before).symm

/-- A step that ends before a cut is a step of the text before the cut. -/
theorem Step.of_append {text rest more : List Char} (step : Step search other)
    (before : search.rest = text ++ more) (after : other.rest = rest ++ more) :
    Step (search.withRest text) (other.withRest rest) := by
  cases step with
  | @skip nested previous _ _ skipped =>
      simp only at before after
      rw [before, after] at skipped
      rw [withRest, withRest, before, after, lastBefore_append]
      exact .skip ((Literal.after?_isLocal previous).some_of_append skipped)
  | @enter nested bracket previous first tail code opens =>
      simp only at before after
      rw [before] at code
      obtain rfl := eq_cons_of_append before after
      exact .enter ((Literal.after?_isLocal previous).none_of_append code) opens
  | @pass nested previous first tail code opens closes =>
      simp only at before after
      rw [before] at code
      obtain rfl := eq_cons_of_append before after
      exact .pass ((Literal.after?_isLocal previous).none_of_append code) opens closes
  | @leave nested bracket previous tail code =>
      simp only at before after
      rw [before] at code
      obtain rfl := eq_cons_of_append before after
      exact .leave ((Literal.after?_isLocal previous).none_of_append code)

theorem Walk.of_append {text rest more : List Char} (walk : Walk search other)
    (before : search.rest = text ++ more) (after : other.rest = rest ++ more) :
    Walk (search.withRest text) (other.withRest rest) := by
  induction walk using Relation.ReflTransGen.head_induction_on generalizing text with
  | refl =>
      obtain rfl := List.append_cancel_right (before.symm.trans after)
      exact .refl
  | head step later ih =>
      obtain ⟨passed, split⟩ := Walk.suffix later
      rw [after, ← List.append_assoc] at split
      exact .head (step.of_append before split.symm) (ih split.symm)

end Search

/-! ### Where a search ends -/

/-- Of the character before a text, a search needs to know only whether it is part of a word. -/
theorem close_congr {inner : Bracket} {outer : List Bracket} {previous other : Option Char}
    (same : other.any Text.isWord = previous.any Text.isWord) (text : List Char) :
    close inner outer other text = close inner outer previous text := by
  cases text with
  | nil => rw [close_nil, close_nil]
  | cons first rest =>
  have skips := Literal.after?_congr same (first :: rest)
  cases skipped : Literal.after? previous (first :: rest) with
  | some after => rw [close_skip (skips.trans skipped), close_skip skipped]
  | none =>
  have code := skips.trans skipped
  cases opens : Bracket.ofOpening? first with
  | some bracket => rw [close_open code opens, close_open skipped opens]
  | none =>
  by_cases closes : Bracket.ofClosing? first = none
  · rw [close_plain code opens closes, close_plain skipped opens closes]
  by_cases right : first = inner.closing
  · subst right
    cases outer with
    | nil => rw [close_last code, close_last skipped]
    | cons next outer => rw [close_pop code, close_pop skipped]
  · rw [close_mismatch code opens closes right, close_mismatch skipped opens closes right]

theorem Search.close_nil (nested : List Bracket) (previous : Option Char) (inner : Bracket)
    (outer : List Bracket) :
    (Search.mk nested previous []).close inner outer = .error .unclosed := by
  cases nested <;> exact Delimiter.close_nil

theorem Search.close_congr {previous other : Option Char}
    (same : other.any Text.isWord = previous.any Text.isWord) (nested : List Bracket)
    (rest : List Char) (inner : Bracket) (outer : List Bracket) :
    (Search.mk nested other rest).close inner outer =
      (Search.mk nested previous rest).close inner outer := by
  cases nested <;> exact Delimiter.close_congr same rest

theorem Search.exists_close_eq (search : Search) (inner : Bracket) (outer : List Bracket) :
    ∃ first others, search.close inner outer =
      Delimiter.close first others search.previous search.rest := by
  obtain ⟨nested, previous, rest⟩ := search
  cases nested with
  | nil => exact ⟨_, _, rfl⟩
  | cons bracket nested => exact ⟨_, _, rfl⟩

theorem suffix_of_close_mismatch {inner : Bracket} {outer : List Bracket}
    {previous : Option Char} {text remaining : List Char} {expected found : Char}
    (failed : close inner outer previous text = .error (.mismatch expected found remaining)) :
    remaining <:+ text := by
  fun_induction close inner outer previous text with
  | case1 => simp at failed
  | case2 inner outer previous first rest after skipped ih =>
      exact (ih failed).trans (Literal.after?_suffix skipped)
  | case3 inner outer previous first rest code bracket opens ih =>
      exact (ih failed).trans (List.suffix_cons _ _)
  | case4 inner outer previous first rest code opens closes ih =>
      exact (ih failed).trans (List.suffix_cons _ _)
  | case5 inner outer previous first rest code opens closes wrong =>
      simp only [Except.error.injEq, Fault.mismatch.injEq] at failed
      obtain ⟨-, -, rfl⟩ := failed
      exact List.suffix_refl _
  | case6 => simp at failed
  | case7 inner previous first rest code opens closes right top stack ih =>
      exact (ih failed).trans (List.suffix_cons _ _)

/-- A search that succeeds walks to the delimiter it finds, which it meets as code. -/
theorem Search.exists_walk_of_close_eq_ok {inner : Bracket} {outer : List Bracket}
    {previous : Option Char} {text rest : List Char}
    (closed : Delimiter.close inner outer previous text = .ok rest) {nested : List Bracket}
    {bottom : Bracket} (stack : inner :: outer = nested ++ [bottom]) :
    ∃ last, Walk ⟨nested, previous, text⟩ ⟨[], last, rest⟩ ∧ Literal.after? last rest = none := by
  fun_induction Delimiter.close inner outer previous text generalizing nested with
  | case1 => simp at closed
  | case2 inner outer previous first tail after skipped ih =>
      obtain ⟨last, walk, code⟩ := ih closed stack
      exact ⟨last, .head (.skip skipped) walk, code⟩
  | case3 inner outer previous first tail code bracket opens ih =>
      have pushed : bracket :: inner :: outer = (bracket :: nested) ++ [bottom] :=
        congrArg (bracket :: ·) stack
      obtain ⟨last, walk, found⟩ := ih closed pushed
      exact ⟨last, .head (.enter code opens) walk, found⟩
  | case4 inner outer previous first tail code opens closes ih =>
      obtain ⟨last, walk, found⟩ := ih closed stack
      exact ⟨last, .head (.pass code opens (by simpa using closes)) walk, found⟩
  | case5 => simp at closed
  | case6 inner previous first tail code opens closes right =>
      obtain rfl := Except.ok.inj closed
      cases nested with
      | nil => exact ⟨previous, .refl, code⟩
      | cons bracket nested => simp at stack
  | case7 inner previous first tail code opens closes right next others ih =>
      obtain rfl := Decidable.not_not.1 right
      cases nested with
      | nil => simp at stack
      | cons bracket nested =>
          obtain ⟨rfl, popped⟩ := List.cons.inj stack
          obtain ⟨last, walk, found⟩ := ih closed popped
          exact ⟨last, .head (.leave code) walk, found⟩

end ClosureCapture.Delimiter
