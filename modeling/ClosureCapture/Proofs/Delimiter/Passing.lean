import ClosureCapture.Proofs.CaptureList.Layout
import ClosureCapture.Proofs.Delimiter.Walk
import ClosureCapture.Proofs.Literal.Silence
import Mathlib.Data.List.Basic

/-!
# Passing over a text on the way to a closing delimiter

A search passes over blanks, closed comments and words in the same way wherever they stand.  The
way through any other text depends on what follows it.  This file proves that a text which a
search gets through up to the closing delimiter can be followed by another text instead, provided
that a last line with two slashes is ended first.
-/

namespace ClosureCapture

open Delimiter

namespace Delimiter.Search

variable {search other target : Search}

theorem Walk.trans (first : Walk search other) (second : Walk other target) : Walk search target :=
  Relation.ReflTransGen.trans first second

theorem Step.walk (step : Step search other) : Walk search other :=
  Relation.ReflTransGen.single step

/-- A place with more pairs open around the ones that were opened on the way. -/
def within (search : Search) (outer : List Bracket) : Search :=
  { search with nested := search.nested ++ outer }

theorem Step.within (step : Step search other) (outer : List Bracket) :
    Step (search.within outer) (other.within outer) := by
  cases step with
  | skip skipped => exact .skip skipped
  | enter code opens => exact .enter code opens
  | pass code opens closes => exact .pass code opens closes
  | leave code => exact .leave code

theorem Walk.within (walk : Walk search other) (outer : List Bracket) :
    Walk (search.within outer) (other.within outer) := by
  induction walk with
  | refl => exact .refl
  | tail _ step ih => exact ih.trans (step.within outer).walk

/-! ### Texts that are passed wherever they stand -/

/-- A search passes over a text before the rest, whatever stands before the text, and comes from
the first pairs to the second. -/
def Passes (text rest : List Char) (before after : List Bracket) : Prop :=
  ∀ previous, Walk ⟨before, previous, text ++ rest⟩ ⟨after, text.getLast?.or previous, rest⟩

theorem passes_nil (rest : List Char) (nested : List Bracket) : Passes [] rest nested nested :=
  fun _ => .refl

theorem Passes.append {first second rest : List Char} {before middle after : List Bracket}
    (passesFirst : Passes first (second ++ rest) before middle)
    (passesSecond : Passes second rest middle after) :
    Passes (first ++ second) rest before after := by
  intro previous
  have walk := (passesFirst previous).trans (passesSecond _)
  rw [List.append_assoc, List.getLast?_append, Option.or_assoc]
  exact walk

theorem passes_singleton {first : Char} {rest : List Char} {before after : List Bracket}
    (step : ∀ previous, Step ⟨before, previous, first :: rest⟩ ⟨after, some first, rest⟩) :
    Passes [first] rest before after :=
  fun previous => (step previous).walk

theorem passes_mute {first : Char} (mute : first ∉ ['"', '\'', '/', 'b', 'r'])
    (opens : Bracket.ofOpening? first = none) (closes : Bracket.ofClosing? first = none)
    (rest : List Char) (nested : List Bracket) : Passes [first] rest nested nested :=
  passes_singleton fun previous => .pass (Literal.after?_mute mute previous rest) opens closes

theorem passes_opening (bracket : Bracket) (rest : List Char) (nested : List Bracket) :
    Passes [bracket.opening] rest nested (bracket :: nested) :=
  passes_singleton fun previous =>
    .enter (after?_opening bracket previous rest) (Bracket.ofOpening?_opening bracket)

theorem passes_closing (bracket : Bracket) (rest : List Char) (nested : List Bracket) :
    Passes [bracket.closing] rest (bracket :: nested) nested :=
  passes_singleton fun previous =>
    .leave (Literal.after?_mute (by cases bracket <;> decide) previous rest)

theorem not_mem_of_isBlank {character : Char} (blank : Text.isBlank character = true)
    {marks : List Char} (visible : marks.all (!Text.isBlank ·) = true) : character ∉ marks := by
  intro member
  have shown := List.all_eq_true.1 visible character member
  simp [blank] at shown

theorem passes_blank {character : Char} (blank : Text.isBlank character = true)
    (rest : List Char) (nested : List Bracket) : Passes [character] rest nested nested := by
  have quiet := Site.isQuiet_of_isPathCharacter (.inr (.inl blank))
  have mute := not_mem_of_isBlank blank (by decide : ['"', '\'', '/', 'b', 'r'].all _ = true)
  exact passes_mute mute quiet.2.1 quiet.2.2 rest nested

theorem passes_blanks {blanks : List Char}
    (allBlank : ∀ blank ∈ blanks, Text.isBlank blank = true) (rest : List Char)
    (nested : List Bracket) : Passes blanks rest nested nested := by
  induction blanks with
  | nil => exact passes_nil rest nested
  | cons blank blanks ih =>
      have first := passes_blank (allBlank blank List.mem_cons_self) (blanks ++ rest) nested
      exact first.append (ih fun other member => allBlank other (List.mem_cons_of_mem _ member))

theorem passes_comment {comment : List Char} (closed : Comment.IsClosed comment)
    (rest : List Char) (nested : List Bracket) : Passes comment rest nested nested := by
  intro previous
  have skipped := (Literal.isClosed_comment closed previous).after?_append rest
  obtain ⟨tail, nonempty⟩ := closed.exists_cons
  have isLast := List.getLast?_eq_some_getLast (by simp [nonempty] : comment ≠ [])
  have step : Step ⟨nested, previous, comment ++ rest⟩ _ := .skip skipped
  rw [lastBefore_append_self, isLast] at step
  rw [isLast]
  exact step.walk

theorem passes_run (spacers : List Spacer) (rest : List Char) (nested : List Bracket) :
    Passes (Spacer.run spacers) rest nested nested := by
  induction spacers with
  | nil => exact passes_nil rest nested
  | cons spacer spacers ih =>
      have first : Passes spacer.text (Spacer.run spacers ++ rest) nested nested := by
        cases spacer with
        | blank character blank => exact passes_blank blank _ nested
        | comment text closed => exact passes_comment closed _ nested
      exact first.append ih

/-- A character of a text that a search passes over without looking at anything else. -/
def IsIdle (character : Char) : Prop :=
  Literal.IsSoft character ∧ Bracket.ofOpening? character = none ∧
    Bracket.ofClosing? character = none

instance : DecidablePred IsIdle :=
  fun _ => inferInstanceAs (Decidable (_ ∧ _ ∧ _))

theorem isIdle_of_all {text : List Char} (idle : text.all (decide <| IsIdle ·) = true) :
    ∀ character ∈ text, IsIdle character :=
  fun character member => of_decide_eq_true (List.all_eq_true.1 idle character member)

theorem passes_idle {text : List Char} (idle : ∀ character ∈ text, IsIdle character) {next : Char}
    (ends : next ∉ ['"', '\'', '#', 'r']) (tail : List Char) (nested : List Bracket) :
    Passes text (next :: tail) nested nested := by
  induction text with
  | nil => exact passes_nil _ nested
  | cons first text ih =>
      have later := ih fun character member => idle character (List.mem_cons_of_mem _ member)
      have idleFirst := idle first List.mem_cons_self
      have code := fun previous =>
        @Literal.after?_soft first next text tail (fun character member => (idle _ member).1) ends
          previous
      have step : Passes [first] (text ++ next :: tail) nested nested :=
        passes_singleton fun previous => .pass (code previous) idleFirst.2.1 idleFirst.2.2
      exact step.append later

/-! ### Another text behind the one that was passed -/

/-- The pairs that are open before the last delimiter are closed by it. -/
theorem nested_eq_nil_of_close {trail : List Char}
    (allBlank : ∀ blank ∈ trail, Text.isBlank blank = true) {nested : List Bracket}
    {previous : Option Char}
    (closed : (Search.mk nested previous (trail ++ [')'])).close .round [] = .ok [')']) :
    nested = [] := by
  have walk := passes_blanks allBlank [')'] nested previous
  rw [walk.close_eq] at closed
  cases nested with
  | nil => rfl
  | cons bracket nested =>
      exfalso
      rw [Search.close] at closed
      simp only [close_append] at closed
      cases inner : Delimiter.close bracket nested (trail.getLast?.or previous) [')'] with
      | error fault => simp [inner, Except.bind] at closed
      | ok rest =>
          have short := (close_eq_ok inner).1.length_le
          simp only [inner, Except.bind] at closed
          have bounded := (close_eq_ok closed).1.length_le
          simp only [List.length_tail, List.length_singleton] at short bounded
          omega

/-- A text that a comment or literal leaves in the middle of blanks behind it is a line comment
without its end. -/
theorem exists_line_of_isClosed {text middle : List Char} {previous : Option Char}
    (closed : Literal.IsClosed previous (text ++ middle)) (nonempty : middle ≠ [])
    (someText : text ≠ []) (allBlank : ∀ blank ∈ middle, Text.isBlank blank = true) :
    ∃ inside, text = '/' :: '/' :: inside ∧ '\n' ∉ inside := by
  rcases closed.ending with ⟨line, oneLine, split⟩ | ⟨last, mark, isLast⟩
  · match text with
    | [] => exact absurd rfl someText
    | [first] =>
        obtain ⟨blank, middle, rfl⟩ := List.exists_cons_of_ne_nil nonempty
        obtain ⟨-, rfl, -⟩ := by simpa only [List.cons_append, List.cons.injEq] using split
        exact absurd (allBlank '/' List.mem_cons_self) (by decide)
    | first :: second :: inside =>
        obtain ⟨rfl, rfl, same⟩ := by simpa only [List.cons_append, List.cons.injEq] using split
        refine ⟨inside, rfl, ?_⟩
        have short : [ '\n'].length ≤ middle.length := List.length_pos_iff.2 nonempty
        obtain ⟨front, -, rfl⟩ := exists_append_of_append_eq_append same.symm short
        intro member
        exact oneLine (List.mem_append_left _ member)
  · rw [List.getLast?_append_of_ne_nil _ nonempty] at isLast
    have blank := allBlank last (List.mem_of_getLast? isLast)
    exact absurd mark (not_mem_of_isBlank blank (by decide))

/-- A comment or literal that ends in the blanks behind a text is passed before another text, too,
when a line feed ends the comment there. -/
theorem exists_walk_of_isClosed {text middle tail : List Char} {nested : List Bracket}
    {previous : Option Char} (closed : Literal.IsClosed previous (text ++ middle))
    (someText : text ≠ []) (allBlank : ∀ blank ∈ middle, Text.isBlank blank = true)
    (ended : ∀ inside, text = '/' :: '/' :: inside → '\n' ∉ inside →
      ∃ rest, tail = '\n' :: rest) :
    ∃ last rest, (rest = tail ∨ tail = '\n' :: rest) ∧
      Walk ⟨nested, previous, text ++ tail⟩ ⟨nested, last, rest⟩ := by
  by_cases nothing : middle = []
  · subst nothing
    rw [List.append_nil] at closed
    exact ⟨_, tail, .inl rfl, (Step.skip (closed.after?_append tail)).walk⟩
  · obtain ⟨inside, rfl, oneLine⟩ := exists_line_of_isClosed closed nothing someText allBlank
    obtain ⟨rest, rfl⟩ := ended inside rfl oneLine
    have line := Literal.isClosed_comment (.line oneLine) previous
    have skipped := line.after?_append rest
    simp only [List.cons_append, List.append_assoc, List.nil_append] at skipped
    exact ⟨_, rest, .inr rfl, (Step.skip skipped).walk⟩

/-- A character of code takes the search to the same pairs before two different texts. -/
theorem exists_step_of_close {first : Char} {rest other : List Char} {nested : List Bracket}
    {previous : Option Char} (code : Literal.after? previous (first :: rest) = none)
    (otherCode : Literal.after? previous (first :: other) = none) (longer : rest ≠ [])
    (closed : (Search.mk nested previous (first :: rest)).close .round [] = .ok [')']) :
    ∃ after, (Search.mk after (some first) rest).close .round [] = .ok [')'] ∧
      Step ⟨nested, previous, first :: other⟩ ⟨after, some first, other⟩ := by
  cases opens : Bracket.ofOpening? first with
  | some bracket =>
      refine ⟨bracket :: nested, ?_, .enter otherCode opens⟩
      rw [← closed, (Step.enter code opens).close_eq]
  | none =>
  by_cases closes : Bracket.ofClosing? first = none
  · refine ⟨nested, ?_, .pass otherCode opens closes⟩
    rw [← closed, (Step.pass code opens closes).close_eq]
  cases nested with
  | nil =>
      exfalso
      rw [Search.close] at closed
      simp only at closed
      by_cases right : first = Bracket.round.closing
      · subst right
        have found := (close_last code).symm.trans closed
        exact longer (List.cons.inj (Except.ok.inj found)).2
      · rw [close_mismatch code opens closes right] at closed
        simp at closed
  | cons bracket nested =>
      by_cases right : first = bracket.closing
      · subst right
        refine ⟨nested, ?_, .leave otherCode⟩
        rw [← closed, (Step.leave code).close_eq]
      · exfalso
        rw [Search.close] at closed
        simp only at closed
        rw [close_mismatch code opens closes right] at closed
        simp at closed

/-- A text that a search gets through up to the closing delimiter is passed in the same way before
another text, which begins with a line feed if two slashes stand on the last line.  That line feed
may become the end of a comment. -/
theorem exists_walk_of_close {text trail tail : List Char} {nested : List Bracket}
    {previous : Option Char} (allBlank : ∀ blank ∈ trail, Text.isBlank blank = true)
    (plain : ∀ character ∈ tail, Literal.IsPlain character)
    (ended : ∀ front inside, text = front ++ '/' :: '/' :: inside → '\n' ∉ inside →
      ∃ rest, tail = '\n' :: rest)
    (closed : (Search.mk nested previous (text ++ (trail ++ [')']))).close .round [] =
      .ok [')']) :
    ∃ last rest, (rest = tail ∨ tail = '\n' :: rest) ∧
      Walk ⟨nested, previous, text ++ tail⟩ ⟨[], last, rest⟩ := by
  induction size : text.length using Nat.strongRecOn generalizing text nested previous with
  | ind length ih =>
  subst size
  cases text with
  | nil =>
      obtain rfl := nested_eq_nil_of_close allBlank closed
      exact ⟨previous, tail, .inl rfl, .refl⟩
  | cons first text =>
  cases skipped : Literal.after? previous (first :: text ++ (trail ++ [')'])) with
  | none =>
      have code := (Literal.after?_isLocal previous).none_of_append skipped
      have otherCode := Literal.after?_append_plain (by simp) plain code
      obtain ⟨after, later, step⟩ := exists_step_of_close skipped otherCode (by simp) closed
      have endedLater : ∀ front inside, text = front ++ '/' :: '/' :: inside → '\n' ∉ inside →
          ∃ rest, tail = '\n' :: rest := by
        rintro front inside rfl oneLine
        exact ended (first :: front) inside rfl oneLine
      obtain ⟨last, rest, alternative, walk⟩ :=
        ih text.length (Nat.lt_succ_self _) endedLater later rfl
      exact ⟨last, rest, alternative, step.walk.trans walk⟩
  | some remaining =>
      have step : Step ⟨nested, previous, first :: text ++ (trail ++ [')'])⟩ _ := .skip skipped
      rw [step.close_eq] at closed
      have more : remaining ≠ [] := by
        rintro rfl
        rw [Search.close_nil] at closed
        simp at closed
      obtain ⟨passed, split, isClosed⟩ := Literal.exists_isClosed_of_after? skipped more
      rw [split, lastBefore_append_self] at closed
      rcases List.append_eq_append_iff.1 split with ⟨middle, rfl, behind⟩ | ⟨middle, within, rfl⟩
      · have short : [')'].length ≤ remaining.length := List.length_pos_iff.2 more
        obtain ⟨later, rfl, rfl⟩ := exists_append_of_append_eq_append behind short
        have blankMiddle : ∀ blank ∈ middle, Text.isBlank blank = true :=
          fun blank member => allBlank blank (List.mem_append_left _ member)
        have blankLater : ∀ blank ∈ later, Text.isBlank blank = true :=
          fun blank member => allBlank blank (List.mem_append_right _ member)
        obtain rfl := nested_eq_nil_of_close blankLater closed
        exact exists_walk_of_isClosed isClosed (by simp) blankMiddle fun inside => ended [] inside
      · -- The comment or literal ends inside the text.
        have shorter : middle.length < (first :: text).length := by
          obtain ⟨final, isFinal, -⟩ := isClosed.getLast?
          have positive := List.length_pos_iff.2 (List.ne_nil_of_mem (List.mem_of_getLast? isFinal))
          rw [within, List.length_append]
          omega
        have endedLater : ∀ front inside, middle = front ++ '/' :: '/' :: inside →
            '\n' ∉ inside → ∃ rest, tail = '\n' :: rest := by
          rintro front inside rfl oneLine
          exact ended (passed ++ front) inside (by rw [within, List.append_assoc]) oneLine
        obtain ⟨last, rest, alternative, walk⟩ := ih middle.length shorter endedLater closed rfl
        have otherStep : Step ⟨nested, previous, passed ++ (middle ++ tail)⟩ _ :=
          .skip (isClosed.after?_append (middle ++ tail))
        rw [lastBefore_append_self] at otherStep
        rw [within, List.append_assoc]
        exact ⟨last, rest, alternative, otherStep.walk.trans walk⟩

end Delimiter.Search

end ClosureCapture
