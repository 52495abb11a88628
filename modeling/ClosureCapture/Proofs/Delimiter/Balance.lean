import ClosureCapture.Proofs.Delimiter.Walk
import ClosureCapture.Proofs.Site.Head

/-!
# Balanced delimiters

Without its comments and literals and without everything that is no delimiter, a text is a word over
the three pairs.  The search for a closing delimiter keeps the pairs that are still open on a stack.
This file relates the stack to the word: what a search walks over closes the pairs of its stack, one
after another, and is balanced otherwise.
-/

namespace ClosureCapture

namespace Literal

/-- A text without its comments and literals, given the character before it. -/
def strip (previous : Option Char) (text : List Char) : List Char :=
  match text with
  | [] => []
  | first :: rest =>
      match _skipped : after? previous (first :: rest) with
      | some after => strip (Delimiter.lastBefore (first :: rest) after) after
      | none => first :: strip (some first) rest
termination_by text.length
decreasing_by
  · exact after?_length_lt _skipped
  · simp

theorem strip_nil (previous : Option Char) : strip previous [] = [] := by
  rw [strip]

theorem strip_of_skip {previous : Option Char} {text after : List Char}
    (skipped : after? previous text = some after) :
    strip previous text = strip (Delimiter.lastBefore text after) after := by
  cases text with
  | nil => exact absurd (after?_length_lt skipped) (Nat.not_lt_zero _)
  | cons first rest =>
      rw [strip]
      split
      · next other found =>
          obtain rfl := Option.some.inj (skipped.symm.trans found)
          rfl
      · next missing => simp [skipped] at missing

theorem strip_of_code {previous : Option Char} {first : Char} {rest : List Char}
    (code : after? previous (first :: rest) = none) :
    strip previous (first :: rest) = first :: strip (some first) rest := by
  rw [strip]
  split
  · next found => simp [code] at found
  · rfl

/-- Of the character before a text, only whether it is part of a word matters. -/
theorem strip_congr {previous other : Option Char}
    (same : other.any Text.isWord = previous.any Text.isWord) (text : List Char) :
    strip other text = strip previous text := by
  have skips := after?_congr same text
  cases skipped : after? previous text with
  | some after => rw [strip_of_skip (skips.trans skipped), strip_of_skip skipped]
  | none =>
      cases text with
      | nil => rw [strip_nil, strip_nil]
      | cons first rest => rw [strip_of_code (skips.trans skipped), strip_of_code skipped]

end Literal

namespace Delimiter

/-- Whether a character is a delimiter. -/
def isDelimiter (character : Char) : Bool :=
  (Bracket.ofOpening? character).isSome || (Bracket.ofClosing? character).isSome

/-- The delimiters of a text outside its comments and literals, given the character before it. -/
def word (previous : Option Char) (text : List Char) : List Char :=
  (Literal.strip previous text).filter isDelimiter

/-- A word in which every pair is closed, and nothing else is. -/
inductive Balanced : List Char → Prop
  | nil : Balanced []
  | pair (bracket : Bracket) {inner rest : List Char} : Balanced inner → Balanced rest →
      Balanced (bracket.opening :: (inner ++ bracket.closing :: rest))

/-- A word that closes open pairs, the innermost first, and is balanced otherwise. -/
inductive Closes : List Bracket → List Char → Prop
  | settled {word : List Char} : Balanced word → Closes [] word
  | pair (bracket : Bracket) {nested : List Bracket} {inner rest : List Char} : Balanced inner →
      Closes nested rest → Closes (bracket :: nested) (inner ++ bracket.closing :: rest)

/-- A pair in front changes nothing. -/
theorem Closes.prepend {nested : List Bracket} {inner rest : List Char} (bracket : Bracket)
    (balanced : Balanced inner) (closes : Closes nested rest) :
    Closes nested (bracket.opening :: (inner ++ bracket.closing :: rest)) := by
  cases closes with
  | settled later => exact .settled (.pair bracket balanced later)
  | @pair outer nested front behind frontBalanced closes =>
      have joined := Closes.pair outer (.pair bracket balanced frontBalanced) closes
      simpa using joined

/-- An opening delimiter takes a pair off those that are to be closed. -/
theorem Closes.opening {bracket : Bracket} {nested : List Bracket} {word : List Char}
    (closes : Closes (bracket :: nested) word) : Closes nested (bracket.opening :: word) := by
  cases closes with
  | pair _ balanced later => exact later.prepend bracket balanced

namespace Search

/-- What a search walks over on its way to the end of a text closes its stack. -/
theorem Walk.closes {search : Search} {last : Option Char}
    (walk : Walk search ⟨[], last, []⟩) :
    Closes search.nested (word search.previous search.rest) := by
  -- The walk is taken from its end, so that a step forward opens what is closed later.
  induction walk using Relation.ReflTransGen.head_induction_on with
  | refl =>
      rw [word, Literal.strip_nil]
      exact .settled .nil
  | head step _ ih =>
      cases step with
      | skip skipped =>
          rw [word, Literal.strip_of_skip skipped]
          exact ih
      | @enter nested bracket previous first rest code opens =>
          obtain rfl := Site.ofOpening?_eq_some_iff.1 opens
          rw [word, Literal.strip_of_code code,
            List.filter_cons_of_pos (by simp [isDelimiter, opens])]
          exact ih.opening
      | @pass nested previous first rest code opens closes =>
          rw [word, Literal.strip_of_code code,
            List.filter_cons_of_neg (by simp [isDelimiter, opens, closes])]
          exact ih
      | @leave nested bracket previous rest code =>
          have closing : isDelimiter bracket.closing = true := by cases bracket <;> decide
          rw [word, Literal.strip_of_code code, List.filter_cons_of_pos closing]
          exact .pair bracket .nil ih

end Search

/-- The text between a delimiter and the one that closes it is balanced. -/
theorem balanced_of_close {bracket : Bracket} {previous : Option Char} {text rest : List Char}
    (closed : close bracket [] previous (text ++ rest) = .ok rest) :
    Balanced (word previous text) := by
  have stack : [bracket] = [] ++ [bracket] := rfl
  obtain ⟨last, walk, -⟩ := Search.exists_walk_of_close_eq_ok closed stack
  have closes := (Search.Walk.of_append walk rfl (List.nil_append rest).symm).closes
  cases closes with
  | settled balanced => exact balanced

end Delimiter

end ClosureCapture
