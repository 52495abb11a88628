import ClosureCapture.Proofs.Delimiter.Passing
import ClosureCapture.Proofs.Site.Path

/-!
# Where segments meet

A scan for sites and a search for a closing delimiter pass over the same comments and literals.
So they stop at the same places as long as the scan finds no site, and the segments of a text can
be split wherever the search stops.  Blanks and closed comments are segments of their own.
-/

namespace ClosureCapture

namespace Delimiter.Search

variable {search other : Search}

theorem Step.of_skipped (step : Step search other) {after : List Char}
    (skipped : Literal.after? search.previous search.rest = some after) :
    other.rest = after ∧ other.previous = lastBefore search.rest after := by
  cases step with
  | skip same =>
      obtain rfl := Option.some.inj (same.symm.trans skipped)
      exact ⟨rfl, rfl⟩
  | enter code | pass code | leave code => exact nomatch code.symm.trans skipped

theorem Step.of_code (step : Step search other) {first : Char} {rest : List Char}
    (whole : search.rest = first :: rest)
    (code : Literal.after? search.previous (first :: rest) = none) :
    other.rest = rest ∧ other.previous = some first := by
  rw [← whole] at code
  cases step with
  | skip skipped => exact nomatch code.symm.trans skipped
  | enter | pass | leave =>
      obtain ⟨rfl, rfl⟩ := List.cons.inj whole
      exact ⟨rfl, rfl⟩

end Delimiter.Search

namespace Site

/-- No site starts with a blank. -/
theorem open?_of_isBlank {name : String} (isName : Text.isName name = true) {blank : Char}
    (isBlank : Text.isBlank blank = true) (previous : Option Char) (rest : List Char) :
    open? name.toList previous (blank :: rest) = none := by
  cases opened : open? name.toList previous (blank :: rest) with
  | none => rfl
  | some result =>
      obtain ⟨bracket, inside⟩ := result
      obtain ⟨path, before, behind, -, -, whole⟩ := exists_head_of_open? opened
      obtain ⟨first, letters, spelled, visible⟩ := Text.exists_visible_of_isName isName
      obtain ⟨head, tail, split, visibleHead⟩ := exists_visible_pathText path visible
        (letters ++ (before ++ '!' :: behind ++ bracket.opening :: inside))
      have same : blank :: rest = head :: tail := by
        rw [whole, ← split, spelled]
        simp
      rw [(List.cons.inj same).1, visibleHead] at isBlank
      contradiction

end Site

namespace Segment

open Delimiter

variable {name : List Char} {previous : Option Char} {segments : List Segment}

/-- The segments of a text before the place where a search stops, if no site starts there. -/
theorem exists_split_of_walk {search stop : Search} (walk : Search.Walk search stop)
    (cuts : CutTo name [] search.previous segments)
    (whole : search.rest = segments.flatMap Segment.text)
    (late : ∀ before call later, segments = before ++ .site call :: later →
      (call.text ++ later.flatMap Segment.text).length ≤ stop.rest.length) :
    ∃ front others, segments = front ++ others ∧ others.flatMap Segment.text = stop.rest ∧
      ∀ call, .site call ∉ front := by
  induction walk using Relation.ReflTransGen.head_induction_on generalizing segments with
  | refl => exact ⟨[], segments, rfl, whole.symm, by simp⟩
  | @head search middle step walk ih =>
      have shorter := Nat.lt_of_le_of_lt (Search.Walk.suffix walk).length_le step.length_lt
      cases segments with
      | nil => simp [whole] at shorter
      | cons segment others =>
          obtain ⟨cut, later⟩ := cuts
          rw [List.flatMap_cons] at whole
          rw [List.append_nil] at cut
          -- One step of the search passes over the first segment.
          have passed : middle.rest = others.flatMap Segment.text ∧
              middle.previous = segment.text.getLast? ∧ ∀ call, segment ≠ .site call := by
            cases segment with
            | literal passed =>
                obtain ⟨rest, last⟩ := step.of_skipped (whole ▸ cut.2)
                rw [whole, lastBefore_append_self] at last
                exact ⟨rest, last, by simp⟩
            | code character =>
                obtain ⟨rest, last⟩ := step.of_code whole cut.1
                exact ⟨rest, last, by simp⟩
            | site call =>
                have bound := late [] call others rfl
                rw [whole] at shorter
                exact absurd shorter (Nat.not_lt.2 bound)
          obtain ⟨rest, last, siteless⟩ := passed
          obtain ⟨front, behind, rfl, reached, none⟩ := ih (last ▸ later) rest (by
            intro before call later split
            exact late (segment :: before) call later (by rw [split]; rfl))
          refine ⟨segment :: front, behind, rfl, reached, ?_⟩
          intro call member
          rcases List.mem_cons.1 member with same | inside
          · exact siteless call same.symm
          · exact none call inside

/-- Blanks and closed comments are segments of their own. -/
theorem exists_split_of_run {name : String} (isName : Text.isName name = true)
    (spacers : List Spacer) {rest : List Char}
    (cuts : CutTo name.toList [] previous segments)
    (whole : segments.flatMap Segment.text = Spacer.run spacers ++ rest) :
    ∃ front others, segments = front ++ others ∧ front.flatMap Segment.text = Spacer.run spacers ∧
      ∀ call, .site call ∉ front := by
  induction spacers generalizing previous segments with
  | nil => exact ⟨[], segments, rfl, rfl, by simp⟩
  | cons spacer spacers ih =>
      obtain ⟨own, written, siteless, ownCut⟩ : ∃ own : Segment, own.text = spacer.text ∧
          (∀ call, own ≠ .site call) ∧
          own.CutBefore name.toList previous (Spacer.run spacers ++ rest) := by
        cases spacer with
        | blank character isBlank =>
            refine ⟨.code character, rfl, by simp, ?_, ?_⟩
            · exact Literal.after?_mute (Search.not_mem_of_isBlank isBlank (by decide)) previous _
            · exact Site.open?_of_isBlank isName isBlank previous _
        | comment comment closed =>
            refine ⟨.literal comment, rfl, by simp, ?_, ?_⟩
            · obtain ⟨tail, rfl⟩ := closed.exists_cons
              simp
            · exact (Literal.isClosed_comment closed previous).after?_append _
      have nonempty := text_ne_nil_of_cutBefore ownCut
      rw [Spacer.run, List.flatMap_cons, List.append_assoc, ← written] at whole
      cases segments with
      | nil => simp [nonempty] at whole
      | cons segment others =>
          obtain ⟨cut, later⟩ := cuts
          rw [List.append_nil] at cut
          obtain ⟨rfl, behind⟩ := cut.unique ownCut whole
          obtain ⟨front, more, rfl, run, none⟩ := ih later behind
          refine ⟨segment :: front, more, rfl, ?_, ?_⟩
          · rw [List.flatMap_cons, run, written]
            rfl
          · intro call member
            rcases List.mem_cons.1 member with same | inside
            · exact siteless call same.symm
            · exact none call inside

end Segment

end ClosureCapture
