import ClosureCapture.Proofs.Delimiter.Stack
import ClosureCapture.Proofs.Site.Segments

/-!
# The delimiter that closes an open one

The search for a closing delimiter depends on nothing but the delimiters that it meets outside
comments and literals.  Every search ends: a step always shortens the text that is left.  It ends at
the delimiter that closes the opening one, at the first one that clashes with its partner, or at the
end of a text that has neither.  The scan for sites reports exactly these outcomes.
-/

namespace ClosureCapture

namespace Delimiter

/-! ### Delimiters with their offsets -/

/-- The delimiters of a text outside its comments and literals, each with its offset, given the
offset of the text and the character before it. -/
def placed (offset : Nat) (previous : Option Char) (text : List Char) : List (Nat × Char) :=
  match text with
  | [] => []
  | first :: rest =>
      match _skipped : Literal.after? previous (first :: rest) with
      | some after =>
          placed (offset + ((first :: rest).length - after.length))
            (lastBefore (first :: rest) after) after
      | none =>
          let later := placed (offset + 1) (some first) rest
          if isDelimiter first then (offset, first) :: later else later
termination_by text.length
decreasing_by
  · exact Literal.after?_length_lt _skipped
  · simp

theorem placed_nil (offset : Nat) (previous : Option Char) : placed offset previous [] = [] := by
  rw [placed]

theorem placed_of_skip {previous : Option Char} {text after : List Char}
    (skipped : Literal.after? previous text = some after) (offset : Nat) :
    placed offset previous text =
      placed (offset + (text.length - after.length)) (lastBefore text after) after := by
  cases text with
  | nil => exact absurd (Literal.after?_length_lt skipped) (Nat.not_lt_zero _)
  | cons first rest =>
      rw [placed]
      split
      · next other found =>
          obtain rfl := Option.some.inj (skipped.symm.trans found)
          rfl
      · next missing => simp [skipped] at missing

theorem placed_of_code {previous : Option Char} {first : Char} {rest : List Char}
    (code : Literal.after? previous (first :: rest) = none) (offset : Nat) :
    placed offset previous (first :: rest) =
      if isDelimiter first then (offset, first) :: placed (offset + 1) (some first) rest
      else placed (offset + 1) (some first) rest := by
  rw [placed]
  split
  · next found => simp [code] at found
  · rfl

theorem isDelimiter_opening (bracket : Bracket) : isDelimiter bracket.opening = true := by
  cases bracket <;> decide

theorem isDelimiter_closing (bracket : Bracket) : isDelimiter bracket.closing = true := by
  cases bracket <;> decide

/-- Without their offsets, these are the delimiters of the text. -/
theorem map_snd_placed (offset : Nat) (previous : Option Char) (text : List Char) :
    (placed offset previous text).map Prod.snd = word previous text := by
  fun_induction placed offset previous text with
  | case1 => rw [word, Literal.strip_nil]; rfl
  | case2 offset previous first rest after skipped ih =>
      rw [ih, word, word, Literal.strip_of_skip skipped]
  | case3 offset previous first rest code later delimiter ih =>
      rw [word, Literal.strip_of_code code, List.filter_cons_of_pos delimiter, List.map_cons, ih,
        word]
  | case4 offset previous first rest code later plain ih =>
      rw [word, Literal.strip_of_code code, List.filter_cons_of_neg plain, ih, word]

/-- Each delimiter stands at its offset in the source that the text is the end of. -/
theorem getElem?_of_mem_placed {source text : List Char} {offset place : Nat}
    {previous : Option Char} {character : Char} (behind : source.drop offset = text)
    (member : (place, character) ∈ placed offset previous text) :
    offset ≤ place ∧ source[place]? = some character := by
  fun_induction placed offset previous text with
  | case1 => simp at member
  | case2 offset previous first rest after skipped ih =>
      have suffix := List.suffix_iff_eq_drop.1 (Literal.after?_suffix skipped)
      rw [← behind, List.drop_drop, behind] at suffix
      obtain ⟨le, found⟩ := ih suffix.symm member
      exact ⟨Nat.le_of_add_right_le le, found⟩
  | case3 offset previous first rest code later delimiter ih =>
      rcases List.mem_cons.1 member with same | later
      · obtain ⟨rfl, rfl⟩ := Prod.mk.inj same
        refine ⟨Nat.le_refl _, ?_⟩
        rw [← List.head?_drop, behind]
        rfl
      · have tail : source.drop (offset + 1) = rest := by rw [← List.tail_drop, behind]; rfl
        obtain ⟨le, found⟩ := ih tail later
        exact ⟨Nat.le_of_succ_le le, found⟩
  | case4 offset previous first rest code later plain ih =>
      have tail : source.drop (offset + 1) = rest := by rw [← List.tail_drop, behind]; rfl
      obtain ⟨le, found⟩ := ih tail member
      exact ⟨Nat.le_of_succ_le le, found⟩

namespace Search

variable {search other : Search}

/-- The delimiter that a step passes over, if any, is read with the stack of the search. -/
theorem Step.exists_placed (step : Step search other) (offset : Nat) :
    ∃ front, placed offset search.previous search.rest =
        front ++ placed (offset + (search.rest.length - other.rest.length)) other.previous
          other.rest ∧
      readAll search.nested (front.map Prod.snd) = some other.nested := by
  have one (first : Char) (rest : List Char) : (first :: rest).length - rest.length = 1 := by simp
  cases step with
  | skip skipped => exact ⟨[], placed_of_skip skipped offset, rfl⟩
  | @enter nested bracket previous first rest code opens =>
      obtain rfl := Site.ofOpening?_eq_some_iff.1 opens
      refine ⟨[(offset, bracket.opening)], ?_, ?_⟩
      · rw [placed_of_code code, if_pos (isDelimiter_opening bracket), one]
        rfl
      · exact (readAll_singleton _ _).trans (read_opening nested bracket)
  | @pass nested previous first rest code opens closes =>
      refine ⟨[], ?_, rfl⟩
      rw [placed_of_code code, if_neg (by simp [isDelimiter, opens, closes]), one]
      rfl
  | @leave nested bracket previous rest code =>
      refine ⟨[(offset, bracket.closing)], ?_, ?_⟩
      · rw [placed_of_code code, if_pos (isDelimiter_closing bracket), one]
        rfl
      · exact (readAll_singleton _ _).trans (read_closing_self bracket nested)

/-- The delimiters that a walk passes over take the stack of its start to the one of its end. -/
theorem Walk.exists_placed (walk : Walk search other) (offset : Nat) :
    ∃ front, placed offset search.previous search.rest =
        front ++ placed (offset + (search.rest.length - other.rest.length)) other.previous
          other.rest ∧
      readAll search.nested (front.map Prod.snd) = some other.nested := by
  induction walk using Relation.ReflTransGen.head_induction_on generalizing offset with
  | refl => exact ⟨[], by simp, rfl⟩
  | @head search next step walk ih =>
      obtain ⟨front, passed, reads⟩ := step.exists_placed offset
      obtain ⟨later, passedLater, readsLater⟩ :=
        ih (offset + (search.rest.length - next.rest.length))
      have lengths : offset + (search.rest.length - next.rest.length) +
          (next.rest.length - other.rest.length) =
            offset + (search.rest.length - other.rest.length) := by
        have shorter := step.length_lt
        have shortest := (Walk.suffix walk).length_le
        omega
      refine ⟨front ++ later, ?_, ?_⟩
      · rw [passed, passedLater, lengths, List.append_assoc]
      · rw [List.map_append, readAll_append, reads]
        exact readsLater

/-! ### Every search ends -/

theorem wellFounded_step : WellFounded fun next place : Search => Step place next :=
  Subrelation.wf Step.length_lt (measure fun place : Search => place.rest.length).wf

/-- A place where the search for the end of a pair stops, with its outcome. -/
inductive Ends (bracket : Bracket) : Search → Except Fault (List Char) → Prop
  | closed {last : Option Char} {rest : List Char} :
      Literal.after? last (bracket.closing :: rest) = none →
      Ends bracket ⟨[], last, bracket.closing :: rest⟩ (.ok (bracket.closing :: rest))
  | clash {nested : List Bracket} {last : Option Char} {other : Bracket} {rest : List Char} :
      Literal.after? last (other.closing :: rest) = none → other ≠ nested.headD bracket →
      Ends bracket ⟨nested, last, other.closing :: rest⟩
        (.error (.mismatch (nested.headD bracket).closing other.closing (other.closing :: rest)))
  | unclosed {nested : List Bracket} {last : Option Char} :
      Ends bracket ⟨nested, last, []⟩ (.error .unclosed)

theorem ofClosing?_eq_some {character : Char} {bracket : Bracket}
    (closes : Bracket.ofClosing? character = some bracket) : character = bracket.closing := by
  have same := List.find?_some closes
  simpa using (beq_iff_eq.1 same).symm

/-- A place where no step can be taken is an end. -/
theorem step_or_ends (bracket : Bracket) (search : Search) :
    (∃ next, Step search next) ∨ Ends bracket search (search.close bracket []) := by
  obtain ⟨nested, last, text⟩ := search
  cases text with
  | nil =>
      rw [Search.close_nil]
      exact .inr .unclosed
  | cons first rest =>
  cases code : Literal.after? last (first :: rest) with
  | some after => exact .inl ⟨_, .skip code⟩
  | none =>
  cases opens : Bracket.ofOpening? first with
  | some opened => exact .inl ⟨_, .enter code opens⟩
  | none =>
  cases closes : Bracket.ofClosing? first with
  | none => exact .inl ⟨_, .pass code opens closes⟩
  | some other =>
  obtain rfl := ofClosing?_eq_some closes
  by_cases same : other = nested.headD bracket
  · cases nested with
    | nil =>
        obtain rfl : other = bracket := same
        have found : (Search.mk [] last (other.closing :: rest)).close other [] =
          .ok (other.closing :: rest) := close_last code
        rw [found]
        exact .inr (.closed code)
    | cons inner nested =>
        obtain rfl : other = inner := same
        exact .inl ⟨_, .leave code⟩
  · have wrong : other.closing ≠ (nested.headD bracket).closing := fun equal =>
      same (closing_inj.1 equal)
    have failed : (Search.mk nested last (other.closing :: rest)).close bracket [] = .error
        (.mismatch (nested.headD bracket).closing other.closing (other.closing :: rest)) := by
      cases nested <;> exact close_mismatch code opens (by simp [closes]) wrong
    rw [failed]
    exact .inr (.clash code same)

/-- Every search walks to a place where it ends. -/
theorem exists_ends (bracket : Bracket) (search : Search) :
    ∃ place, Walk search place ∧ Ends bracket place (search.close bracket []) := by
  induction search using wellFounded_step.induction with
  | h search ih =>
      rcases step_or_ends bracket search with ⟨next, step⟩ | ends
      · obtain ⟨place, walk, ends⟩ := ih next step
        rw [step.close_eq]
        exact ⟨place, .head step walk, ends⟩
      · exact ⟨search, .refl, ends⟩

end Search

/-! ### The outcome of a search -/

/-- What a search for the end of a pair has to answer, given the delimiters behind the opening
one. -/
inductive Verdict (bracket : Bracket) (start line : Nat) (word : List (Nat × Char)) :
    Except SiteFault Nat → Prop
  | closed {index place : Nat} : ClosedBy bracket word index place →
      Verdict bracket start line word (.ok place)
  | clash {index place : Nat} {partner other : Bracket} :
      ClashesFirst bracket word index place partner other →
      Verdict bracket start line word (.error (.mismatch partner.closing other.closing place))
  | unclosed : (∀ index place, ¬ClosedBy bracket word index place) →
      (∀ index place partner other, ¬ClashesFirst bracket word index place partner other) →
      Verdict bracket start line word (.error (.unclosed line start))

theorem Verdict.unique {bracket : Bracket} {start line : Nat} {word : List (Nat × Char)}
    {outcome other : Except SiteFault Nat} (verdict : Verdict bracket start line word outcome)
    (again : Verdict bracket start line word other) : outcome = other := by
  cases verdict with
  | closed closed =>
      cases again with
      | closed closedAgain => rw [closed.unique closedAgain]
      | clash clash => exact absurd clash closed.not_clashesFirst
      | unclosed notClosed => exact absurd closed (notClosed _ _)
  | clash clash =>
      cases again with
      | closed closed => exact absurd clash closed.not_clashesFirst
      | clash clashAgain =>
          obtain ⟨rfl, rfl, rfl⟩ := clash.unique clashAgain
          rfl
      | unclosed _ noClash => exact absurd clash (noClash _ _ _ _)
  | unclosed notClosed noClash =>
      cases again with
      | closed closed => exact absurd closed (notClosed _ _)
      | clash clash => exact absurd clash (noClash _ _ _ _)
      | unclosed => rfl

theorem verdict_closeAt (bracket : Bracket) (start line : Nat) (inside : List Char) :
    Verdict bracket start line (placed (start + 1) (some bracket.opening) inside)
      (closeAt bracket start line inside) := by
  obtain ⟨place, walk, ends⟩ := Search.exists_ends bracket ⟨[], some bracket.opening, inside⟩
  obtain ⟨front, passed, reads⟩ := walk.exists_placed (start + 1)
  change Search.Ends bracket place (close bracket [] (some bracket.opening) inside) at ends
  unfold closeAt
  generalize close bracket [] (some bracket.opening) inside = outcome at ends ⊢
  cases ends with
  | closed code =>
      rw [placed_of_code code, if_pos (isDelimiter_closing bracket)] at passed
      rw [passed]
      exact .closed (closedBy_of_readAll reads _ _)
  | @clash nested last other rest code differs =>
      rw [placed_of_code code, if_pos (isDelimiter_closing other)] at passed
      rw [passed]
      exact .clash (clashesFirst_of_readAll reads differs _ _)
  | unclosed =>
      -- The whole word has been read, so that every index lies in front of the end.
      rw [placed_nil] at passed
      rw [passed]
      have inFront : ∀ {index : Nat} {found : Nat × Char},
          (front ++ [])[index]? = some found → index < front.length := by
        intro index found present
        rw [List.append_nil] at present
        exact (List.getElem?_eq_some_iff.1 present).1
      refine .unclosed ?_ ?_
      · intro index place closed
        exact not_balanced_upTo reads [] (inFront closed.found) closed.balanced
      · intro index place partner other clash
        exact not_clashes_of_lt reads [] (inFront clash.found) clash.toClashes

/-- The search behind an opening delimiter is exact: it answers with the delimiter that closes the
opening one, with the first clash, or with neither, as the delimiters behind the opening one demand.
It takes finitely many steps. -/
theorem closeAt_exact {source inside : List Char} {bracket : Bracket} {start : Nat}
    (opens : source.drop start = bracket.opening :: inside) (line : Nat) :
    ((placed (start + 1) (some bracket.opening) inside).map Prod.snd =
        word (some bracket.opening) inside ∧
      ∀ place character, (place, character) ∈ placed (start + 1) (some bracket.opening) inside →
        start < place ∧ source[place]? = some character) ∧
    (∀ outcome, closeAt bracket start line inside = outcome ↔
      Verdict bracket start line (placed (start + 1) (some bracket.opening) inside) outcome) ∧
    Acc (fun next place => Search.Step place next) ⟨[], some bracket.opening, inside⟩ ∧
    ∃ place, Search.Walk ⟨[], some bracket.opening, inside⟩ place ∧
      Search.Ends bracket place (close bracket [] (some bracket.opening) inside) := by
  have behind : source.drop (start + 1) = inside := by rw [← List.tail_drop, opens]; rfl
  refine ⟨⟨map_snd_placed _ _ _, fun _ _ member => getElem?_of_mem_placed behind member⟩, ?_,
    Search.wellFounded_step.apply _, Search.exists_ends bracket ⟨[], some bracket.opening, inside⟩⟩
  intro outcome
  have answer := verdict_closeAt bracket start line inside
  constructor
  · rintro rfl
    exact answer
  · exact fun verdict => answer.unique verdict

/-- A comment and a string hide a closing delimiter each, and an inner pair is closed by a delimiter
of another kind. -/
theorem closeAt_exact_hidden :
    closeAt .round 1 1 "a /* ) */ \")\", [x\x7d)".toList = .error (.mismatch ']' '\x7d' 19) ∧
      Verdict .round 1 1 (placed 2 (some '(') "a /* ) */ \")\", [x\x7d)".toList)
        (.error (.mismatch ']' '\x7d' 19)) := by
  have opens : "f(a /* ) */ \")\", [x\x7d)".toList.drop 1 =
      Bracket.round.opening :: "a /* ) */ \")\", [x\x7d)".toList := rfl
  have clash : closeAt .round 1 1 "a /* ) */ \")\", [x\x7d)".toList =
      .error (.mismatch ']' '\x7d' 19) := by
    with_unfolding_all rfl
  exact ⟨clash, ((closeAt_exact opens 1).2.1 _).1 clash⟩

end Delimiter

end ClosureCapture
