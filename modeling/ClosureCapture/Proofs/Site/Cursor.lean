import ClosureCapture.Proofs.Delimiter.Walk
import ClosureCapture.Proofs.Site.Nesting

/-!
# The cursor of a scan

A scan of a source text moves a cursor.  Between sites the cursor passes over comments, literals
and characters of code and stops where a site is open; inside a site it follows the search for the
closing delimiter, behind which the scan goes on.

This file proves that the way of the cursor through the front part of a text is decided by that
part, and says where a cursor stands: behind some segments, or behind some segments and inside a
site whose search has walked to this place.
-/

namespace ClosureCapture

open Delimiter

/-! ### Cuts before a place -/

namespace Site

theorem mem_of_open?_append {name text inside more : List Char} {previous : Option Char}
    {bracket : Bracket}
    (opened : open? name previous (text ++ more) = some (bracket, inside ++ more)) :
    '!' ∈ text := by
  obtain ⟨path, before, behind, -, -, whole⟩ := exists_head_of_open? opened
  have split : text =
      pathText path ++ name ++ before ++ '!' :: behind ++ bracket.opening :: inside := by
    apply List.append_cancel_right (whole.trans _)
    simp
  simp [split]

theorem open?_none_of_append {name text more : List Char} {previous : Option Char}
    (missing : open? name previous (text ++ more) = none) : open? name previous text = none := by
  cases opened : open? name previous text with
  | none => rfl
  | some result =>
      obtain ⟨bracket, inside⟩ := result
      have follows := mayFollow_of_open? opened
      have member : '!' ∈ text :=
        @mem_of_open?_append name text inside [] _ _ (by simpa using opened)
      rw [open?, if_pos follows, nameStarts_append member more] at missing
      rw [open?, if_pos follows] at opened
      obtain ⟨start, isStart, named⟩ := List.exists_of_findSome?_eq_some opened
      have longer := List.findSome?_eq_none_iff.1 missing _ (List.mem_map_of_mem isStart)
      rw [afterName?_none_of_append longer] at named
      simp at named

theorem open?_some_of_append {name text inside more : List Char} {previous : Option Char}
    {bracket : Bracket}
    (opened : open? name previous (text ++ more) = some (bracket, inside ++ more)) :
    open? name previous text = some (bracket, inside) :=
  open?_of_append (mem_of_open?_append opened) (mayFollow_of_open? opened) opened

theorem ClosedBefore.of_append {name rest more : List Char} {previous : Option Char} {call : Site}
    (closedBefore : call.ClosedBefore name previous (rest ++ more)) :
    call.ClosedBefore name previous rest := by
  obtain ⟨code, opened, closed⟩ := closedBefore
  rw [← List.append_assoc] at code opened
  rw [← List.cons_append, ← List.append_assoc] at opened closed
  refine ⟨?_, ?_, ?_⟩
  · exact (Literal.after?_isLocal previous).none_of_append code
  · exact open?_some_of_append opened
  · exact close_of_append (by simp) closed

end Site

namespace Segment

variable {name rest more : List Char} {previous : Option Char}

theorem CutBefore.of_append {segment : Segment}
    (cut : segment.CutBefore name previous (rest ++ more)) :
    segment.CutBefore name previous rest := by
  cases segment with
  | literal passed =>
      obtain ⟨nonempty, skipped⟩ := cut
      rw [← List.append_assoc] at skipped
      exact ⟨nonempty, (Literal.after?_isLocal previous).some_of_append skipped⟩
  | code character =>
      obtain ⟨code, unopened⟩ := cut
      rw [← List.cons_append] at code unopened
      exact ⟨(Literal.after?_isLocal previous).none_of_append code,
        Site.open?_none_of_append unopened⟩
  | site call => exact Site.ClosedBefore.of_append cut

theorem CutTo.of_append {segments : List Segment}
    (cuts : CutTo name (rest ++ more) previous segments) : CutTo name rest previous segments := by
  induction segments generalizing previous with
  | nil => trivial
  | cons segment segments ih =>
      obtain ⟨cut, later⟩ := cuts
      rw [← List.append_assoc] at cut
      exact ⟨cut.of_append, ih later⟩

theorem CutBefore.unique {first second : Segment} {others : List Char}
    (cut : first.CutBefore name previous rest) (otherCut : second.CutBefore name previous others)
    (same : first.text ++ rest = second.text ++ others) : first = second ∧ rest = others := by
  cases first with
  | literal passed =>
      obtain ⟨-, skipped⟩ := cut
      cases second with
      | literal otherPassed =>
          obtain ⟨-, otherSkipped⟩ := otherCut
          simp only [text] at same
          rw [same, otherSkipped] at skipped
          obtain rfl := Option.some.inj skipped
          rw [List.append_cancel_right same]
          exact ⟨rfl, rfl⟩
      | code character =>
          have code : Literal.after? previous (passed ++ rest) = none := same ▸ otherCut.1
          simp [skipped] at code
      | site call =>
          have code : Literal.after? previous (passed ++ rest) = none := same ▸ otherCut.code
          simp [skipped] at code
  | code character =>
      cases second with
      | literal passed =>
          have code : Literal.after? previous (passed ++ others) = none := same ▸ cut.1
          simp [otherCut.2] at code
      | code other =>
          obtain ⟨rfl, rfl⟩ := List.cons.inj same
          exact ⟨rfl, rfl⟩
      | site call =>
          have unopened : Site.open? name previous (call.text ++ others) = none := same ▸ cut.2
          simp [otherCut.opened] at unopened
  | site call =>
      cases second with
      | literal passed =>
          have code : Literal.after? previous (passed ++ others) = none := same ▸ cut.code
          simp [otherCut.2] at code
      | code character =>
          have unopened : Site.open? name previous (call.text ++ rest) = none := same ▸ otherCut.2
          simp [cut.opened] at unopened
      | site other =>
          obtain ⟨head, bracket, arguments⟩ := call
          obtain ⟨otherHead, otherBracket, otherArguments⟩ := other
          have opened := cut.opened
          have closed := cut.closed
          simp only [text] at same
          rw [same, otherCut.opened] at opened
          obtain ⟨rfl, inside⟩ := Prod.mk.inj (Option.some.inj opened)
          simp only at inside closed
          rw [← inside, otherCut.closed] at closed
          obtain ⟨-, rfl⟩ := List.cons.inj (Except.ok.inj closed)
          obtain rfl := List.append_cancel_right inside
          simp only [Site.text, List.append_assoc] at same
          rw [List.append_cancel_right same]
          exact ⟨rfl, rfl⟩

theorem not_broken_of_cutBefore {segment : Segment}
    (cut : segment.CutBefore name previous rest) :
    ¬ Site.Broken name previous (segment.text ++ rest) := by
  rintro ⟨code, bracket, inside, fault, opened, failed⟩
  cases segment with
  | literal passed => simp [text, cut.2] at code
  | code character => simp [text, cut.2] at opened
  | site call =>
      simp only [text, cut.opened, Option.some.injEq, Prod.mk.injEq] at opened
      obtain ⟨rfl, rfl⟩ := opened
      simp [cut.closed] at failed

/-- There is one way to cut segments off up to a broken site. -/
theorem CutTo.unique_of_broken {segments others : List Segment} {remaining : List Char}
    (cuts : CutTo name rest previous segments) (otherCuts : CutTo name remaining previous others)
    (same : segments.flatMap text ++ rest = others.flatMap text ++ remaining)
    (broken : Site.Broken name (lastBefore previous segments) rest)
    (otherBroken : Site.Broken name (lastBefore previous others) remaining) :
    segments = others ∧ rest = remaining := by
  induction segments generalizing previous others with
  | nil =>
      cases others with
      | nil => exact ⟨rfl, same⟩
      | cons segment others =>
          rw [List.flatMap_nil, List.nil_append, List.flatMap_cons, List.append_assoc] at same
          exact absurd (same ▸ broken) (not_broken_of_cutBefore otherCuts.1)
  | cons segment segments ih =>
      obtain ⟨cut, later⟩ := cuts
      rw [List.flatMap_cons, List.append_assoc] at same
      cases others with
      | nil =>
          rw [List.flatMap_nil, List.nil_append] at same
          exact absurd (same ▸ otherBroken) (not_broken_of_cutBefore cut)
      | cons other others =>
          obtain ⟨otherCut, otherLater⟩ := otherCuts
          rw [List.flatMap_cons, List.append_assoc] at same
          obtain ⟨rfl, tails⟩ := cut.unique otherCut same
          have nonempty := text_ne_nil_of_cutBefore cut
          rw [lastBefore_cons nonempty] at broken otherBroken
          obtain ⟨rfl, rfl⟩ := ih later otherLater tails broken otherBroken
          exact ⟨rfl, rfl⟩

theorem CutTo.concat {segments : List Segment} {segment : Segment}
    (cuts : CutTo name (segment.text ++ rest) previous segments)
    (cut : segment.CutBefore name (lastBefore previous segments) rest) :
    CutTo name rest previous (segments ++ [segment]) := by
  induction segments generalizing previous with
  | nil => exact ⟨cut, trivial⟩
  | cons first segments ih =>
      obtain ⟨firstCut, later⟩ := cuts
      rw [lastBefore_cons (text_ne_nil_of_cutBefore firstCut)] at cut
      have texts : (segments ++ [segment]).flatMap text ++ rest =
          segments.flatMap text ++ (segment.text ++ rest) := by simp
      refine ⟨?_, ih later cut⟩
      rw [← texts] at firstCut
      exact firstCut

theorem lastBefore_concat (segments : List Segment) {segment : Segment}
    (nonempty : segment.text ≠ []) :
    lastBefore previous (segments ++ [segment]) = segment.text.getLast? := by
  have isLast := List.getLast?_eq_some_getLast nonempty
  rw [lastBefore, List.flatMap_append, List.flatMap_singleton, List.getLast?_append, isLast]
  rfl

end Segment

/-! ### Steps of the cursor -/

/-- The cursor of a scan, between sites or inside one with the given delimiters. -/
inductive Cursor where
  | scanning (previous : Option Char) (rest : List Char)
  | searching (bracket : Bracket) (search : Search)

namespace Cursor

/-- The text from the cursor on. -/
def rest : Cursor → List Char
  | .scanning _ rest => rest
  | .searching _ search => search.rest

/-- The character before the cursor. -/
def previous : Cursor → Option Char
  | .scanning previous _ => previous
  | .searching _ search => search.previous

/-- The same cursor before another text. -/
def withRest (cursor : Cursor) (rest : List Char) : Cursor :=
  match cursor with
  | .scanning previous _ => .scanning previous rest
  | .searching bracket search => .searching bracket (search.withRest rest)

/-- One move of the cursor, in a scan for sites of the given name. -/
inductive Step (name : List Char) : Cursor → Cursor → Prop
  | skip {previous : Option Char} {rest after : List Char} :
      Literal.after? previous rest = some after →
      Step name (.scanning previous rest) (.scanning (lastBefore rest after) after)
  | code {previous : Option Char} {first : Char} {rest : List Char} :
      Literal.after? previous (first :: rest) = none →
      Site.open? name previous (first :: rest) = none →
      Step name (.scanning previous (first :: rest)) (.scanning (some first) rest)
  | enter {previous : Option Char} {bracket : Bracket} {rest inside : List Char} :
      Literal.after? previous rest = none → Site.open? name previous rest = some (bracket, inside) →
      Step name (.scanning previous rest) (.searching bracket ⟨[], some bracket.opening, inside⟩)
  | search {bracket : Bracket} {search other : Search} : Search.Step search other →
      Step name (.searching bracket search) (.searching bracket other)
  | leave {bracket : Bracket} {previous : Option Char} {rest : List Char} :
      Literal.after? previous (bracket.closing :: rest) = none →
      Step name (.searching bracket ⟨[], previous, bracket.closing :: rest⟩)
        (.scanning (some bracket.closing) rest)

/-- The cursor gets somewhere in a scan of a source text. -/
def Reaches (name source : List Char) : Cursor → Prop :=
  Relation.ReflTransGen (Step name) (.scanning none source)

variable {name : List Char} {cursor other : Cursor}

theorem Step.suffix (step : Step name cursor other) : other.rest <:+ cursor.rest := by
  cases step with
  | skip skipped => exact Literal.after?_suffix skipped
  | code | leave => exact List.suffix_cons _ _
  | enter _ opened =>
      obtain ⟨path, before, behind, -, -, whole⟩ := Site.exists_head_of_open? opened
      exact ⟨_, by rw [← List.append_cons]; exact whole.symm⟩
  | search step => exact step.suffix

theorem Step.length_lt (step : Step name cursor other) :
    other.rest.length < cursor.rest.length := by
  cases step with
  | skip skipped => exact Literal.after?_length_lt skipped
  | code | leave => exact Nat.lt_succ_self _
  | enter _ opened => exact Site.open?_length_lt opened
  | search step => exact step.length_lt

theorem step_rightUnique : Relator.RightUnique (Step name) := by
  intro cursor first second one two
  cases one with
  | skip skipped =>
      cases two with
      | skip again =>
          rw [skipped] at again
          obtain rfl := Option.some.inj again
          rfl
      | code code | enter code => simp [skipped] at code
  | code code unopened =>
      cases two with
      | skip skipped => simp [code] at skipped
      | code => rfl
      | enter _ opened => simp [unopened] at opened
  | enter code opened =>
      cases two with
      | skip skipped => simp [code] at skipped
      | code _ unopened => simp [opened] at unopened
      | enter _ again =>
          rw [opened] at again
          obtain ⟨rfl, rfl⟩ := Prod.mk.inj (Option.some.inj again)
          rfl
  | search one =>
      cases two with
      | search two => rw [Search.step_rightUnique one two]
      | leave code =>
          cases one with
          | skip skipped => simp [code] at skipped
          | enter _ opens => simp [Bracket.ofOpening?_closing] at opens
          | pass _ _ closes => exact absurd closes (Bracket.ofClosing?_closing _)
  | leave code =>
      cases two with
      | search two =>
          cases two with
          | skip skipped => simp [code] at skipped
          | enter _ opens => simp [Bracket.ofOpening?_closing] at opens
          | pass _ _ closes => exact absurd closes (Bracket.ofClosing?_closing _)
      | leave => rfl

/-- A move that ends before a cut of the text is a move in the text before the cut. -/
theorem Step.of_append {text rest more : List Char} (step : Step name cursor other)
    (before : cursor.rest = text ++ more) (after : other.rest = rest ++ more) :
    Step name (cursor.withRest text) (other.withRest rest) := by
  cases step with
  | @skip previous _ _ skipped =>
      simp only [Cursor.rest] at before after
      rw [before, after] at skipped
      rw [withRest, withRest, before, after, lastBefore_append]
      exact .skip ((Literal.after?_isLocal previous).some_of_append skipped)
  | @code previous first tail code unopened =>
      simp only [Cursor.rest] at before after
      rw [before] at code unopened
      obtain rfl := Search.eq_cons_of_append before after
      exact .code ((Literal.after?_isLocal previous).none_of_append code)
        (Site.open?_none_of_append unopened)
  | @enter previous bracket tail inside code opened =>
      simp only [Cursor.rest] at before after
      rw [before] at code opened
      rw [after] at opened
      exact .enter ((Literal.after?_isLocal previous).none_of_append code)
        (Site.open?_some_of_append opened)
  | search step => exact .search (step.of_append before after)
  | @leave bracket previous tail code =>
      simp only [Cursor.rest] at before after
      rw [before] at code
      obtain rfl := Search.eq_cons_of_append before after
      exact .leave ((Literal.after?_isLocal previous).none_of_append code)

/-! ### The way through the front part of a text -/

theorem suffix_of_steps (steps : Relation.ReflTransGen (Step name) cursor other) :
    other.rest <:+ cursor.rest := by
  induction steps with
  | refl => exact List.suffix_refl _
  | tail _ step ih => exact step.suffix.trans ih

theorem steps_of_append {text rest more : List Char}
    (steps : Relation.ReflTransGen (Step name) cursor other)
    (before : cursor.rest = text ++ more) (after : other.rest = rest ++ more) :
    Relation.ReflTransGen (Step name) (cursor.withRest text) (other.withRest rest) := by
  induction steps using Relation.ReflTransGen.head_induction_on generalizing text with
  | refl =>
      obtain rfl := List.append_cancel_right (before.symm.trans after)
      exact .refl
  | head step later ih =>
      obtain ⟨passed, split⟩ := suffix_of_steps later
      rw [after, ← List.append_assoc] at split
      exact .head (step.of_append before split.symm) (ih split.symm)

/-- The cursor cannot move at the end of the text. -/
theorem eq_of_steps_of_rest_eq_nil (steps : Relation.ReflTransGen (Step name) cursor other)
    (ended : cursor.rest = []) : other = cursor := by
  cases steps using Relation.ReflTransGen.head_induction_on with
  | refl => rfl
  | head step later =>
      have shorter := step.length_lt
      simp [ended] at shorter

/-- How a cursor gets to a place does not depend on the text from there on. -/
theorem Reaches.withRest_eq {front more others : List Char}
    (reached : Reaches name (front ++ more) cursor) (atMore : cursor.rest = more)
    (otherReached : Reaches name (front ++ others) other) (atOthers : other.rest = others) :
    other = cursor.withRest others := by
  have first := steps_of_append reached rfl (atMore.trans (List.nil_append _).symm)
  have second := steps_of_append otherReached rfl (atOthers.trans (List.nil_append _).symm)
  have ends : ∀ cursor : Cursor, (cursor.withRest []).rest = [] := by
    intro cursor
    cases cursor <;> rfl
  have same : other.withRest [] = cursor.withRest [] := by
    rcases Relation.ReflTransGen.total_of_right_unique step_rightUnique first second with
      later | later
    · exact eq_of_steps_of_rest_eq_nil later (ends cursor)
    · exact (eq_of_steps_of_rest_eq_nil later (ends other)).symm
  subst atOthers
  cases cursor with
  | scanning previous text =>
      cases other with
      | scanning otherPrevious otherText =>
          obtain ⟨rfl, -⟩ := Cursor.scanning.inj same
          rfl
      | searching bracket search => simp [withRest] at same
  | searching bracket search =>
      cases other with
      | scanning otherPrevious otherText => simp [withRest] at same
      | searching otherBracket otherSearch =>
          obtain ⟨nested, previous, rest⟩ := search
          obtain ⟨otherNested, otherPrevious, otherRest⟩ := otherSearch
          simp only [withRest, Search.withRest, Cursor.searching.injEq, Search.mk.injEq] at same
          obtain ⟨rfl, rfl, rfl, -⟩ := same
          rfl

end Cursor

/-! ### Where a cursor stands -/

/-- A site that is open in a source behind some segments. -/
structure Site.OpensIn (name source : List Char) (before : List Segment) (head : List Char)
    (bracket : Bracket) (inside : List Char) : Prop where
  source_eq : source = before.flatMap Segment.text ++ (head ++ bracket.opening :: inside)
  cuts : Segment.CutTo name (head ++ bracket.opening :: inside) none before
  code : Literal.after? (Segment.lastBefore none before) (head ++ bracket.opening :: inside) = none
  opened : Site.open? name (Segment.lastBefore none before) (head ++ bracket.opening :: inside) =
    some (bracket, inside)

namespace Site.OpensIn

variable {name source head arguments passed rest more : List Char} {before : List Segment}
variable {bracket : Bracket}

theorem text_append (head arguments rest : List Char) (bracket : Bracket) :
    (Site.mk head bracket arguments).text ++ rest =
      head ++ bracket.opening :: (arguments ++ bracket.closing :: rest) := by
  simp [Site.text]

/-- An open site whose closing delimiter is found is a segment more. -/
theorem cutBefore (opens : OpensIn name source before head bracket
      (arguments ++ bracket.closing :: rest))
    (closed : close bracket [] (some bracket.opening) (arguments ++ bracket.closing :: rest) =
      .ok (bracket.closing :: rest)) :
    (Segment.site ⟨head, bracket, arguments⟩).CutBefore name (Segment.lastBefore none before)
      rest := by
  refine ⟨?_, ?_, closed⟩
  · rw [text_append]
    exact opens.code
  · rw [text_append]
    exact opens.opened

theorem of_append (opens : OpensIn name (source ++ more) before head bracket (passed ++ more)) :
    OpensIn name source before head bracket passed := by
  obtain ⟨whole, cuts, code, opened⟩ := opens
  have split : source ++ more =
      (before.flatMap Segment.text ++ (head ++ bracket.opening :: passed)) ++ more := by
    simp [whole]
  rw [← List.cons_append, ← List.append_assoc] at cuts code opened
  exact ⟨List.append_cancel_right split, cuts.of_append,
    (Literal.after?_isLocal _).none_of_append code, open?_some_of_append opened⟩

theorem broken (opens : OpensIn name source before head bracket passed) {fault : Delimiter.Fault}
    (failed : close bracket [] (some bracket.opening) passed = .error fault) :
    Site.Broken name (Segment.lastBefore none before) (head ++ bracket.opening :: passed) :=
  ⟨opens.code, bracket, passed, fault, opens.opened, failed⟩

/-- A source has at most one open site that is never closed. -/
theorem unique (opens : OpensIn name source before head bracket passed) {fault : Delimiter.Fault}
    (failed : close bracket [] (some bracket.opening) passed = .error fault)
    {others : List Segment} {otherHead otherPassed : List Char} {otherBracket : Bracket}
    (otherOpens : OpensIn name source others otherHead otherBracket otherPassed)
    {otherFault : Delimiter.Fault}
    (otherFailed : close otherBracket [] (some otherBracket.opening) otherPassed =
      .error otherFault) :
    before = others ∧ head = otherHead ∧ bracket = otherBracket ∧ passed = otherPassed := by
  obtain ⟨rfl, same⟩ := opens.cuts.unique_of_broken otherOpens.cuts
    (opens.source_eq.symm.trans otherOpens.source_eq) (opens.broken failed)
    (otherOpens.broken otherFailed)
  have opened := opens.opened
  rw [same, otherOpens.opened] at opened
  obtain ⟨rfl, rfl⟩ := Prod.mk.inj (Option.some.inj opened)
  exact ⟨rfl, List.append_cancel_right same, rfl, rfl⟩

end Site.OpensIn

namespace Cursor

/-- A cursor stands behind some segments, or behind some segments inside a site whose search has
walked to it. -/
inductive Stands (name source : List Char) : Cursor → Prop
  | between {before : List Segment} {rest : List Char} :
      source = before.flatMap Segment.text ++ rest → Segment.CutTo name rest none before →
      Stands name source (.scanning (Segment.lastBefore none before) rest)
  | inside {before : List Segment} {head passed : List Char} {bracket : Bracket}
      {search : Search} :
      Site.OpensIn name source before head bracket (passed ++ search.rest) →
      Search.Walk ⟨[], some bracket.opening, passed ++ search.rest⟩ search →
      Stands name source (.searching bracket search)

variable {name source : List Char}

/-- Behind one more segment the cursor stands between segments again. -/
theorem Stands.concat {before : List Segment} {segment : Segment} {rest : List Char}
    (whole : source = before.flatMap Segment.text ++ (segment.text ++ rest))
    (cuts : Segment.CutTo name (segment.text ++ rest) none before)
    (cut : segment.CutBefore name (Segment.lastBefore none before) rest) :
    Stands name source (.scanning segment.text.getLast? rest) := by
  have nonempty := Segment.text_ne_nil_of_cutBefore cut
  rw [← @Segment.lastBefore_concat none before segment nonempty]
  apply Stands.between
  · rw [whole, List.flatMap_append, List.flatMap_singleton, List.append_assoc]
  · exact cuts.concat cut

theorem Stands.step {cursor other : Cursor} (stands : Stands name source cursor)
    (step : Step name cursor other) : Stands name source other := by
  cases step with
  | @skip _ _ after skipped =>
      cases stands with
      | @between before _ whole cuts =>
          obtain ⟨passed, rfl⟩ := Literal.after?_suffix skipped
          have nonempty : passed ≠ [] := by
            rintro rfl
            exact Nat.lt_irrefl _ (Literal.after?_length_lt skipped)
          rw [lastBefore_append_self]
          exact @Stands.concat _ _ _ (.literal passed) _ whole cuts ⟨nonempty, skipped⟩
  | @code _ first rest code unopened =>
      cases stands with
      | between whole cuts =>
          exact @Stands.concat _ _ _ (.code first) _ whole cuts ⟨code, unopened⟩
  | @enter _ bracket _ inside code opened =>
      cases stands with
      | between whole cuts =>
          obtain ⟨path, before, behind, -, -, rfl⟩ := Site.exists_head_of_open? opened
          exact @Stands.inside _ _ _ _ [] _ _ ⟨whole, cuts, code, opened⟩ .refl
  | search step =>
      cases stands with
      | @inside before head passed bracket search opens walk =>
          obtain ⟨more, split⟩ := step.suffix
          rw [← split, ← List.append_assoc] at opens walk
          exact .inside opens (walk.tail step)
  | @leave bracket previous rest code =>
      cases stands with
      | @inside before head passed _ _ opens walk =>
          have closed : close bracket [] (some bracket.opening)
              (passed ++ bracket.closing :: rest) = .ok (bracket.closing :: rest) :=
            (walk.close_eq bracket []).trans (close_last code)
          have whole := opens.source_eq
          have cuts := opens.cuts
          simp only at whole cuts
          rw [← Site.OpensIn.text_append] at whole cuts
          have last : (Segment.site ⟨head, bracket, passed⟩).text.getLast? =
              some bracket.closing := List.getLast?_concat
          rw [← last]
          exact Stands.concat whole cuts (opens.cutBefore closed)

theorem Reaches.stands {cursor : Cursor} (reached : Reaches name source cursor) :
    Stands name source cursor := by
  induction reached with
  | refl => exact @Stands.between _ _ [] source rfl trivial
  | tail _ step ih => exact ih.step step

theorem Stands.exists_between {previous : Option Char} {rest : List Char}
    (stands : Stands name source (.scanning previous rest)) :
    ∃ before, source = before.flatMap Segment.text ++ rest ∧
      Segment.CutTo name rest none before ∧ previous = Segment.lastBefore none before := by
  cases stands with
  | between whole cuts => exact ⟨_, whole, cuts, rfl⟩

theorem Stands.exists_inside {bracket : Bracket} {search : Search}
    (stands : Stands name source (.searching bracket search)) :
    ∃ before head passed,
      Site.OpensIn name source before head bracket (passed ++ search.rest) ∧
      Search.Walk ⟨[], some bracket.opening, passed ++ search.rest⟩ search := by
  cases stands with
  | inside opens walk => exact ⟨_, _, _, opens, walk⟩

end Cursor

end ClosureCapture
