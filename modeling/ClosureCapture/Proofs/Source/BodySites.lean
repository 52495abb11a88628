import ClosureCapture.Proofs.Site.Boundaries
import ClosureCapture.Proofs.Source.Inlay

/-!
# Sites in the body of a capture list

The sites inside the arguments of a site are replaced first, as text, and the capture list is read
from the result.  This file proves that sites in the body do not disturb the clauses: these are
read as before, with their offsets, and the body starts where it did.

There is one exception.  A slash that stands next to a site can meet a slash or a star of what the
site becomes, and the two open a comment where the code of the body started.  When that comment
takes the rest of the body with it, the list has no body any more.
-/

namespace ClosureCapture

namespace Comment

theorem exists_mark_of_skip_eq_nil {first : Char} {rest : List Char}
    (visible : Text.isBlank first = false) (nothing : skip (first :: rest) = []) :
    first = '/' ∧ ∃ mark more, rest = mark :: more ∧ (mark = '/' ∨ mark = '*') := by
  cases found : after? (first :: rest) with
  | none =>
      rw [skip_of_visible visible found] at nothing
      simp at nothing
  | some remaining =>
      unfold after? at found
      split at found
      · next same =>
          obtain ⟨rfl, rfl⟩ := List.cons.inj same
          exact ⟨rfl, _, _, rfl, .inl rfl⟩
      · next same =>
          obtain ⟨rfl, rfl⟩ := List.cons.inj same
          exact ⟨rfl, _, _, rfl, .inr rfl⟩
      · simp at found

theorem after?_slash_ne_none {mark : Char} (isMark : mark = '/' ∨ mark = '*') (more : List Char) :
    after? ('/' :: mark :: more) ≠ none := by
  rcases isMark with rfl | rfl <;> simp [after?]

end Comment

theorem Literal.after?_of_slash (previous : Option Char) {rest : List Char}
    (noComment : Comment.after? ('/' :: rest) = none) : after? previous ('/' :: rest) = none := by
  simp [after?, noComment, afterLiteral?, afterQuoted?]

namespace Segment

variable {settings : Settings} {name : String} {segments : List Segment} {text : List Char}
  {previous : Option Char}

/-- What segments become starts as they do, unless a site stands first. -/
theorem BecomeAll.head_cases (become : BecomeAll settings segments text)
    (cuts : CutTo name.toList [] previous segments) :
    text.head? = (segments.flatMap Segment.text).head? ∨
      ∃ call others piece, segments = .site call :: others ∧
        (Segment.site call).Becomes settings piece ∧ (∃ rest, text = piece ++ rest) ∧
        call.ClosedBefore name.toList previous (others.flatMap Segment.text) := by
  cases become with
  | nil => exact .inl rfl
  | @cons segment others piece rest becomes _ =>
      obtain ⟨cut, -⟩ := cuts
      rw [List.append_nil] at cut
      cases segment with
      | code | literal =>
          have stays : piece = Segment.text _ := becomes
          have nonempty := text_ne_nil_of_cutBefore cut
          left
          rw [stays, List.flatMap_cons, List.head?_append_of_ne_nil _ nonempty,
            List.head?_append_of_ne_nil _ nonempty]
      | site call => exact .inr ⟨call, others, piece, rfl, becomes, ⟨rest, rfl⟩, cut⟩

/-- Behind `in` no site starts, so that no part of a word comes to stand there. -/
theorem BecomeAll.isWord_head (become : BecomeAll settings segments text)
    (cuts : CutTo name.toList [] (some 'n') segments)
    (ends : ∀ next ∈ (segments.flatMap Segment.text).head?, Text.isWord next = false) :
    ∀ next ∈ text.head?, Text.isWord next = false := by
  rcases become.head_cases cuts with same | ⟨call, others, piece, -, -, -, closedBefore⟩
  · rwa [same]
  · have follows := Site.mayFollow_of_open? closedBefore.opened
    exact absurd follows (by decide)

/-- A visible character stays visible when it is the start of a site. -/
theorem BecomeAll.isBlank_head (usable : settings.Usable name)
    (become : BecomeAll settings segments text)
    (cuts : CutTo name.toList [] previous segments)
    (visible : ∀ first ∈ (segments.flatMap Segment.text).head?, Text.isBlank first = false) :
    ∀ first ∈ text.head?, Text.isBlank first = false := by
  rcases become.head_cases cuts with
    same | ⟨call, others, piece, -, becomes, ⟨rest, rfl⟩, closedBefore⟩
  · rwa [same]
  · obtain ⟨first, tail, rfl, visibleFirst⟩ := (becomes.isInlay usable closedBefore).head
    simpa using visibleFirst

/-- In what segments become, a comment opens behind a front and the blanks and comments that follow
it, and its first two characters meet at an edge of what stands in place of a site. -/
def Joins (settings : Settings) (segments : List Segment) (front text : List Char) : Prop :=
  ∃ before call later piece spacers mark more,
    segments = before ++ .site call :: later ∧ (Segment.site call).Becomes settings piece ∧
    (mark = '/' ∨ mark = '*') ∧ text = front ++ (Spacer.run spacers ++ '/' :: mark :: more) ∧
    (front ++ (Spacer.run spacers ++ ['/']) = before.flatMap Segment.text ∨
      front ++ (Spacer.run spacers ++ ['/']) = before.flatMap Segment.text ++ piece)

theorem Joins.of_run {front : List Char} {spacers : List Spacer}
    (joins : Joins settings segments (front ++ Spacer.run spacers) text) :
    Joins settings segments front text := by
  obtain ⟨before, call, later, piece, others, mark, more, split, becomes, isMark, rfl, edge⟩ :=
    joins
  refine ⟨before, call, later, piece, spacers ++ others, mark, more, split, becomes, isMark, ?_, ?_⟩
  · simp [Spacer.run_append]
  · simpa [Spacer.run_append] using edge

theorem Joins.behind {front : List Char} (joins : Joins settings segments front text)
    (earlier : List Segment) :
    Joins settings (earlier ++ segments) (earlier.flatMap Segment.text ++ front)
      (earlier.flatMap Segment.text ++ text) := by
  obtain ⟨before, call, later, piece, spacers, mark, more, rfl, becomes, isMark, rfl, edge⟩ := joins
  refine ⟨earlier ++ before, call, later, piece, spacers, mark, more, by simp, becomes, isMark,
    by simp, ?_⟩
  rw [List.flatMap_append, List.append_assoc, List.append_assoc, List.append_cancel_left_eq,
    List.append_cancel_left_eq]
  exact edge

/-- If nothing but comments is left where code stood, a comment opens at an edge of what stands in
place of a site. -/
theorem BecomeAll.joins (usable : settings.Usable name)
    (become : BecomeAll settings segments text) (cuts : CutTo name.toList [] previous segments)
    {first : Char} {later : List Char} (whole : segments.flatMap Segment.text = first :: later)
    (visible : Text.isBlank first = false) (noComment : Comment.after? (first :: later) = none)
    (nothing : Comment.skip text = []) : Joins settings segments [] text := by
  cases become with
  | nil => simp at whole
  | @cons segment others piece rest becomes become =>
      obtain ⟨cut, cuts⟩ := cuts
      rw [List.flatMap_cons] at whole
      cases segment with
      | code character =>
          obtain rfl := becomes
          obtain ⟨rfl, rfl⟩ := List.cons.inj whole
          obtain ⟨rfl, mark, more, rfl, isMark⟩ :=
            Comment.exists_mark_of_skip_eq_nil visible nothing
          rcases become.head_cases cuts with same | ⟨call, others, piece, rfl, becomes, -, -⟩
          · obtain ⟨tail, split⟩ := List.head?_eq_some_iff.1 same.symm
            rw [split] at noComment
            exact absurd noComment (Comment.after?_slash_ne_none isMark tail)
          · exact ⟨[.code '/'], call, others, piece, [], mark, more, rfl, becomes, isMark, rfl,
              .inl rfl⟩
      | literal passed =>
          obtain rfl : piece = passed := becomes
          obtain ⟨head, tail, rfl⟩ := List.exists_cons_of_ne_nil cut.1
          obtain ⟨rfl, -⟩ := List.cons.inj whole
          obtain ⟨rfl, -⟩ := Comment.exists_mark_of_skip_eq_nil visible nothing
          have code := Literal.after?_of_slash previous noComment
          rw [← whole] at code
          have skipped := cut.2
          rw [List.append_nil] at skipped
          exact nomatch code.symm.trans skipped
      | site call =>
          have isInlay := becomes.isInlay usable cut
          rcases Comment.exists_run_of_skip piece with
            ⟨spacers, head, tail, rfl, visibleHead, noCommentHead⟩ | spacing
          · rw [List.append_assoc, Comment.skip_run] at nothing
            obtain ⟨rfl, mark, more, split, isMark⟩ :=
              Comment.exists_mark_of_skip_eq_nil visibleHead nothing
            cases tail with
            | cons second tail =>
                obtain ⟨rfl, -⟩ := List.cons.inj split
                exact absurd noCommentHead (Comment.after?_slash_ne_none isMark tail)
            | nil =>
                obtain rfl : rest = mark :: more := split
                exact ⟨[], call, others, _, spacers, mark, more, rfl, becomes, isMark, by simp,
                  .inr rfl⟩
          · exact absurd spacing isInlay.content

/-- The segments of a capture list are split where the text before its body ends, if no site starts
before. -/
theorem exists_split_of_region {region after : List Char} {tokens : List Token}
    (isRegion : Token.IsRegion 0 region tokens)
    (scanned : scan name.toList (region ++ after) = .ok segments)
    (late : ∀ invocation ∈ Invocation.ofSegments 0 1 segments,
      region.length ≤ invocation.start) :
    ∃ front others, segments = front ++ others ∧ front.flatMap Segment.text = region ∧
      others.flatMap Segment.text = after ∧ (∀ call, .site call ∉ front) ∧
      CutTo name.toList [] (some 'n') others := by
  obtain ⟨whole, cuts⟩ := scanFrom_eq_ok_iff.1 scanned
  have behindRegion : ∀ before call later, segments = before ++ .site call :: later →
      (call.text ++ later.flatMap Segment.text).length ≤ after.length := by
    rintro before call later rfl
    have starts := late _ (Invocation.mem_ofSegments_append 0 1 before call later)
    have lengths := congrArg List.length whole
    simp only [List.flatMap_append, List.flatMap_cons, List.length_append, Segment.text]
      at lengths starts ⊢
    omega
  obtain ⟨front, others, rfl, behind, siteless⟩ :=
    exists_split_of_walk (isRegion.passes after [] none) cuts whole behindRegion
  have front_eq : front.flatMap Segment.text = region := by
    rw [List.flatMap_append, behind] at whole
    exact List.append_cancel_right whole.symm
  have last : lastBefore none front = some 'n' := by
    rw [lastBefore, front_eq, isRegion.getLast?_eq]
    rfl
  exact ⟨front, others, rfl, front_eq, behind, siteless, last ▸ cuts.split.2⟩

/-- What a body becomes starts with the blanks before the body, then with no blank.  If nothing but
comments is left of it, a comment opens at an edge of what stands in place of a site. -/
theorem BecomeAll.exists_inside (usable : settings.Usable name)
    (become : BecomeAll settings segments text) (cuts : CutTo name.toList [] previous segments)
    {blanks inside : List Char} (whole : segments.flatMap Segment.text = blanks ++ inside)
    (allBlank : ∀ blank ∈ blanks, Text.isBlank blank = true)
    (visible : ∀ first ∈ inside.head?, Text.isBlank first = false)
    (content : ¬ OnlySpacing inside) :
    ∃ other, text = blanks ++ other ∧ (∀ first ∈ other.head?, Text.isBlank first = false) ∧
      (OnlySpacing other → Joins settings segments blanks text) := by
  obtain ⟨spacers, first, later, rfl, visibleFirst, noComment⟩ :=
    (Comment.exists_run_of_skip inside).resolve_right content
  obtain ⟨lead, run⟩ := Spacer.exists_run_eq_blanks allBlank
  have spaced : segments.flatMap Segment.text =
      Spacer.run (lead ++ spacers) ++ first :: later := by
    rw [whole, Spacer.run_append, run, List.append_assoc]
  obtain ⟨front, others, rfl, front_eq, siteless⟩ :=
    exists_split_of_run usable.isName (lead ++ spacers) cuts spaced
  obtain ⟨rest, rfl, behind⟩ := become.exists_behind siteless
  have others_eq : others.flatMap Segment.text = first :: later := by
    rw [List.flatMap_append, front_eq] at spaced
    exact List.append_cancel_left spaced
  rw [Spacer.run_append, run] at front_eq
  refine ⟨Spacer.run spacers ++ rest, by rw [front_eq, List.append_assoc], ?_, ?_⟩
  · have visibleRest := behind.isBlank_head usable cuts.split.2
      (by simpa [others_eq] using visibleFirst)
    cases spelled : Spacer.run spacers with
    | nil => exact visibleRest
    | cons character characters => simpa [spelled] using visible
  · intro spacing
    rw [← Comment.skip_eq_nil_iff, Comment.skip_run] at spacing
    have joins := (behind.joins usable cuts.split.2 others_eq visibleFirst noComment
      spacing).behind front
    rw [List.append_nil, front_eq] at joins
    rw [front_eq]
    exact joins.of_run

end Segment

/-! ### Reading the list behind the replacement -/

/-- Blanks and a text that can follow `in`: together they do not go on a word, and the text starts
with no blank and ends in no comma. -/
structure IsTail (blanks inside : List Char) : Prop where
  isBlank_blanks : ∀ blank ∈ blanks, Text.isBlank blank = true
  isBlank_head : ∀ first ∈ inside.head?, Text.isBlank first = false
  isWord_head : ∀ next ∈ (blanks ++ inside).head?, Text.isWord next = false
  last : Text.lastVisible inside ≠ some ','

namespace IsTail

variable {blanks inside : List Char}

theorem onlySpacing_iff (tail : IsTail blanks inside) :
    OnlySpacing (blanks ++ inside) ↔ OnlySpacing inside := by
  obtain ⟨spacers, rfl⟩ := Spacer.exists_run_eq_blanks tail.isBlank_blanks
  rw [← Comment.skip_eq_nil_iff, Comment.skip_run, Comment.skip_eq_nil_iff]

theorem scanBody_eq (tail : IsTail blanks inside) (content : ¬ OnlySpacing inside)
    (offset : Nat) :
    Token.scanBody offset (blanks ++ inside) =
      [⟨.body, String.ofList (Text.trimEnd inside), offset + blanks.length⟩] := by
  have taken : (blanks ++ inside).takeWhile Text.isBlank = blanks := by
    rw [List.takeWhile_append_of_pos tail.isBlank_blanks]
    cases inside with
    | nil => simp
    | cons first rest => simp [tail.isBlank_head first rfl]
  have trimmed : Text.trimStart (blanks ++ inside) = inside := by
    have split := @List.takeWhile_append_dropWhile _ Text.isBlank (blanks ++ inside)
    rw [taken] at split
    exact List.append_cancel_left split
  rw [Token.scanBody_of_content (tail.onlySpacing_iff.not.2 content), Text.trim, trimmed, taken]

end IsTail

namespace CaptureList

/-- The parts of a text from which a list was read. -/
theorem exists_isTail_of_parse {text : List Char} {list : CaptureList String}
    (parsed : parse text = .ok list) :
    ∃ region tokens blanks inside, text = region ++ (blanks ++ inside) ∧
      Token.IsRegion 0 region tokens ∧ IsTail blanks inside ∧ ¬ OnlySpacing inside ∧
      list.bodyOffset = some (region.length + blanks.length) := by
  obtain ⟨region, after, tokens, place, rfl, isRegion, ends, placed, found⟩ :=
    exists_region_of_parse parsed
  have content := Token.content_of_mem_scanBody found
  rw [Token.scanBody_of_content content, List.mem_singleton, Token.mk.injEq] at found
  obtain ⟨-, body_eq, rfl⟩ := found
  have split : after = after.takeWhile Text.isBlank ++ Text.trimStart after :=
    List.takeWhile_append_dropWhile.symm
  have tail : IsTail (after.takeWhile Text.isBlank) (Text.trimStart after) := by
    refine ⟨List.all_eq_true.1 List.all_takeWhile, ?_, split ▸ ends, ?_⟩
    · intro first isFirst
      have stops := List.head?_dropWhile_not Text.isBlank after
      rw [← Text.trimStart, isFirst] at stops
      simpa using stops
    · have last := getLast?_body_of_parse parsed
      rwa [body_eq, String.toList_ofList, Text.trim, Text.getLast?_trimEnd] at last
  refine ⟨region, tokens, _, _, by rw [← split], isRegion, tail, ?_, placed⟩
  rw [← tail.onlySpacing_iff, ← split]
  exact content

/-- The list that is read when another text stands in place of the body. -/
theorem parse_append_body {region blanks inside : List Char} {tokens : List Token}
    {list : CaptureList String} (isRegion : Token.IsRegion 0 region tokens)
    (tail : IsTail blanks inside) (content : ¬ OnlySpacing inside)
    (parsed : parse (region ++ (blanks ++ inside)) = .ok list) {other : List Char}
    (otherTail : IsTail blanks other) :
    (¬ OnlySpacing other → parse (region ++ (blanks ++ other)) = .ok ⟨list.clauses,
        String.ofList (Text.trimEnd other), some (region.length + blanks.length)⟩) ∧
    (OnlySpacing other → ∃ offset,
      parse (region ++ (blanks ++ other)) = .error ⟨.expectedBody, offset⟩) := by
  obtain ⟨terminal, reads⟩ := parse_append_of_region isRegion tail.isWord_head
    (by rw [tail.scanBody_eq content]; exact List.mem_singleton_self _) parsed
  rw [reads _ otherTail.isWord_head]
  constructor
  · intro contentOther
    have read : readBody terminal (Token.scanBody region.length (blanks ++ other)) =
        .ok (String.ofList (Text.trimEnd other), region.length + blanks.length) := by
      rw [otherTail.scanBody_eq contentOther, readBody_eq_ok_iff]
      refine ⟨[], rfl, ?_⟩
      rw [String.toList_ofList, Text.getLast?_trimEnd]
      exact otherTail.last
    rw [read]
    rfl
  · intro spacing
    rw [Token.scanBody_of_spacing (otherTail.onlySpacing_iff.2 spacing)]
    exact ⟨terminal.offset, rfl⟩

end CaptureList

/-- In what a text becomes, a comment opens behind the blanks and comments from a place on, and its
first two characters meet at an edge of what stands in place of a site. -/
def Settings.JoinsComment (settings : Settings) (name text : List Char) (place : Nat)
    (rewritten : List Char) : Prop :=
  ∃ (before : List Segment) (call : Site) (behind : List Char) (part : SourceExpansion)
    (spacers : List Spacer) (mark : Char) (more : List Char),
    call.StandsIn name text before behind ∧ settings.expandSource call.text = .ok part ∧
    (mark = '/' ∨ mark = '*') ∧
    rewritten = text.take place ++ (Spacer.run spacers ++ '/' :: mark :: more) ∧
    (text.take place ++ (Spacer.run spacers ++ ['/']) = before.flatMap Segment.text ∨
      text.take place ++ (Spacer.run spacers ++ ['/']) =
        before.flatMap Segment.text ++ part.text)

theorem Segment.Joins.joinsComment {settings : Settings} {name : List Char}
    {segments : List Segment} {front text source : List Char}
    (joins : Joins settings segments front text) (cuts : CutTo name [] none segments)
    (whole : source = segments.flatMap Segment.text) (starts : front <+: source) :
    settings.JoinsComment name source front.length text := by
  obtain ⟨before, call, later, piece, spacers, mark, more, rfl, ⟨part, alone, rfl⟩, isMark, rfl,
    edge⟩ := joins
  obtain ⟨cutsBefore, closedBefore⟩ := cuts.around
  have taken : source.take front.length = front := List.prefix_iff_eq_take.1 starts |>.symm
  have stands : call.StandsIn name source before (later.flatMap Segment.text) := by
    refine ⟨?_, ?_, ?_⟩
    · simp [whole, Segment.text]
    · simpa [Segment.text] using cutsBefore
    · rw [List.append_nil] at closedBefore
      exact closedBefore
  refine ⟨before, call, later.flatMap Segment.text, part, spacers, mark, more, stands, alone,
    isMark, ?_, ?_⟩
  · rw [taken]
  · rw [taken]
    exact edge

namespace Settings.Usable

variable {settings : Settings} {name : String}

/-- A body whose sites are replaced starts at the same place, ends in no comma, and has code in it
unless a comment is joined together. -/
theorem exists_body (usable : settings.Usable name) {region blanks inside : List Char}
    {tokens : List Token} (isRegion : Token.IsRegion 0 region tokens)
    (tail : IsTail blanks inside) (content : ¬ OnlySpacing inside)
    (late : ∀ invocations,
      Invocation.find name.toList (region ++ (blanks ++ inside)) = .ok invocations →
      ∀ invocation ∈ invocations, region.length + blanks.length ≤ invocation.start) :
    ∃ rewritten other, settings.expandSource (region ++ (blanks ++ inside)) = .ok rewritten ∧
      rewritten.text = region ++ (blanks ++ other) ∧ IsTail blanks other ∧
      (OnlySpacing other → settings.JoinsComment name.toList (region ++ (blanks ++ inside))
        (region.length + blanks.length) rewritten.text) := by
  cases scanned : Segment.scan name.toList (region ++ (blanks ++ inside)) with
  | error fault =>
      refine ⟨_, inside, usable.expandSource (SourceExpansion.ofText_of_fault scanned 1), rfl,
        tail, ?_⟩
      intro spacing
      exact absurd spacing content
  | ok segments =>
  obtain ⟨whole, cuts⟩ := Segment.scanFrom_eq_ok_iff.1 scanned
  have closed : ∀ call, .site call ∈ segments →
      ∃ previous rest, call.ClosedBefore name.toList previous rest :=
    fun call member => Segment.exists_closedBefore_of_mem cuts member
  obtain ⟨expansion, expanded⟩ :=
    SourceExpansion.exists_ofText usable 1 (region ++ (blanks ++ inside))
  have expandedAll := usable.expandSource expanded
  rw [SourceExpansion.ofText_of_scan scanned] at expanded
  have become : Segment.BecomeAll settings segments expansion.text :=
    Segment.becomeAll_of_ofSegments usable closed
      (show SourceExpansion.ofSegments settings name.toList (1 + 0) segments = _ from expanded)
  obtain ⟨front, others, rfl, front_eq, others_eq, siteless, cutsOthers⟩ :=
    Segment.exists_split_of_region isRegion scanned fun invocation member =>
      Nat.le_of_add_right_le
        (late _ (Invocation.find_eq_ok_iff.2 ⟨segments, scanned, rfl⟩) invocation member)
  obtain ⟨body, text_eq, becomeOthers⟩ := become.exists_behind siteless
  obtain ⟨other, rfl, visibleOther, joins⟩ :=
    becomeOthers.exists_inside usable cutsOthers others_eq tail.isBlank_blanks tail.isBlank_head
      content
  refine ⟨_, other, expandedAll, by rw [text_eq, front_eq],
    ⟨tail.isBlank_blanks, visibleOther, ?_, ?_⟩, ?_⟩
  · apply becomeOthers.isWord_head cutsOthers
    rw [others_eq]
    exact tail.isWord_head
  · intro comma
    have replaced := (becomeOthers.lastVisible usable
      fun call member => closed call (List.mem_append_right _ member)).2
    rw [others_eq, Text.lastVisible_blanks_append tail.isBlank_blanks,
      Text.lastVisible_blanks_append tail.isBlank_blanks] at replaced
    exact tail.last (replaced comma)
  · intro spacing
    have joined := ((joins spacing).behind front).joinsComment cuts whole
      (by rw [whole, List.flatMap_append, others_eq]; simp)
    rwa [← text_eq, List.length_append, front_eq] at joined

/-- Sites in the body of a capture list are replaced without a change to the text before the body.
If more than blanks and comments is left from there on, the same clauses are read at the same
offsets, and the body is what is left without the blanks at its end.  Otherwise there is no body,
and a comment was joined together at an edge of what stands in place of a site. -/
theorem parse_expanded_body (usable : settings.Usable name) {text : List Char}
    {list : CaptureList String} {place : Nat} (parsed : CaptureList.parse text = .ok list)
    (placed : list.bodyOffset = some place)
    (late : ∀ invocations, Invocation.find name.toList text = .ok invocations →
      ∀ invocation ∈ invocations, place ≤ invocation.start) :
    ∃ rewritten, settings.expandSource text = .ok rewritten ∧
      rewritten.text.take place = text.take place ∧
      (¬ OnlySpacing (rewritten.text.drop place) →
        CaptureList.parse rewritten.text = .ok ⟨list.clauses,
          String.ofList (Text.trimEnd (rewritten.text.drop place)), some place⟩) ∧
      (OnlySpacing (rewritten.text.drop place) →
        (∃ offset, CaptureList.parse rewritten.text = .error ⟨.expectedBody, offset⟩) ∧
          settings.JoinsComment name.toList text place rewritten.text) := by
  obtain ⟨region, tokens, blanks, inside, rfl, isRegion, tail, content, stands⟩ :=
    CaptureList.exists_isTail_of_parse parsed
  obtain rfl := Option.some.inj (stands.symm.trans placed)
  obtain ⟨rewritten, other, expanded, text_eq, otherTail, joins⟩ :=
    usable.exists_body isRegion tail content late
  obtain ⟨reads, refuses⟩ :=
    CaptureList.parse_append_body isRegion tail content parsed otherTail
  have dropped : rewritten.text.drop (region.length + blanks.length) = other := by
    rw [text_eq, ← List.append_assoc, ← List.length_append, List.drop_left]
  refine ⟨rewritten, expanded, ?_, ?_, ?_⟩
  · rw [text_eq, ← List.append_assoc, ← List.append_assoc, ← List.length_append, List.take_left,
      List.take_left]
  · rw [dropped, text_eq]
    exact reads
  · rw [dropped]
    intro spacing
    refine ⟨?_, joins spacing⟩
    rw [text_eq]
    exact refuses spacing

/-- A site among the arguments of a call in the body, replaced by its body with a comment. -/
theorem parse_expanded_body_commented :
    CaptureList.parse "move a in f(capture!(in /* c */ x), y) ".toList =
      .ok ⟨[⟨.move, "a", some 0⟩], "f(capture!(in /* c */ x), y)", some 10⟩ ∧
    ∃ rewritten,
      ({} : Settings).expandSource "move a in f(capture!(in /* c */ x), y) ".toList =
        .ok rewritten ∧
      rewritten.text = "move a in f(/* c */ x, y) ".toList ∧
      CaptureList.parse rewritten.text =
        .ok ⟨[⟨.move, "a", some 0⟩], "f(/* c */ x, y)", some 10⟩ := by
  have parsed : CaptureList.parse "move a in f(capture!(in /* c */ x), y) ".toList =
      .ok ⟨[⟨.move, "a", some 0⟩], "f(capture!(in /* c */ x), y)", some 10⟩ := by
    with_unfolding_all rfl
  have found : Invocation.find "capture".toList
      "move a in f(capture!(in /* c */ x), y) ".toList =
        .ok [⟨12, 1, "capture!".toList, .round, "in /* c */ x".toList⟩] := by
    with_unfolding_all rfl
  obtain ⟨rewritten, expanded, -, reads, -⟩ :=
    parse_expanded_body Settings.usable_default parsed rfl (by
      intro invocations same invocation member
      obtain rfl := Except.ok.inj (found.symm.trans same)
      obtain rfl := List.mem_singleton.1 member
      decide)
  have text_eq : rewritten.text = "move a in f(/* c */ x, y) ".toList := by
    have text : (({} : Settings).expandSource
        "move a in f(capture!(in /* c */ x), y) ".toList).map (·.text) =
          .ok "move a in f(/* c */ x, y) ".toList := by
      with_unfolding_all rfl
    rw [expanded] at text
    exact Except.ok.inj text
  refine ⟨parsed, rewritten, expanded, text_eq, ?_⟩
  rw [text_eq] at reads ⊢
  apply reads
  rw [← Comment.skip_eq_nil_iff]
  exact List.ne_nil_of_length_pos (by decide +kernel)

/-- The slash before a site and the slash that its body starts with make a comment of the whole
body. -/
theorem parse_expanded_body_joined :
    (Invocation.find "capture".toList "capture!(move a in /capture!(in /x))".toList).map
      (List.map (·.site.arguments)) = .ok ["move a in /capture!(in /x)".toList] ∧
    CaptureList.parse "move a in /capture!(in /x)".toList =
      .ok ⟨[⟨.move, "a", some 0⟩], "/capture!(in /x)", some 10⟩ ∧
    (Invocation.find "capture".toList "move a in /capture!(in /x)".toList).map
      (List.map (·.start)) = .ok [11] ∧
    (({} : Settings).expandSource "move a in /capture!(in /x)".toList).map (·.text) =
      .ok "move a in //x".toList ∧
    CaptureList.parse "move a in //x".toList = .error ⟨.expectedBody, 7⟩ := by
  refine ⟨?_, ?_, ?_, ?_, ?_⟩ <;> with_unfolding_all rfl

end Settings.Usable

end ClosureCapture
