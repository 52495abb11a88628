import ClosureCapture.Proofs.Site.Opacity
import ClosureCapture.Proofs.Source.Outcome

/-!
# Occurrences of the macro name

The macro name with `!` and an opening delimiter behind it is meant as a site.  This file proves
which of its occurrences a scan finds.  An occurrence that is code and does not continue a word
lies inside one of the sites, as its head or in its arguments, with one exception: where the
cursor stops at the name itself and a colon stands before it, no site is opened.  This happens
behind the colon of a field or a type, behind a leading `::` and behind a path that does not start
with a plain letter.
-/

namespace ClosureCapture

open Delimiter

/-! ### The cursor stops before every segment -/

namespace Cursor

variable {name rest : List Char} {previous : Option Char}

theorem steps_of_walk {search other : Search} (walk : Search.Walk search other)
    (bracket : Bracket) :
    Relation.ReflTransGen (Step name) (.searching bracket search) (.searching bracket other) :=
  Relation.ReflTransGen.lift (Cursor.searching bracket) (fun _ _ step => Step.search step) _ _ walk

theorem steps_of_cutBefore {segment : Segment}
    (cut : segment.CutBefore name previous rest) :
    Relation.ReflTransGen (Step name) (.scanning previous (segment.text ++ rest))
      (.scanning segment.text.getLast? rest) := by
  cases segment with
  | literal passed =>
      have skip : Step name (.scanning previous (passed ++ rest)) _ := .skip cut.2
      rw [lastBefore_append_self] at skip
      exact .single skip
  | code character => exact .single (.code cut.1 cut.2)
  | site call =>
      obtain ⟨last, walk, code⟩ := Search.exists_walk_of_close_eq_ok cut.closed
        (show [call.bracket] = [] ++ [call.bracket] from rfl)
      have ended : (Segment.site call).text.getLast? = some call.bracket.closing :=
        List.getLast?_concat
      rw [ended]
      have entered : Step name (.scanning previous ((Segment.site call).text ++ rest)) _ :=
        .enter cut.code cut.opened
      exact .head entered ((steps_of_walk walk call.bracket).tail (.leave code))

theorem steps_of_cutTo {segments : List Segment}
    (cuts : Segment.CutTo name rest previous segments) :
    Relation.ReflTransGen (Step name) (.scanning previous (segments.flatMap Segment.text ++ rest))
      (.scanning (Segment.lastBefore previous segments) rest) := by
  induction segments generalizing previous with
  | nil => exact .refl
  | cons segment segments ih =>
      obtain ⟨cut, later⟩ := cuts
      have first := steps_of_cutBefore cut
      rw [List.flatMap_cons, List.append_assoc,
        Segment.lastBefore_cons (Segment.text_ne_nil_of_cutBefore cut)]
      exact first.trans (ih later)

end Cursor

theorem Literal.after?_of_unmarked {previous : Option Char} {text : List Char}
    (unmarked : ∀ character ∈ text, character ∉ marks) : after? previous text = none := by
  cases text with
  | nil => simp [after?, Comment.after?, afterLiteral?, afterQuoted?]
  | cons first rest =>
      -- A blank behind the text keeps its last character from being a marker.
      have longer : after? previous (first :: rest ++ [' ']) = none :=
        after?_eq_none unmarked (by decide) (by decide)
      exact (after?_isLocal previous).none_of_append longer

/-! ### The segment around a place -/

namespace Segment

theorem CutTo.split {name rest : List Char} {previous : Option Char}
    {front others : List Segment} (cuts : CutTo name rest previous (front ++ others)) :
    CutTo name (others.flatMap text ++ rest) previous front ∧
      CutTo name rest (lastBefore previous front) others := by
  induction front generalizing previous with
  | nil => exact ⟨trivial, cuts⟩
  | cons segment front ih =>
      obtain ⟨cut, later⟩ := cuts
      obtain ⟨cutsFront, cutsOthers⟩ := ih later
      rw [lastBefore_cons (text_ne_nil_of_cutBefore cut)]
      refine ⟨⟨?_, cutsFront⟩, cutsOthers⟩
      simpa using cut

theorem CutTo.around {name rest : List Char} {previous : Option Char}
    {earlier later : List Segment} {segment : Segment}
    (cuts : CutTo name rest previous (earlier ++ segment :: later)) :
    CutTo name (segment.text ++ (later.flatMap text ++ rest)) previous earlier ∧
      segment.CutBefore name (lastBefore previous earlier) (later.flatMap text ++ rest) := by
  obtain ⟨cutsEarlier, cut, -⟩ := cuts.split
  rw [List.flatMap_cons, List.append_assoc] at cutsEarlier
  exact ⟨cutsEarlier, cut⟩

theorem exists_around {segments : List Segment} {before rest : List Char}
    (split : segments.flatMap text = before ++ rest) (nonempty : rest ≠ []) :
    ∃ earlier segment later passed remaining,
      segments = earlier ++ segment :: later ∧ before = earlier.flatMap text ++ passed ∧
      segment.text = passed ++ remaining ∧ remaining ≠ [] ∧
      rest = remaining ++ later.flatMap text := by
  induction segments generalizing before with
  | nil => simp [nonempty] at split
  | cons segment segments ih =>
      rw [List.flatMap_cons] at split
      -- A place at the end of a segment belongs to the next one.
      have behind : ∀ passed, before = segment.text ++ passed →
          segments.flatMap text = passed ++ rest → ∃ earlier inner later front remaining,
            segment :: segments = earlier ++ inner :: later ∧
            before = earlier.flatMap text ++ front ∧ inner.text = front ++ remaining ∧
            remaining ≠ [] ∧ rest = remaining ++ later.flatMap text := by
        rintro passed rfl others
        obtain ⟨earlier, inner, later, front, remaining, rfl, rfl, parts, some, tail⟩ := ih others
        exact ⟨segment :: earlier, inner, later, front, remaining, rfl, by simp, parts, some, tail⟩
      rcases List.append_eq_append_iff.1 split with
        ⟨passed, beforeEq, others⟩ | ⟨remaining, segmentEq, restEq⟩
      · exact behind passed beforeEq others
      · by_cases ended : remaining = []
        · subst ended
          exact behind [] (by simpa using segmentEq.symm) (by simpa using restEq.symm)
        · exact ⟨[], segment, segments, before, remaining, rfl, rfl, segmentEq, ended, restEq⟩

theorem eq_of_code_text {character : Char} {passed remaining : List Char}
    (parts : (Segment.code character).text = passed ++ remaining) (nonempty : remaining ≠ []) :
    passed = [] ∧ remaining = [character] := by
  cases passed with
  | nil => exact ⟨rfl, parts.symm⟩
  | cons first passed => simp [Segment.text, nonempty] at parts

end Segment

/-! ### Occurrences -/

/-- The macro name in a source, with `!` and an opening delimiter behind it. -/
structure Site.Occurrence (name source : List Char) where
  before : List Char
  blanks : List Char
  gap : List Char
  bracket : Bracket
  inside : List Char
  isBlank_blanks : ∀ blank ∈ blanks, Text.isBlank blank = true
  isBlank_gap : ∀ blank ∈ gap, Text.isBlank blank = true
  source_eq : source = before ++ (name ++ blanks ++ '!' :: gap ++ bracket.opening :: inside)

namespace Site.Occurrence

variable {name source : List Char} (occurrence : Site.Occurrence name source)

/-- The text from the name up to the opening delimiter. -/
def text : List Char :=
  name ++ occurrence.blanks ++ '!' :: occurrence.gap ++ [occurrence.bracket.opening]

/-- A scan passes over no comment and no literal that the name starts in. -/
def IsCode : Prop :=
  ∀ front literal behind, source = front ++ (literal ++ behind) →
    Literal.PassedIn name front literal behind →
    ¬ (front.length ≤ occurrence.before.length ∧
      occurrence.before.length < (front ++ literal).length)

/-- The occurrence is a part of an invocation. -/
def LiesIn (invocation : Invocation) : Prop :=
  invocation.start ≤ occurrence.before.length ∧
    (occurrence.before ++ occurrence.text).length ≤ invocation.stop

/-- The cursor stops at the name, behind a colon. -/
def StopsBehindColon : Prop :=
  occurrence.before.getLast? = some ':' ∧
    Cursor.Reaches name source (.scanning (some ':') (occurrence.text ++ occurrence.inside))

theorem split : source = occurrence.before ++ (occurrence.text ++ occurrence.inside) := by
  simpa [text] using occurrence.source_eq

theorem text_ne_nil : occurrence.text ≠ [] := by
  simp [text]

theorem mem_nameStarts (text : List Char) : text ∈ nameStarts text := by
  rw [nameStarts.eq_def]
  split <;> simp

/-- In a source without quotes, hashes and slashes everything is code. -/
theorem isCode_of_unmarked (unmarked : ∀ character ∈ source, character ∉ Literal.marks) :
    occurrence.IsCode := by
  rintro front literal behind whole ⟨cursor, reached, -, skipped⟩
  have within := (Cursor.suffix_of_steps reached).subset
  rw [Cursor.rest, ← whole] at within
  have missing : Literal.after? cursor.previous cursor.rest = none :=
    Literal.after?_of_unmarked fun character member => unmarked character (within member)
  simp [missing] at skipped

theorem not_isCode_of_passedIn {front literal behind passed remaining : List Char}
    (whole : source = front ++ (literal ++ behind))
    (passing : Literal.PassedIn name front literal behind)
    (begins : occurrence.before.length = front.length + passed.length)
    (parts : literal = passed ++ remaining) (nonempty : remaining ≠ []) :
    ¬ occurrence.IsCode := by
  intro code
  have positive := List.length_pos_iff.2 nonempty
  have lengths := congrArg List.length parts
  rw [List.length_append] at lengths
  refine code front literal behind whole passing ⟨?_, ?_⟩
  · omega
  · rw [List.length_append]
    omega

/-- A site is open at every place where one may start and the name can. -/
theorem exists_open?_of_mem {previous : Option Char} (follows : mayFollow previous = true)
    {text : List Char} (member : occurrence.text ++ occurrence.inside ∈ nameStarts text) :
    ∃ result, open? name previous text = some result := by
  have named : afterName? name (occurrence.text ++ occurrence.inside) =
      some (occurrence.bracket, occurrence.inside) :=
    afterName?_eq_some_iff.2 ⟨occurrence.blanks, occurrence.gap, occurrence.isBlank_blanks,
      occurrence.isBlank_gap, by simp [Occurrence.text]⟩
  rw [open?, if_pos follows, ← Option.isSome_iff_exists, List.findSome?_isSome_iff]
  exact ⟨_, member, by simp [named]⟩

/-- No delimiter is closed in an occurrence. -/
theorem closing_not_mem {name : String} (isName : Text.isName name = true) {source : List Char}
    (occurrence : Site.Occurrence name.toList source) (bracket : Bracket) :
    bracket.closing ∉ occurrence.text := by
  have loud : ¬ IsQuiet bracket.closing := fun quiet => Bracket.ofClosing?_closing bracket quiet.2.2
  simp only [text, List.mem_append, List.mem_cons, List.not_mem_nil, or_false]
  rintro (((named | blank) | mark | blank) | opening)
  · exact loud (isQuiet_of_isName isName named)
  · exact loud (isQuiet_of_isPathCharacter (.inr (.inl (occurrence.isBlank_blanks _ blank))))
  · revert mark
    cases bracket <;> decide
  · exact loud (isQuiet_of_isPathCharacter (.inr (.inl (occurrence.isBlank_gap _ blank))))
  · have opens := Bracket.ofOpening?_opening occurrence.bracket
    rw [← opening, Bracket.ofOpening?_closing] at opens
    simp at opens

end Site.Occurrence

/-! ### Which occurrences are found -/

namespace Invocation

theorem le_start_of_mem_ofSegments {offset line : Nat} {segments : List Segment}
    {invocation : Invocation} (member : invocation ∈ ofSegments offset line segments) :
    offset ≤ invocation.start := by
  obtain ⟨before, later, -, start⟩ := exists_split_of_mem_ofSegments member
  omega

/-- An invocation that starts where segments start is the first of them. -/
theorem exists_eq_cons_of_start_le {name rest : List Char} {previous : Option Char}
    {offset line : Nat} {segments : List Segment} {invocation : Invocation}
    (cuts : Segment.CutTo name rest previous segments)
    (member : invocation ∈ ofSegments offset line segments) (early : invocation.start ≤ offset) :
    ∃ later, segments = .site invocation.site :: later := by
  cases segments with
  | nil => simp [ofSegments] at member
  | cons segment segments =>
      have positive := List.length_pos_iff.2 (Segment.text_ne_nil_of_cutBefore cuts.1)
      have notLater : invocation ∉ ofSegments (offset + segment.text.length)
          (line + Text.newlines segment.text) segments := by
        intro later
        have bound := le_start_of_mem_ofSegments later
        omega
      cases segment with
      | code | literal => exact absurd member notLater
      | site call =>
          rcases List.mem_cons.1 member with rfl | later
          · exact ⟨segments, rfl⟩
          · exact absurd later notLater

variable {name : String} {source : List Char} {invocations : List Invocation}

theorem not_stopsBehindColon (found : find name.toList source = .ok invocations)
    (occurrence : Site.Occurrence name.toList source) {invocation : Invocation}
    (member : invocation ∈ invocations) (lies : occurrence.LiesIn invocation) :
    ¬ occurrence.StopsBehindColon := by
  rintro ⟨-, reached⟩
  obtain ⟨segments, whole, cuts, last⟩ := reached.stands.exists_between
  obtain ⟨starts, stops⟩ := lies
  have before : occurrence.before = segments.flatMap Segment.text :=
    List.append_cancel_right (occurrence.split.symm.trans whole)
  have positive := List.length_pos_iff.2 occurrence.text_ne_nil
  rw [List.length_append, before] at stops
  rw [before] at starts
  rw [whole, find_of_cutTo cuts] at found
  cases scanned : Segment.scanFrom name.toList (segments.flatMap Segment.text).length
      (1 + Text.newlines (segments.flatMap Segment.text)) (Segment.lastBefore none segments)
      (occurrence.text ++ occurrence.inside) with
  | error fault =>
      rw [scanned] at found
      simp [Except.map] at found
  | ok later =>
  rw [scanned] at found
  obtain rfl := Except.ok.inj found
  rcases List.mem_append.1 member with ahead | behind
  · have bound := stop_le_of_mem_ofSegments ahead
    omega
  · -- The invocation starts with the name, where no site is open behind a colon.
    obtain ⟨-, laterCuts⟩ := Segment.scanFrom_eq_ok_iff.1 scanned
    obtain ⟨others, rfl⟩ := exists_eq_cons_of_start_le laterCuts behind starts
    have follows := Site.mayFollow_of_open? laterCuts.1.opened
    rw [← last] at follows
    exact absurd follows (by decide)

/-- Where the cursor passes over a character of code, an occurrence stands behind a colon. -/
theorem stopsBehindColon_of_code (occurrence : Site.Occurrence name.toList source)
    (apart : occurrence.before.getLast?.any Text.isWord = false)
    (unopened : Site.open? name.toList occurrence.before.getLast?
      (occurrence.text ++ occurrence.inside) = none)
    (reached : Cursor.Reaches name.toList source
      (.scanning occurrence.before.getLast? (occurrence.text ++ occurrence.inside))) :
    occurrence.StopsBehindColon := by
  have barred : Site.mayFollow occurrence.before.getLast? = false := by
    by_contra follows
    obtain ⟨result, opened⟩ := occurrence.exists_open?_of_mem (by simpa using follows)
      (Site.Occurrence.mem_nameStarts _)
    simp [unopened] at opened
  have colon : occurrence.before.getLast? = some ':' := by
    cases final : occurrence.before.getLast? with
    | none => simp [final, Site.mayFollow] at barred
    | some last =>
        rw [final] at barred apart
        simp_all [Site.mayFollow]
  exact ⟨colon, colon ▸ reached⟩

theorem liesIn_of_site (isName : Text.isName name = true)
    (occurrence : Site.Occurrence name.toList source) {start line : Nat} {call : Site}
    {passed remaining later : List Char}
    (begins : occurrence.before.length = start + passed.length)
    (parts : call.text = passed ++ remaining) (nonempty : remaining ≠ [])
    (behind : occurrence.text ++ occurrence.inside = remaining ++ later) :
    occurrence.LiesIn ⟨start, line, call⟩ := by
  refine ⟨by simp only [begins]; omega, ?_⟩
  by_contra longer
  simp only [Invocation.stop, List.length_append, begins, parts] at longer
  -- The closing delimiter of the site would be a part of the occurrence.
  have lengths := congrArg List.length behind
  simp only [List.length_append] at lengths
  obtain ⟨middle, -, within⟩ := exists_append_of_append_eq_append behind (by omega)
  have closes : call.bracket.closing ∈ remaining := by
    have last : (passed ++ remaining).getLast? = some call.bracket.closing := by
      rw [← parts]
      exact List.getLast?_concat
    rw [List.getLast?_append, List.getLast?_eq_some_getLast nonempty] at last
    rw [← Option.some.inj last]
    exact List.getLast_mem nonempty
  apply occurrence.closing_not_mem isName call.bracket
  rw [within]
  exact List.mem_append_left _ closes

/-- An occurrence of the macro name that is code and does not continue a word lies inside one of
the sites that are found, unless the cursor stops at it behind a colon. -/
theorem find_covers_unless_colon (isName : Text.isName name = true)
    (found : find name.toList source = .ok invocations)
    (occurrence : Site.Occurrence name.toList source) (code : occurrence.IsCode)
    (apart : occurrence.before.getLast?.any Text.isWord = false) :
    (∃ invocation ∈ invocations, occurrence.LiesIn invocation) ↔
      ¬ occurrence.StopsBehindColon := by
  constructor
  · rintro ⟨invocation, member, lies⟩
    exact not_stopsBehindColon found occurrence member lies
  · intro elsewhere
    obtain ⟨segments, scanned, rfl⟩ := find_eq_ok_iff.1 found
    obtain ⟨whole, cuts⟩ := Segment.scanFrom_eq_ok_iff.1 scanned
    obtain ⟨earlier, segment, later, passed, remaining, rfl, before, parts, nonempty, behind⟩ :=
      Segment.exists_around (whole.symm.trans occurrence.split)
        (List.append_ne_nil_of_left_ne_nil occurrence.text_ne_nil _)
    obtain ⟨earlierCuts, cut⟩ := cuts.around
    rw [List.append_nil] at earlierCuts cut
    have source_eq : source = earlier.flatMap Segment.text ++
        (segment.text ++ later.flatMap Segment.text) := by simp [whole]
    have reached : Cursor.Reaches name.toList source _ :=
      source_eq ▸ Cursor.steps_of_cutTo earlierCuts
    have begins := congrArg List.length before
    rw [List.length_append] at begins
    cases segment with
    | literal text =>
        have passing : Literal.PassedIn name.toList (earlier.flatMap Segment.text) text
            (later.flatMap Segment.text) := ⟨_, Cursor.steps_of_cutTo earlierCuts, rfl, cut.2⟩
        exact absurd code
          (occurrence.not_isCode_of_passedIn source_eq passing begins parts nonempty)
    | code character =>
        obtain ⟨rfl, rfl⟩ := Segment.eq_of_code_text parts nonempty
        have here : [character] ++ later.flatMap Segment.text =
            occurrence.text ++ occurrence.inside := behind.symm
        have last : Segment.lastBefore none earlier = occurrence.before.getLast? := by
          rw [Segment.lastBefore, before, List.append_nil, Option.or_none]
        have unopened := cut.2
        rw [last, ← List.singleton_append, here] at unopened
        rw [last, Segment.text, here] at reached
        exact absurd (stopsBehindColon_of_code occurrence apart unopened reached) elsewhere
    | site call =>
        refine ⟨_, mem_ofSegments_append 0 1 earlier call later,
          liesIn_of_site isName occurrence ?_ parts nonempty behind⟩
        omega

/-- The initial value of a field is missed, the site before it is not. -/
theorem find_covers_unless_colon_field :
    ∃ (invocation : Invocation)
      (field : Site.Occurrence "capture".toList "capture!(y);f:capture!(x)".toList),
      find "capture".toList "capture!(y);f:capture!(x)".toList = .ok [invocation] ∧
      field.before = "capture!(y);f:".toList ∧ field.IsCode ∧
      field.before.getLast?.any Text.isWord = false ∧ ¬ field.LiesIn invocation := by
  let field : Site.Occurrence "capture".toList "capture!(y);f:capture!(x)".toList :=
    ⟨"capture!(y);f:".toList, [], [], .round, "x)".toList, by simp, by simp, by decide⟩
  have found : find "capture".toList "capture!(y);f:capture!(x)".toList =
      .ok [⟨0, 1, "capture!".toList, .round, "y".toList⟩] := by with_unfolding_all rfl
  have code : field.IsCode := field.isCode_of_unmarked (by simp [Literal.marks])
  have cuts : Segment.CutTo "capture".toList "capture!(x)".toList none
      [.site ⟨"capture!".toList, .round, "y".toList⟩, .code ';', .code 'f', .code ':'] := by
    refine ⟨⟨?_, ?_, ?_⟩, ⟨?_, ?_⟩, ⟨?_, ?_⟩, ⟨?_, ?_⟩, trivial⟩ <;> with_unfolding_all rfl
  have stops : field.StopsBehindColon := ⟨rfl, Cursor.steps_of_cutTo cuts⟩
  have missed := (find_covers_unless_colon (by decide) found field code (by decide)).not.2
    (not_not.2 stops)
  refine ⟨_, field, found, rfl, code, by decide, ?_⟩
  intro lies
  exact missed ⟨_, List.mem_singleton_self _, lies⟩

end Invocation

end ClosureCapture
