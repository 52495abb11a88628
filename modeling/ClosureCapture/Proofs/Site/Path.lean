import ClosureCapture.Proofs.CaptureList.Layout
import ClosureCapture.Proofs.Site.Coverage

/-!
# The path before the macro name

A site starts with the path that leads to the macro name: words with `::` behind each of them, and
blanks around the colons.  Any word counts as a segment.  So a keyword of the host language that
stands before a path with a leading `::` becomes a part of the site and is replaced along with it,
as the `return` of `return ::capture!(move x in x)` is.  This file proves that a head holds the
words of the path at which the cursor stops and no others, and that a keyword is swallowed only
where `::` stands behind it.
-/

namespace ClosureCapture

namespace Text

/-- The words of a text: its longest runs of word characters. -/
def words (text : List Char) : List (List Char) :=
  (text.splitOnP (!isWord ·)).filter (!·.isEmpty)

theorem words_append_cons (text rest : List Char) {stop : Char} (stops : isWord stop = false) :
    words (text ++ stop :: rest) = words text ++ words rest := by
  rw [words, List.splitOnP_append_cons _ _ (by simp [stops]), List.filter_append]
  rfl

theorem words_of_isWord {word : List Char} (nonempty : word ≠ [])
    (whole : ∀ letter ∈ word, isWord letter = true) : words word = [word] := by
  rw [words, List.splitOnP_eq_singleton fun letter member => by simp [whole letter member]]
  simp [nonempty]

theorem words_append_stops {stops : List Char} (nonempty : stops ≠ [])
    (apart : ∀ stop ∈ stops, isWord stop = false) (text rest : List Char) :
    words (text ++ (stops ++ rest)) = words text ++ words rest := by
  induction stops generalizing text with
  | nil => contradiction
  | cons stop stops ih =>
      obtain ⟨first, others⟩ := List.forall_mem_cons.1 apart
      rw [List.cons_append, words_append_cons _ _ first]
      cases stops with
      | nil => rfl
      | cons next stops => exact congrArg (words text ++ ·) (ih (by simp) others [])

theorem isBlank_of_isNamePart {character : Char} (part : isNamePart character = true) :
    isBlank character = false := by
  have silent : ∀ code ∈ blankCodes, isNamePart (Char.ofNat code) = false := by decide +kernel
  rw [Bool.eq_false_iff]
  intro blank
  have missing := silent _ (toNat_mem_blankCodes blank)
  rw [Char.ofNat_toNat] at missing
  exact Bool.false_ne_true (missing.symm.trans part)

theorem exists_visible_of_isName {name : String} (isName : Text.isName name = true) :
    ∃ first letters, name.toList = first :: letters ∧ isBlank first = false := by
  obtain ⟨first, letters, spelled, starts, -⟩ := exists_cons_of_isName isName
  refine ⟨first, letters, spelled, isBlank_of_isNamePart ?_⟩
  simp [isNamePart, starts]

end Text

namespace Site

/-- The keywords that can be segments of a path. -/
def pathKeywords : List String := ["crate", "self", "Self", "super"]

/-- A keyword that is no segment of a path. -/
def IsHostKeyword (word : List Char) : Prop :=
  String.ofList word ∈ keywords ∧ String.ofList word ∉ pathKeywords

instance (word : List Char) : Decidable (IsHostKeyword word) :=
  inferInstanceAs (Decidable (_ ∧ _))

/-- The part of a head before the macro name. -/
def beforeName (name head : List Char) : List Char :=
  let spelled := Text.trimEnd (head.takeWhile (· != '!'))
  spelled.take (spelled.length - name.length)

/-! ### Paths -/

theorem words_pathText (path : List PathSegment) :
    Text.words (pathText path) = path.map PathSegment.word := by
  induction path with
  | nil => rfl
  | cons segment path ih =>
      have apart : ∀ stop ∈ segment.blanks ++ [':', ':'] ++ segment.gap,
          Text.isWord stop = false := by
        simp only [List.mem_append, List.mem_cons, List.not_mem_nil, or_false]
        rintro stop ((blank | rfl | rfl) | blank)
        · exact Text.isWord_of_isBlank (segment.isBlank_blanks stop blank)
        · decide
        · decide
        · exact Text.isWord_of_isBlank (segment.isBlank_gap stop blank)
      have whole : ∀ letter ∈ segment.word, Text.isWord letter = true :=
        List.forall_mem_cons.2
          ⟨isWord_of_isPathStart segment.isPathStart_first, segment.isWord_letters⟩
      calc
        Text.words (pathText (segment :: path)) = Text.words (segment.word ++
            (segment.blanks ++ [':', ':'] ++ segment.gap ++ pathText path)) := by
          simp [pathText, PathSegment.text]
        _ = Text.words segment.word ++ Text.words (pathText path) :=
          Text.words_append_stops (by simp) apart _ _
        _ = segment.word :: path.map PathSegment.word := by
          rw [Text.words_of_isWord (by simp [PathSegment.word]) whole, ih]
          rfl

theorem afterPathSegment?_text (segment : PathSegment) (rest : List Char) :
    afterPathSegment? (segment.text ++ rest) = some (segment.gap ++ rest) := by
  obtain ⟨first, letters, blanks, gap, starts, areWords, blankBefore, blankBehind⟩ := segment
  have stops : (blanks ++ ':' :: (':' :: (gap ++ rest))).dropWhile Text.isWord =
      blanks ++ ':' :: (':' :: (gap ++ rest)) := by
    cases blanks with
    | nil => exact List.dropWhile_cons_of_neg (by decide)
    | cons blank blanks =>
        have apart := Text.isWord_of_isBlank (blankBefore blank (by simp))
        exact List.dropWhile_cons_of_neg (by simp [apart])
  have trimmed := Text.trimStart_append blankBefore (show Text.isBlank ':' = false by decide)
    (':' :: (gap ++ rest))
  simp only [PathSegment.text, PathSegment.word, List.cons_append, List.append_assoc,
    List.nil_append, afterPathSegment?, if_pos starts,
    List.dropWhile_append_of_pos areWords, stops, trimmed]

theorem exists_visible_pathText (path : List PathSegment) {first : Char}
    (visible : Text.isBlank first = false) (rest : List Char) :
    ∃ head tail, pathText path ++ first :: rest = head :: tail ∧ Text.isBlank head = false := by
  cases path with
  | nil => exact ⟨first, rest, rfl, visible⟩
  | cons segment path =>
      refine ⟨segment.first, _, rfl, ?_⟩
      rw [Bool.eq_false_iff]
      intro blank
      have word := isWord_of_isPathStart segment.isPathStart_first
      rw [Text.isWord_of_isBlank blank] at word
      contradiction

/-- The name can start behind every path. -/
theorem mem_nameStarts_pathText (path : List PathSegment) {first : Char}
    (visible : Text.isBlank first = false) (rest : List Char) :
    first :: rest ∈ nameStarts (pathText path ++ first :: rest) := by
  induction path with
  | nil => exact Occurrence.mem_nameStarts _
  | cons segment path ih =>
      obtain ⟨head, tail, split, visibleHead⟩ := exists_visible_pathText path visible rest
      have trimmed : Text.trimStart (segment.gap ++ (pathText path ++ first :: rest)) =
          pathText path ++ first :: rest := by
        rw [split]
        exact Text.trimStart_append segment.isBlank_gap visibleHead tail
      have whole : pathText (segment :: path) ++ first :: rest =
          segment.text ++ (pathText path ++ first :: rest) := by
        simp [pathText]
      rw [whole, nameStarts_of_eq_some (afterPathSegment?_text segment _), trimmed]
      simp [ih]

theorem bang_not_mem_pathText (path : List PathSegment) : '!' ∉ pathText path := by
  intro member
  rcases isPathCharacter_of_mem_pathText member with word | blank | colon
  · exact absurd word (by decide)
  · exact absurd blank (by decide)
  · exact absurd colon (by decide)

/-- The part of a text before the macro name is the path that leads there. -/
theorem beforeName_of_path {name : String} (isName : Text.isName name = true)
    (path : List PathSegment) {blanks : List Char}
    (allBlank : ∀ blank ∈ blanks, Text.isBlank blank = true) (rest : List Char) :
    beforeName name.toList (pathText path ++ name.toList ++ blanks ++ '!' :: rest) =
      pathText path := by
  have unmarked : ∀ character ∈ pathText path ++ name.toList ++ blanks,
      (character != '!') = true := by
    intro character member
    rw [bne_iff_ne]
    rintro rfl
    simp only [List.mem_append] at member
    rcases member with (inPath | named) | blank
    · exact bang_not_mem_pathText path inPath
    · exact absurd (Text.isNamePart_of_isName isName named) (by decide +kernel)
    · exact absurd (allBlank _ blank) (by decide)
  have visible : ∀ last ∈ (pathText path ++ name.toList).getLast?,
      Text.isBlank last = false := by
    intro last isLast
    obtain ⟨first, letters, spelled, -⟩ := Text.exists_cons_of_isName isName
    have nonempty : name.toList ≠ [] := by simp [spelled]
    rw [List.getLast?_append_of_ne_nil _ nonempty] at isLast
    apply Text.isBlank_of_isNamePart
    exact Text.isNamePart_of_isName isName (List.mem_of_getLast? isLast)
  have spelled : (pathText path ++ name.toList ++ blanks ++ '!' :: rest).takeWhile (· != '!') =
      pathText path ++ name.toList ++ blanks := by
    rw [List.takeWhile_append_of_pos unmarked]
    simp
  simp only [beforeName, spelled, Text.trimEnd_append visible allBlank]
  simp

/-! ### Where the cursor stops at a path -/

/-- The cursor stops at the path before the name, and a site may start there. -/
structure Occurrence.BehindPath {name source : List Char} (occurrence : Occurrence name source)
    (front : List Char) (path : List PathSegment) : Prop where
  before_eq : occurrence.before = front ++ pathText path
  mayFollow : mayFollow front.getLast? = true
  reached : Cursor.Reaches name source
    (.scanning front.getLast? (pathText path ++ (occurrence.text ++ occurrence.inside)))

variable {name : String} {source : List Char}

/-- No comment and no literal starts at the path before the name. -/
theorem Occurrence.after?_pathText (isName : Text.isName name = true)
    (occurrence : Occurrence name.toList source) (path : List PathSegment)
    (previous : Option Char) :
    Literal.after? previous (pathText path ++ (occurrence.text ++ occurrence.inside)) = none := by
  have quiet : ∀ character ∈ pathText path ++ name.toList ++ occurrence.blanks,
      character ∉ Literal.marks := by
    simp only [List.mem_append]
    rintro character ((inPath | named) | blank)
    · exact (isQuiet_of_isPathCharacter (isPathCharacter_of_mem_pathText inPath)).1
    · exact (isQuiet_of_isName isName named).1
    · exact (isQuiet_of_isPathCharacter (.inr (.inl (occurrence.isBlank_blanks _ blank)))).1
  have whole : pathText path ++ (occurrence.text ++ occurrence.inside) =
      (pathText path ++ name.toList ++ occurrence.blanks) ++
        '!' :: (occurrence.gap ++ occurrence.bracket.opening :: occurrence.inside) := by
    simp [Occurrence.text]
  obtain ⟨first, rest, spelled, -⟩ := Text.exists_cons_of_isName isName
  cases front : pathText path ++ name.toList ++ occurrence.blanks with
  | nil => simp [spelled] at front
  | cons head tail =>
      rw [front] at whole quiet
      rw [whole]
      exact Literal.after?_eq_none quiet (by decide) (by decide)

theorem Occurrence.exists_open?_pathText (isName : Text.isName name = true)
    (occurrence : Occurrence name.toList source) (path : List PathSegment)
    {previous : Option Char} (follows : Site.mayFollow previous = true) :
    ∃ result, open? name.toList previous
      (pathText path ++ (occurrence.text ++ occurrence.inside)) = some result := by
  apply occurrence.exists_open?_of_mem follows
  obtain ⟨first, letters, spelled, visible⟩ := Text.exists_visible_of_isName isName
  obtain ⟨tail, split⟩ : ∃ tail, occurrence.text ++ occurrence.inside = first :: tail := by
    simp [Occurrence.text, spelled]
  rw [split]
  exact mem_nameStarts_pathText path visible tail

end Site

namespace Invocation

variable {name : String} {source : List Char} {invocations : List Invocation}

/-- Every invocation starts with a path at which the cursor stops. -/
theorem exists_behindPath (isName : Text.isName name = true)
    (found : find name.toList source = .ok invocations) {invocation : Invocation}
    (member : invocation ∈ invocations) :
    ∃ (occurrence : Site.Occurrence name.toList source) (front : List Char)
      (path : List Site.PathSegment),
      occurrence.BehindPath front path ∧ invocation.start = front.length ∧
      Site.beforeName name.toList invocation.site.head = Site.pathText path := by
  obtain ⟨segments, scanned, rfl⟩ := find_eq_ok_iff.1 found
  obtain ⟨whole, cuts⟩ := Segment.scanFrom_eq_ok_iff.1 scanned
  obtain ⟨before, later, rfl, start⟩ := exists_split_of_mem_ofSegments member
  obtain ⟨reached, cut⟩ := cuts.around
  obtain ⟨path, blanks, gap, blankBefore, blankBehind, head⟩ :=
    Site.ClosedBefore.exists_head cut
  have source_eq : source = before.flatMap Segment.text ++ Site.pathText path ++
      (name.toList ++ blanks ++ '!' :: gap ++ invocation.site.bracket.opening ::
        (invocation.site.arguments ++ invocation.site.bracket.closing ::
          (later.flatMap Segment.text ++ []))) := by
    simp [whole, Segment.text, Site.text, head]
  let occurrence : Site.Occurrence name.toList source :=
    ⟨_, blanks, gap, _, _, blankBefore, blankBehind, source_eq⟩
  have here : source = before.flatMap Segment.text ++
      (Site.pathText path ++ (occurrence.text ++ occurrence.inside)) := by
    simpa [occurrence] using occurrence.split
  have last : Segment.lastBefore none before = (before.flatMap Segment.text).getLast? := by
    simp [Segment.lastBefore]
  refine ⟨occurrence, before.flatMap Segment.text, path, ⟨rfl, ?_, ?_⟩, ?_, ?_⟩
  · rw [← last]
    exact Site.mayFollow_of_open? cut.opened
  · have steps := Cursor.steps_of_cutTo reached
    have rest : (Segment.site invocation.site).text ++ (later.flatMap Segment.text ++ []) =
        Site.pathText path ++ (occurrence.text ++ occurrence.inside) :=
      List.append_cancel_left (Eq.trans (by simp [whole]) here)
    rwa [rest, ← here, last] at steps
  · omega
  · rw [head]
    exact Site.beforeName_of_path isName path blankBefore gap

/-- A path at which the cursor stops is the start of an invocation. -/
theorem exists_mem_of_behindPath (isName : Text.isName name = true)
    (found : find name.toList source = .ok invocations)
    {occurrence : Site.Occurrence name.toList source} {front : List Char}
    {path : List Site.PathSegment} (behind : occurrence.BehindPath front path) :
    ∃ invocation ∈ invocations, invocation.start = front.length ∧
      Site.beforeName name.toList invocation.site.head = Site.pathText path := by
  obtain ⟨segments, whole, cuts, last⟩ := behind.reached.stands.exists_between
  have front_eq : front = segments.flatMap Segment.text := by
    refine List.append_cancel_right (Eq.trans ?_ whole)
    rw [← List.append_assoc, ← behind.before_eq]
    exact occurrence.split.symm
  rw [whole, find_of_cutTo cuts] at found
  cases scanned : Segment.scanFrom name.toList (segments.flatMap Segment.text).length
      (1 + Text.newlines (segments.flatMap Segment.text)) (Segment.lastBefore none segments)
      (Site.pathText path ++ (occurrence.text ++ occurrence.inside)) with
  | error fault =>
      rw [scanned] at found
      simp [Except.map] at found
  | ok later =>
  rw [scanned] at found
  obtain rfl := Except.ok.inj found
  obtain ⟨rest, laterCuts⟩ := Segment.scanFrom_eq_ok_iff.1 scanned
  obtain ⟨result, opened⟩ := occurrence.exists_open?_pathText isName path behind.mayFollow
  have code := occurrence.after?_pathText isName path front.getLast?
  rw [last, rest] at opened code
  cases later with
  | nil => simp [Site.pathText, occurrence.text_ne_nil] at rest
  | cons segment others =>
      obtain ⟨cut, -⟩ := laterCuts
      rw [List.flatMap_cons] at rest opened code
      rw [List.append_nil] at cut
      cases segment with
      | literal passed => exact absurd (code.symm.trans cut.2) (by simp)
      | code character => exact absurd (cut.2.symm.trans opened) (by simp)
      | site call =>
          refine ⟨⟨(segments.flatMap Segment.text).length, _, call⟩,
            List.mem_append_right _ (List.mem_cons_self ..), congrArg List.length front_eq.symm, ?_⟩
          -- Both paths are what stands before the name in the rest of the source.
          obtain ⟨own, blanks, gap, blankBefore, -, head⟩ := Site.ClosedBefore.exists_head cut
          have whole : Site.pathText path ++ name.toList ++ occurrence.blanks ++ '!' ::
              (occurrence.gap ++ occurrence.bracket.opening :: occurrence.inside) =
              Site.pathText own ++ name.toList ++ blanks ++ '!' ::
                (gap ++ call.bracket.opening :: call.arguments ++ [call.bracket.closing] ++
                  others.flatMap Segment.text) := by
            simpa [Site.Occurrence.text, Segment.text, Site.text, head] using rest
          calc
            Site.beforeName name.toList call.head = Site.pathText own := by
              rw [head]
              exact Site.beforeName_of_path isName own blankBefore gap
            _ = Site.pathText path := by
              rw [← Site.beforeName_of_path isName own blankBefore, ← whole,
                Site.beforeName_of_path isName path occurrence.isBlank_blanks]

/-- The words of a head before the macro name are the segments of a path at which the cursor
stops, and a keyword is among them exactly where the cursor stops at a path with a keyword for a
segment. -/
theorem find_swallows_keyword_iff (isName : Text.isName name = true)
    (found : find name.toList source = .ok invocations) :
    (∀ invocation ∈ invocations,
      ∃ (occurrence : Site.Occurrence name.toList source) (front : List Char)
        (path : List Site.PathSegment),
        occurrence.BehindPath front path ∧ invocation.start = front.length ∧
        Text.words (Site.beforeName name.toList invocation.site.head) =
          path.map Site.PathSegment.word) ∧
    ((∃ invocation ∈ invocations,
        ∃ word ∈ Text.words (Site.beforeName name.toList invocation.site.head),
          Site.IsHostKeyword word) ↔
      ∃ (occurrence : Site.Occurrence name.toList source) (front : List Char)
        (path : List Site.PathSegment),
        occurrence.BehindPath front path ∧ ∃ segment ∈ path, Site.IsHostKeyword segment.word) := by
  have behind : ∀ invocation ∈ invocations, ∃ (occurrence : Site.Occurrence name.toList source)
      (front : List Char) (path : List Site.PathSegment),
      occurrence.BehindPath front path ∧ invocation.start = front.length ∧
      Text.words (Site.beforeName name.toList invocation.site.head) =
        path.map Site.PathSegment.word := by
    intro invocation member
    obtain ⟨occurrence, front, path, stops, start, same⟩ := exists_behindPath isName found member
    refine ⟨occurrence, front, path, stops, start, ?_⟩
    rw [same, Site.words_pathText]
  refine ⟨behind, ?_, ?_⟩
  · rintro ⟨invocation, member, word, inHead, keyword⟩
    obtain ⟨occurrence, front, path, stops, -, same⟩ := behind invocation member
    rw [same] at inHead
    obtain ⟨segment, inPath, rfl⟩ := List.mem_map.1 inHead
    exact ⟨occurrence, front, path, stops, segment, inPath, keyword⟩
  · rintro ⟨occurrence, front, path, stops, segment, inPath, keyword⟩
    obtain ⟨invocation, member, -, same⟩ := exists_mem_of_behindPath isName found stops
    refine ⟨invocation, member, segment.word, ?_, keyword⟩
    rw [same, Site.words_pathText]
    exact List.mem_map_of_mem inPath

/-- A `return` before a path with a leading `::` is swallowed and lost. -/
theorem find_swallows_keyword_iff_return :
    (∃ (occurrence : Site.Occurrence "capture".toList "return ::capture!(move x in x)".toList)
      (front : List Char) (path : List Site.PathSegment),
      occurrence.BehindPath front path ∧ ∃ segment ∈ path, Site.IsHostKeyword segment.word) ∧
    (({} : Settings).expandSource "return ::capture!(move x in x)".toList).map (·.text) =
      .ok "\x7b let x = x; x \x7d".toList := by
  have found : find "capture".toList "return ::capture!(move x in x)".toList =
      .ok [⟨0, 1, "return ::capture!".toList, .round, "move x in x".toList⟩] := by
    with_unfolding_all rfl
  have expanded :
      (({} : Settings).expandSource "return ::capture!(move x in x)".toList).map (·.text) =
        .ok "\x7b let x = x; x \x7d".toList := by
    with_unfolding_all rfl
  refine ⟨?_, expanded⟩
  apply (find_swallows_keyword_iff (by decide) found).2.1
  exact ⟨_, List.mem_singleton_self _, "return".toList, by decide, by decide⟩

end Invocation

end ClosureCapture
