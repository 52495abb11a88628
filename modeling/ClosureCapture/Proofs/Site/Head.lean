import ClosureCapture.Proofs.Delimiter.Nesting
import ClosureCapture.Site
import ClosureCapture.Text.Name

/-!
# The head of a site

The text of a site up to its opening delimiter is a path, the macro name, blanks, `!` and blanks.
When the macro name is a name, no comment, literal or delimiter starts in it, so that a search for
delimiters passes over the head character by character.  Whether a site is open at the start of a
text depends on the text up to the opening delimiter only.
-/

namespace ClosureCapture

namespace Text

theorem exists_append_trimStart (text : List Char) :
    ∃ blanks, text = blanks ++ trimStart text ∧ ∀ blank ∈ blanks, isBlank blank = true := by
  refine ⟨text.takeWhile isBlank, (List.takeWhile_append_dropWhile ..).symm, ?_⟩
  intro blank member
  exact List.all_eq_true.1 List.all_takeWhile blank member

theorem trimStart_append {blanks : List Char} (allBlank : ∀ blank ∈ blanks, isBlank blank = true)
    {first : Char} (visible : isBlank first = false) (rest : List Char) :
    trimStart (blanks ++ first :: rest) = first :: rest := by
  rw [trimStart, List.dropWhile_append_of_pos allBlank]
  simp [visible]

end Text

namespace Site

/-! ### The parts of a head -/

theorem ofOpening?_eq_some_iff {character : Char} {bracket : Bracket} :
    Bracket.ofOpening? character = some bracket ↔ character = bracket.opening := by
  constructor
  · intro found
    have same := List.find?_some found
    simpa using (beq_iff_eq.1 same).symm
  · rintro rfl
    exact Bracket.ofOpening?_opening bracket

theorem isBlank_opening (bracket : Bracket) : Text.isBlank bracket.opening = false := by
  cases bracket <;> decide

theorem afterName?_eq_some_iff {name text inside : List Char} {bracket : Bracket} :
    afterName? name text = some (bracket, inside) ↔
      ∃ before behind, (∀ blank ∈ before, Text.isBlank blank = true) ∧
        (∀ blank ∈ behind, Text.isBlank blank = true) ∧
        text = name ++ before ++ '!' :: behind ++ bracket.opening :: inside := by
  constructor
  · intro found
    simp only [afterName?] at found
    split at found
    · next named =>
        obtain ⟨rest, rfl⟩ := List.isPrefixOf_iff_prefix.1 named
        rw [List.drop_left] at found
        obtain ⟨before, split, blankBefore⟩ := Text.exists_append_trimStart rest
        split at found
        · next later trimmed =>
            obtain ⟨behind, splitLater, blankBehind⟩ := Text.exists_append_trimStart later
            split at found
            · next delimiter tail opened =>
                obtain ⟨other, opens, same⟩ := Option.map_eq_some_iff.1 found
                obtain ⟨rfl, rfl⟩ := by simpa only [Prod.mk.injEq] using same
                obtain rfl := ofOpening?_eq_some_iff.1 opens
                refine ⟨before, behind, blankBefore, blankBehind, ?_⟩
                rw [split, trimmed, splitLater, opened]
                simp
            · simp at found
        · simp at found
    · simp at found
  · rintro ⟨before, behind, blankBefore, blankBehind, rfl⟩
    have named :
        name.isPrefixOf (name ++ before ++ '!' :: behind ++ bracket.opening :: inside) := by
      rw [List.isPrefixOf_iff_prefix, List.append_assoc, List.append_assoc]
      exact List.prefix_append _ _
    have marked : Text.trimStart (before ++ '!' :: (behind ++ bracket.opening :: inside)) =
        '!' :: (behind ++ bracket.opening :: inside) :=
      Text.trimStart_append blankBefore (by decide) _
    have opened : Text.trimStart (behind ++ bracket.opening :: inside) =
        bracket.opening :: inside :=
      Text.trimStart_append blankBehind (isBlank_opening bracket) _
    rw [afterName?, if_pos named]
    simp only [List.append_assoc, List.cons_append, List.drop_left, marked, opened,
      Bracket.ofOpening?_opening, Option.map_some]

/-- A character that can stand in a path. -/
def IsPathCharacter (character : Char) : Prop :=
  Text.isWord character = true ∨ Text.isBlank character = true ∨ character = ':'

theorem isWord_of_isPathStart {character : Char} (starts : isPathStart character = true) :
    Text.isWord character = true := by
  simp only [isPathStart, Bool.or_eq_true] at starts
  simp only [Text.isWord, Text.isLetter, Bool.or_eq_true]
  rcases starts with letter | underscore
  · exact .inl (.inr (.inl letter))
  · exact .inl (.inl underscore)

/-- A segment of a path as it is written: a word, blanks, two colons and blanks. -/
structure PathSegment where
  first : Char
  letters : List Char
  blanks : List Char
  gap : List Char
  isPathStart_first : isPathStart first = true
  isWord_letters : ∀ letter ∈ letters, Text.isWord letter = true
  isBlank_blanks : ∀ blank ∈ blanks, Text.isBlank blank = true
  isBlank_gap : ∀ blank ∈ gap, Text.isBlank blank = true

/-- The word of a segment. -/
def PathSegment.word (segment : PathSegment) : List Char :=
  segment.first :: segment.letters

/-- The text of a segment. -/
def PathSegment.text (segment : PathSegment) : List Char :=
  segment.word ++ segment.blanks ++ [':', ':'] ++ segment.gap

/-- The text of a path. -/
def pathText (path : List PathSegment) : List Char :=
  path.flatMap PathSegment.text

theorem PathSegment.isPathCharacter (segment : PathSegment) :
    ∀ character ∈ segment.text, IsPathCharacter character := by
  simp only [text, word, List.mem_append, List.mem_cons, List.not_mem_nil, or_false]
  rintro character ((((rfl | letter) | blank) | colon) | blank)
  · exact .inl (isWord_of_isPathStart segment.isPathStart_first)
  · exact .inl (segment.isWord_letters character letter)
  · exact .inr (.inl (segment.isBlank_blanks character blank))
  · exact .inr (.inr (colon.elim id id))
  · exact .inr (.inl (segment.isBlank_gap character blank))

theorem isPathCharacter_of_mem_pathText {path : List PathSegment} {character : Char}
    (member : character ∈ pathText path) : IsPathCharacter character := by
  obtain ⟨segment, -, inside⟩ := List.mem_flatMap.1 member
  exact segment.isPathCharacter character inside

/-- A path segment at the start of a text is read up to the blanks behind its colons. -/
theorem exists_segment_of_afterPathSegment? {text rest gap start : List Char}
    (found : afterPathSegment? text = some rest) (split : rest = gap ++ start)
    (allBlank : ∀ blank ∈ gap, Text.isBlank blank = true) :
    ∃ segment : PathSegment, text = segment.text ++ start := by
  unfold afterPathSegment? at found
  split at found
  · simp at found
  · next first tail =>
      split at found
      · next starts =>
          split at found
          · next after trimmed =>
              obtain rfl := Option.some.inj found
              obtain ⟨blanks, parts, blankBefore⟩ :=
                Text.exists_append_trimStart (tail.dropWhile Text.isWord)
              rw [trimmed, split] at parts
              refine ⟨⟨first, tail.takeWhile Text.isWord, blanks, gap, starts,
                List.all_eq_true.1 List.all_takeWhile, blankBefore, allBlank⟩, ?_⟩
              calc
                first :: tail =
                    first :: (tail.takeWhile Text.isWord ++ tail.dropWhile Text.isWord) := by
                  rw [List.takeWhile_append_dropWhile]
                _ = _ := by simp [parts, PathSegment.text, PathSegment.word]
          · simp at found
      · simp at found

theorem exists_blanks_of_mem_blankStarts {text start : List Char}
    (member : start ∈ blankStarts text) :
    ∃ blanks, text = blanks ++ start ∧ ∀ blank ∈ blanks, Text.isBlank blank = true := by
  induction text with
  | nil => simp [blankStarts] at member
  | cons first rest ih =>
      simp only [blankStarts] at member
      split at member
      · next blank =>
          rcases List.mem_append.1 member with inner | last
          · obtain ⟨blanks, rfl, allBlank⟩ := ih inner
            exact ⟨first :: blanks, rfl, by simpa [blank] using allBlank⟩
          · exact ⟨[], (List.mem_singleton.1 last).symm, by simp⟩
      · simp at member

theorem exists_path_of_mem_nameStarts {text start : List Char}
    (member : start ∈ nameStarts text) : ∃ path, text = pathText path ++ start := by
  fun_induction nameStarts text with
  | case1 text _ => exact ⟨[], (List.mem_singleton.1 member).symm⟩
  | case2 text after found ih =>
      simp only [List.mem_append, List.mem_singleton] at member
      rcases member with (inner | blank) | rfl
      · obtain ⟨gap, split, allBlank⟩ := Text.exists_append_trimStart after
        obtain ⟨path, trimmed⟩ := ih inner
        obtain ⟨segment, rfl⟩ := exists_segment_of_afterPathSegment? found split allBlank
        exact ⟨segment :: path, by rw [trimmed]; simp [pathText]⟩
      · obtain ⟨gap, split, allBlank⟩ := exists_blanks_of_mem_blankStarts blank
        obtain ⟨segment, rfl⟩ := exists_segment_of_afterPathSegment? found split allBlank
        exact ⟨[segment], by simp [pathText]⟩
      · exact ⟨[], rfl⟩

/-- An open site consists of a path, the name, `!` and the opening delimiter. -/
theorem exists_head_of_open? {name text inside : List Char} {previous : Option Char}
    {bracket : Bracket} (opened : open? name previous text = some (bracket, inside)) :
    ∃ path before behind, (∀ blank ∈ before, Text.isBlank blank = true) ∧
      (∀ blank ∈ behind, Text.isBlank blank = true) ∧
      text = (pathText path ++ name ++ before ++ '!' :: behind) ++ bracket.opening :: inside := by
  simp only [open?] at opened
  split at opened
  · obtain ⟨start, member, named⟩ := List.exists_of_findSome?_eq_some opened
    obtain ⟨path, rfl⟩ := exists_path_of_mem_nameStarts member
    obtain ⟨before, behind, blankBefore, blankBehind, rfl⟩ := afterName?_eq_some_iff.1 named
    exact ⟨path, before, behind, blankBefore, blankBehind, by simp⟩
  · simp at opened

/-! ### Heads are quiet -/

/-- The marks and the delimiters. -/
def loudCharacters : List Char :=
  Literal.marks ++ ['(', '[', '\x7b', ')', ']', '\x7d']

/-- The characters of a class without marks and delimiters are quiet. -/
theorem isQuiet_of_class {isMember : Char → Bool}
    (silent : loudCharacters.any isMember = false) {character : Char}
    (member : isMember character = true) : Delimiter.IsQuiet character := by
  have quiet : character ∉ loudCharacters := by
    intro loud
    exact List.any_eq_false.1 silent character loud member
  simp only [loudCharacters, List.mem_append, List.mem_cons, List.not_mem_nil, or_false,
    not_or] at quiet
  obtain ⟨unmarked, round, square, curly, roundEnd, squareEnd, curlyEnd⟩ := quiet
  refine ⟨unmarked, ?_, ?_⟩
  · simp [Bracket.ofOpening?, Bracket.opening, Ne.symm round, Ne.symm square, Ne.symm curly]
  · simp [Bracket.ofClosing?, Bracket.closing, Ne.symm roundEnd, Ne.symm squareEnd,
      Ne.symm curlyEnd]

theorem isQuiet_of_isPathCharacter {character : Char} (inPath : IsPathCharacter character) :
    Delimiter.IsQuiet character := by
  rcases inPath with word | blank | rfl
  · exact isQuiet_of_class (by decide) word
  · exact isQuiet_of_class (by decide) blank
  · exact ⟨by decide, by decide, by decide⟩

theorem isQuiet_of_isName {name : String} (isName : Text.isName name = true) {character : Char}
    (member : character ∈ name.toList) : Delimiter.IsQuiet character :=
  isQuiet_of_class (by decide +kernel) (Text.isNamePart_of_isName isName member)

/-- No comment, literal or delimiter starts in the head of a site. -/
theorem isQuiet_head_of_open? {name : String} (isName : Text.isName name = true)
    {text head inside : List Char} {previous : Option Char} {bracket : Bracket}
    (opened : open? name.toList previous text = some (bracket, inside))
    (split : text = head ++ bracket.opening :: inside) :
    ∀ character ∈ head, Delimiter.IsQuiet character := by
  obtain ⟨path, before, behind, blankBefore, blankBehind, whole⟩ := exists_head_of_open? opened
  obtain rfl : head = pathText path ++ name.toList ++ before ++ '!' :: behind :=
    List.append_cancel_right (split.symm.trans whole)
  simp only [List.mem_append, List.mem_cons]
  rintro character (((inPath | named) | blank) | rfl | blank)
  · exact isQuiet_of_isPathCharacter (isPathCharacter_of_mem_pathText inPath)
  · exact isQuiet_of_isName isName named
  · exact isQuiet_of_isPathCharacter (.inr (.inl (blankBefore character blank)))
  · exact ⟨by decide, by decide, by decide⟩
  · exact isQuiet_of_isPathCharacter (.inr (.inl (blankBehind character blank)))

/-! ### Cutting behind a head -/

/-- A character that ends paths keeps a scan for their parts from passing a later cut. -/
theorem dropWhile_append_of_mem (isPart : Char → Bool) {stop : Char} (stops : isPart stop = false)
    {text : List Char} (member : stop ∈ text) (more : List Char) :
    (text ++ more).dropWhile isPart = text.dropWhile isPart ++ more ∧
      stop ∈ text.dropWhile isPart := by
  induction text with
  | nil => simp at member
  | cons first text ih =>
      cases part : isPart first with
      | false => simp [part, member]
      | true =>
          have later : stop ∈ text := by
            rcases List.mem_cons.1 member with rfl | later
            · simp [stops] at part
            · exact later
          simpa [part] using ih later

/-- The text after the `::` at the start of a text, if it starts so. -/
private def afterColons? : List Char → Option (List Char)
  | ':' :: ':' :: after => some after
  | _ => none

private theorem afterColons?_append {text : List Char} (member : '!' ∈ text) (more : List Char) :
    afterColons? (text ++ more) = (afterColons? text).map (· ++ more) ∧
      ∀ rest, afterColons? text = some rest → '!' ∈ rest := by
  match text with
  | [] => simp at member
  | [first] =>
      obtain rfl := List.mem_singleton.1 member
      simp [afterColons?]
  | first :: second :: text =>
      by_cases colons : first = ':' ∧ second = ':'
      · obtain ⟨rfl, rfl⟩ := colons
        simpa [afterColons?] using member
      · have missing : ∀ rest, afterColons? (first :: second :: rest) = none := by
          intro rest
          rw [afterColons?]
          intro after same
          simp_all
        simp [missing]

theorem afterPathSegment?_append {text : List Char} (member : '!' ∈ text) (more : List Char) :
    afterPathSegment? (text ++ more) = (afterPathSegment? text).map (· ++ more) ∧
      ∀ rest, afterPathSegment? text = some rest → '!' ∈ rest := by
  cases text with
  | nil => simp at member
  | cons first text =>
      cases starts : isPathStart first with
      | false => simp [afterPathSegment?, starts]
      | true =>
          have later : '!' ∈ text := by
            rcases List.mem_cons.1 member with rfl | later
            · simp [isPathStart] at starts
            · exact later
          obtain ⟨words, inWords⟩ := dropWhile_append_of_mem Text.isWord (by decide) later more
          obtain ⟨blanks, inBlanks⟩ :=
            dropWhile_append_of_mem Text.isBlank (by decide) inWords more
          have unfolded : ∀ rest, afterPathSegment? (first :: rest) =
              afterColons? (Text.trimStart (rest.dropWhile Text.isWord)) := by
            intro rest
            rw [afterPathSegment?, if_pos starts]
            rfl
          rw [List.cons_append, unfolded, unfolded, words, Text.trimStart, blanks]
          exact afterColons?_append inBlanks more

theorem blankStarts_append {text : List Char} (member : '!' ∈ text) (more : List Char) :
    blankStarts (text ++ more) = (blankStarts text).map (· ++ more) := by
  induction text with
  | nil => simp at member
  | cons first text ih =>
      cases blank : Text.isBlank first with
      | false => simp [blankStarts, blank]
      | true =>
          have later : '!' ∈ text := by
            rcases List.mem_cons.1 member with rfl | later
            · simp [Text.isBlank] at blank
            · exact later
          simp [blankStarts, blank, ih later]

theorem nameStarts_of_eq_none {text : List Char} (missing : afterPathSegment? text = none) :
    nameStarts text = [text] := by
  rw [nameStarts.eq_def]
  split
  · rfl
  · next after found => simp [missing] at found

theorem nameStarts_of_eq_some {text after : List Char}
    (found : afterPathSegment? text = some after) :
    nameStarts text = nameStarts (Text.trimStart after) ++ blankStarts after ++ [text] := by
  rw [nameStarts.eq_def]
  split
  · next missing => simp [found] at missing
  · next other same =>
      obtain rfl : after = other := Option.some.inj (found.symm.trans same)
      rfl

theorem nameStarts_append {text : List Char} (member : '!' ∈ text) (more : List Char) :
    nameStarts (text ++ more) = (nameStarts text).map (· ++ more) := by
  fun_induction nameStarts text with
  | case1 text missing =>
      have longer := (afterPathSegment?_append member more).1
      rw [missing, Option.map_none] at longer
      rw [nameStarts_of_eq_none longer]
      rfl
  | case2 text after found ih =>
      obtain ⟨longer, inAfter⟩ := afterPathSegment?_append member more
      have afterMember := inAfter after found
      rw [found, Option.map_some] at longer
      obtain ⟨trimmed, inTrimmed⟩ :=
        dropWhile_append_of_mem Text.isBlank (by decide) afterMember more
      rw [nameStarts_of_eq_some longer, Text.trimStart, trimmed, blankStarts_append afterMember]
      rw [Text.trimStart] at ih
      simp [ih inTrimmed, Text.trimStart]

/-- A name that is followed by `!` and a delimiter before the cut is so in the front part. -/
theorem afterName?_of_append {name text inside more : List Char} {bracket : Bracket}
    (found : afterName? name (text ++ more) = some (bracket, inside ++ more)) :
    afterName? name text = some (bracket, inside) := by
  obtain ⟨before, behind, blankBefore, blankBehind, same⟩ := afterName?_eq_some_iff.1 found
  have whole : text ++ more =
      name ++ before ++ '!' :: behind ++ bracket.opening :: inside ++ more := by
    rw [same]
    simp
  exact afterName?_eq_some_iff.2
    ⟨before, behind, blankBefore, blankBehind, List.append_cancel_right whole⟩

theorem afterName?_none_of_append {name text more : List Char}
    (missing : afterName? name (text ++ more) = none) : afterName? name text = none := by
  cases found : afterName? name text with
  | none => rfl
  | some result =>
      obtain ⟨bracket, inside⟩ := result
      obtain ⟨before, behind, blankBefore, blankBehind, rfl⟩ := afterName?_eq_some_iff.1 found
      have longer : afterName? name
          (name ++ before ++ '!' :: behind ++ bracket.opening :: inside ++ more) =
            some (bracket, inside ++ more) :=
        afterName?_eq_some_iff.2 ⟨before, behind, blankBefore, blankBehind, by simp⟩
      rw [missing] at longer
      simp at longer

private theorem findSome?_afterName?_of_append {name inside more : List Char} {bracket : Bracket}
    {starts : List (List Char)}
    (found : (starts.map (· ++ more)).findSome? (afterName? name) =
      some (bracket, inside ++ more)) :
    starts.findSome? (afterName? name) = some (bracket, inside) := by
  induction starts with
  | nil => simp at found
  | cons start starts ih =>
      rw [List.map_cons, List.findSome?_cons] at found
      rw [List.findSome?_cons]
      split at found
      · next result named =>
          obtain rfl := Option.some.inj found
          rw [afterName?_of_append named]
      · next missing =>
          rw [afterName?_none_of_append missing]
          exact ih found

/-- Whether a site is open depends on nothing behind its opening delimiter, and on the character
before it only in that a site may follow it. -/
theorem open?_of_append {name text inside more : List Char} {previous other : Option Char}
    {bracket : Bracket} (member : '!' ∈ text) (follows : mayFollow other = true)
    (opened : open? name previous (text ++ more) = some (bracket, inside ++ more)) :
    open? name other text = some (bracket, inside) := by
  simp only [open?] at opened ⊢
  split at opened
  · rw [nameStarts_append member more] at opened
    rw [if_pos follows]
    exact findSome?_afterName?_of_append opened
  · simp at opened

end Site

end ClosureCapture
