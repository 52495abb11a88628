import ClosureCapture.Delimiter
import ClosureCapture.Text.Line

/-!
# Invocation sites

A site is a macro name, possibly behind a path, with `!` and delimited arguments; blanks may
stand between its parts. It starts where no word character and no colon stands before it. A
source text is cut into segments: sites, comments and literals, and single characters of code.
Cutting fails when the delimiters of a site do not match or are never closed.
-/

namespace ClosureCapture

/-- An invocation: the text up to its opening delimiter, the delimiters, and what they hold. -/
structure Site where
  head : List Char
  bracket : Bracket
  arguments : List Char
  deriving DecidableEq, Repr

/-- The text of a site. -/
def Site.text (site : Site) : List Char :=
  site.head ++ site.bracket.opening :: site.arguments ++ [site.bracket.closing]

/-- A piece of a source text. -/
inductive Segment where
  | code (character : Char)
  | literal (text : List Char)
  | site (call : Site)
  deriving DecidableEq, Repr

/-- The text of a segment. -/
def Segment.text : Segment → List Char
  | .code character => [character]
  | .literal text => text
  | .site call => call.text

namespace Site

/-- Whether a character can start a segment of a path. -/
def isPathStart (character : Char) : Bool :=
  character.isAlpha || character == '_'

/-- The text after the `::` of the path segment at the start of a text, if there is one. -/
def afterPathSegment? : List Char → Option (List Char)
  | [] => none
  | first :: rest =>
      if isPathStart first then
        match Text.trimStart (rest.dropWhile Text.isWord) with
        | ':' :: ':' :: after => some after
        | _ => none
      else none

theorem afterPathSegment?_length_lt {text rest : List Char}
    (found : afterPathSegment? text = some rest) : rest.length < text.length := by
  unfold afterPathSegment? at found
  split at found
  · simp at found
  · next first tail =>
      split at found
      · split at found
        · next after trimmed =>
            obtain rfl := Option.some.inj found
            have outer := Text.trimStart_length_le (tail.dropWhile Text.isWord)
            have inner := (List.dropWhile_suffix (l := tail) Text.isWord).length_le
            rw [trimmed] at outer
            simp only [List.length_cons] at outer ⊢
            omega
        · simp at found
      · simp at found

/-- The suffixes of a text that start with one of its leading blanks, the shortest first. -/
def blankStarts : List Char → List (List Char)
  | [] => []
  | first :: rest => if Text.isBlank first then blankStarts rest ++ [first :: rest] else []

/-- The places where the macro name can start, behind any number of path segments: more
segments and more blanks come first. -/
def nameStarts (text : List Char) : List (List Char) :=
  match _found : afterPathSegment? text with
  | none => [text]
  | some after => nameStarts (Text.trimStart after) ++ blankStarts after ++ [text]
termination_by text.length
decreasing_by
  exact Nat.lt_of_le_of_lt (Text.trimStart_length_le after) (afterPathSegment?_length_lt _found)

/-- The delimiters and the text after the opening one, when a text starts with the macro name,
`!` and an opening delimiter. -/
def afterName? (name text : List Char) : Option (Bracket × List Char) :=
  if name.isPrefixOf text then
    match Text.trimStart (text.drop name.length) with
    | '!' :: rest =>
        match Text.trimStart rest with
        | delimiter :: inside => (Bracket.ofOpening? delimiter).map (·, inside)
        | [] => none
    | _ => none
  else none

/-- Whether a site may start after a character. -/
def mayFollow (previous : Option Char) : Bool :=
  previous.all fun character => !Text.isWord character && character != ':'

/-- The delimiters of the site at the start of a text and the text after the opening one, given
the character before the text. -/
def open? (name : List Char) (previous : Option Char) (text : List Char) :
    Option (Bracket × List Char) :=
  if mayFollow previous then (nameStarts text).findSome? (afterName? name) else none

theorem nameStarts_length_le {text start : List Char} (member : start ∈ nameStarts text) :
    start.length ≤ text.length := by
  have blanks : ∀ {text start : List Char}, start ∈ blankStarts text →
      start.length ≤ text.length := by
    intro text
    induction text with
    | nil => simp [blankStarts]
    | cons first rest ih =>
        intro start member
        simp only [blankStarts] at member
        split at member
        · rcases List.mem_append.1 member with inner | last
          · exact Nat.le_succ_of_le (ih inner)
          · simp [List.mem_singleton.1 last]
        · simp at member
  fun_induction nameStarts text with
  | case1 text _ => simp [List.mem_singleton.1 member]
  | case2 text after found ih =>
      have shorter := afterPathSegment?_length_lt found
      have trimmed := Text.trimStart_length_le after
      simp only [List.mem_append, List.mem_singleton] at member
      rcases member with (inner | blank) | rfl
      · have := ih inner; omega
      · have := blanks blank; omega
      · exact Nat.le_refl _

theorem afterName?_length_lt {name text : List Char} {result : Bracket × List Char}
    (found : afterName? name text = some result) : result.2.length < text.length := by
  simp only [afterName?] at found
  split at found
  · split at found
    · next rest trimmed =>
        split at found
        · next delimiter inside opened =>
            cases bracket : Bracket.ofOpening? delimiter with
            | none => simp [bracket] at found
            | some pair =>
                simp only [bracket, Option.map_some, Option.some.injEq] at found
                subst found
                have first := Text.trimStart_length_le (text.drop name.length)
                have second := Text.trimStart_length_le rest
                simp only [trimmed, opened, List.length_cons, List.length_drop] at first second ⊢
                omega
        · simp at found
    · simp at found
  · simp at found

theorem open?_length_lt {name text : List Char} {previous : Option Char}
    {result : Bracket × List Char} (found : open? name previous text = some result) :
    result.2.length < text.length := by
  simp only [open?] at found
  split at found
  · obtain ⟨start, member, named⟩ := List.exists_of_findSome?_eq_some found
    exact Nat.lt_of_lt_of_le (afterName?_length_lt named) (nameStarts_length_le member)
  · simp at found

end Site

namespace Segment

/-- The segments of the rest of a source text, given the offset and the line of its first
character and the character before it. -/
def scanFrom (name : List Char) (offset line : Nat) (previous : Option Char)
    (text : List Char) : Except SiteFault (List Segment) :=
  match text with
  | [] => .ok []
  | first :: rest =>
      match _skipped : Literal.after? previous (first :: rest) with
      | some after =>
          let passed := (first :: rest).take ((first :: rest).length - after.length)
          (scanFrom name (offset + passed.length) (line + Text.newlines passed)
            passed.getLast? after).map (.literal passed :: ·)
      | none =>
          match _opened : Site.open? name previous (first :: rest) with
          | none =>
              (scanFrom name (offset + 1) (line + Text.newlines [first]) (some first)
                rest).map (.code first :: ·)
          | some (bracket, inside) =>
              let head := (first :: rest).take (rest.length - inside.length)
              let opening := offset + head.length
              match Delimiter.closeAt bracket opening line inside with
              | .error fault => .error fault
              | .ok stop =>
                  let call : Site := ⟨head, bracket, inside.take (stop - (opening + 1))⟩
                  (scanFrom name (offset + call.text.length)
                    (line + Text.newlines call.text) (some bracket.closing)
                    (inside.drop (stop - opening))).map (.site call :: ·)
termination_by text.length
decreasing_by
  · exact Literal.after?_length_lt _skipped
  · simp
  · have inner := Site.open?_length_lt _opened
    simp only [List.length_drop] at inner ⊢
    omega

/-- The segments of a source text. -/
def scan (name source : List Char) : Except SiteFault (List Segment) :=
  scanFrom name 0 1 none source

end Segment

/-- A site with its place in a source text. -/
structure Invocation where
  start : Nat
  line : Nat
  site : Site
  deriving DecidableEq, Repr

/-- The offset after an invocation. -/
def Invocation.stop (invocation : Invocation) : Nat :=
  invocation.start + invocation.site.text.length

/-- The sites among segments, the first of which stands at the given offset and line. -/
def Invocation.ofSegments (offset line : Nat) : List Segment → List Invocation
  | [] => []
  | segment :: rest =>
      let later := ofSegments (offset + segment.text.length)
        (line + Text.newlines segment.text) rest
      match segment with
      | .site call => ⟨offset, line, call⟩ :: later
      | _ => later

/-- The outermost sites of a source text. -/
def Invocation.find (name source : List Char) : Except SiteFault (List Invocation) :=
  (Segment.scan name source).map (ofSegments 0 1)

end ClosureCapture
