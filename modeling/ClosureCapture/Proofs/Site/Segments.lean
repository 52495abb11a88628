import ClosureCapture.Proofs.Site.Head

/-!
# The segments of a source text

Scanning cuts one segment after another off a source text.  What one cut does is stated once, by
the segment that is cut off, the character before it and the text that remains; the segments of a
whole text are those of a sequence of cuts.  A scan fails exactly when a sequence of cuts leads to
a broken site, which is a site whose delimiters do not match or are never closed.
-/

namespace ClosureCapture

/-- A site that is closed before the remaining text, given the character before it. -/
structure Site.ClosedBefore (name : List Char) (previous : Option Char) (rest : List Char)
    (call : Site) : Prop where
  code : Literal.after? previous (call.text ++ rest) = none
  opened : Site.open? name previous (call.text ++ rest) =
    some (call.bracket, call.arguments ++ call.bracket.closing :: rest)
  closed : Delimiter.close call.bracket [] (some call.bracket.opening)
    (call.arguments ++ call.bracket.closing :: rest) = .ok (call.bracket.closing :: rest)

theorem Site.ClosedBefore.exists_head {name rest : List Char} {previous : Option Char}
    {call : Site} (closedBefore : call.ClosedBefore name previous rest) :
    ∃ path blanks gap, (∀ blank ∈ blanks, Text.isBlank blank = true) ∧
      (∀ blank ∈ gap, Text.isBlank blank = true) ∧
      call.head = Site.pathText path ++ name ++ blanks ++ '!' :: gap := by
  obtain ⟨path, blanks, gap, blankBefore, blankBehind, whole⟩ :=
    Site.exists_head_of_open? closedBefore.opened
  refine ⟨path, blanks, gap, blankBefore, blankBehind, List.append_cancel_right (Eq.trans ?_ whole)⟩
  simp [Site.text]

/-- A text that starts with a site whose delimiters do not match or are never closed. -/
def Site.Broken (name : List Char) (previous : Option Char) (text : List Char) : Prop :=
  Literal.after? previous text = none ∧ ∃ bracket inside fault,
    Site.open? name previous text = some (bracket, inside) ∧
      Delimiter.close bracket [] (some bracket.opening) inside = .error fault

namespace Segment

/-- Scanning cuts a segment off when the remaining text follows it, given the character before
it. -/
def CutBefore (name : List Char) (previous : Option Char) (rest : List Char) : Segment → Prop
  | .literal passed => passed ≠ [] ∧ Literal.after? previous (passed ++ rest) = some rest
  | .code character =>
      Literal.after? previous (character :: rest) = none ∧
        Site.open? name previous (character :: rest) = none
  | .site call => call.ClosedBefore name previous rest

/-- Scanning cuts segments off, one after another, up to the remaining text. -/
def CutTo (name : List Char) (rest : List Char) : Option Char → List Segment → Prop
  | _, [] => True
  | previous, segment :: others =>
      segment.CutBefore name previous (others.flatMap Segment.text ++ rest) ∧
        CutTo name rest segment.text.getLast? others

theorem text_ne_nil_of_cutBefore {name rest : List Char} {previous : Option Char}
    {segment : Segment} (cut : segment.CutBefore name previous rest) : segment.text ≠ [] := by
  cases segment with
  | literal passed => exact cut.1
  | code character => simp [text]
  | site call => simp [text, Site.text]

/-! ### One cut -/

theorem scanFrom_nil (name : List Char) (offset line : Nat) (previous : Option Char) :
    scanFrom name offset line previous [] = .ok [] := by
  rw [scanFrom]

theorem scanFrom_literal {name : List Char} {previous : Option Char} {first : Char}
    {tail passed rest : List Char} (whole : first :: tail = passed ++ rest)
    (skipped : Literal.after? previous (first :: tail) = some rest) (offset line : Nat) :
    scanFrom name offset line previous (first :: tail) =
      (scanFrom name (offset + passed.length) (line + Text.newlines passed)
        passed.getLast? rest).map (.literal passed :: ·) := by
  have taken : (first :: tail).take ((first :: tail).length - rest.length) = passed := by
    rw [whole]
    simp
  rw [scanFrom.eq_def]
  simp only
  split
  · next after found =>
      obtain rfl : rest = after := Option.some.inj (skipped.symm.trans found)
      simp only [taken]
  · next missing => simp [skipped] at missing

theorem scanFrom_code {name : List Char} {previous : Option Char} {first : Char}
    {tail : List Char} (code : Literal.after? previous (first :: tail) = none)
    (unopened : Site.open? name previous (first :: tail) = none) (offset line : Nat) :
    scanFrom name offset line previous (first :: tail) =
      (scanFrom name (offset + 1) (line + Text.newlines [first]) (some first) tail).map
        (.code first :: ·) := by
  rw [scanFrom.eq_def]
  simp only
  split
  · next after found => simp [code] at found
  · split
    · rfl
    · next bracket inside found => simp [unopened] at found

/-- The scan takes its faults, and where its sites end, from the search behind their opening
delimiters. -/
theorem scanFrom_of_open {name : List Char} {previous : Option Char} {first : Char}
    {tail inside : List Char} {bracket : Bracket}
    (code : Literal.after? previous (first :: tail) = none)
    (opened : Site.open? name previous (first :: tail) = some (bracket, inside))
    (offset line : Nat) :
    scanFrom name offset line previous (first :: tail) =
      (Delimiter.closeAt bracket (offset + (tail.length - inside.length)) line inside).bind
        fun stop =>
          let call : Site := ⟨(first :: tail).take (tail.length - inside.length), bracket,
            inside.take (stop - (offset + (tail.length - inside.length) + 1))⟩
          (scanFrom name (offset + call.text.length) (line + Text.newlines call.text)
            (some bracket.closing)
            (inside.drop (stop - (offset + (tail.length - inside.length))))).map
              (.site call :: ·) := by
  have behind := Site.open?_length_lt opened
  simp only [List.length_cons] at behind
  have headLength : ((first :: tail).take (tail.length - inside.length)).length =
      tail.length - inside.length := by
    rw [List.length_take, List.length_cons]
    omega
  rw [scanFrom.eq_def]
  simp only
  split
  · next after found => simp [code] at found
  split
  · next missing => simp [opened] at missing
  next other otherInside found =>
  obtain ⟨rfl, rfl⟩ : bracket = other ∧ inside = otherInside := by simpa [opened] using found
  rw [headLength]
  split
  · next fault failed =>
      rw [failed]
      rfl
  · next stop closed =>
      rw [closed]
      rfl

theorem scanFrom_site {name : List Char} {previous : Option Char} {first : Char}
    {tail rest : List Char} {call : Site} (whole : first :: tail = call.text ++ rest)
    (closedBefore : call.ClosedBefore name previous rest) (offset line : Nat) :
    scanFrom name offset line previous (first :: tail) =
      (scanFrom name (offset + call.text.length) (line + Text.newlines call.text)
        (some call.bracket.closing) rest).map (.site call :: ·) := by
  obtain ⟨head, bracket, arguments⟩ := call
  obtain ⟨code, opened, closed⟩ := closedBefore
  rw [← whole] at code opened
  simp only at opened closed
  have lengths := congrArg List.length whole
  simp only [Site.text, List.length_cons, List.length_append, List.length_nil] at lengths
  have headLength : tail.length - (arguments ++ bracket.closing :: rest).length = head.length := by
    simp only [List.length_append, List.length_cons]
    omega
  have headTaken : (first :: tail).take head.length = head := by
    rw [whole]
    simp [Site.text]
  -- The search stops as far behind the opening delimiter as the arguments are long.
  have stop : (arguments ++ bracket.closing :: rest).length - (bracket.closing :: rest).length =
      arguments.length := by
    simp
  have passed : offset + head.length + 1 + arguments.length - (offset + head.length) =
      arguments.length + 1 := by
    omega
  rw [scanFrom_of_open code opened, headLength, Delimiter.closeAt, closed, headTaken]
  simp only [Except.bind, stop, passed, Nat.add_sub_cancel_left, List.take_left]
  simp

/-- The fault of a broken site lies inside it. -/
theorem scanFrom_broken {name : List Char} {previous : Option Char} {text : List Char}
    (broken : Site.Broken name previous text) (offset line : Nat) :
    ∃ fault, scanFrom name offset line previous text = .error fault ∧
      offset ≤ fault.offset := by
  obtain ⟨code, bracket, inside, fault, opened, failed⟩ := broken
  cases text with
  | nil =>
      have shorter := Site.open?_length_lt opened
      simp at shorter
  | cons first tail =>
      rw [scanFrom_of_open code opened, Delimiter.closeAt, failed]
      cases fault with
      | mismatch expected found remaining =>
          refine ⟨_, rfl, ?_⟩
          simp only [SiteFault.offset]
          omega
      | unclosed => exact ⟨_, rfl, Nat.le_add_right offset _⟩

theorem scanFrom_cut {name rest : List Char} {previous : Option Char} {segment : Segment}
    (cut : segment.CutBefore name previous rest) (offset line : Nat) :
    scanFrom name offset line previous (segment.text ++ rest) =
      (scanFrom name (offset + segment.text.length) (line + Text.newlines segment.text)
        segment.text.getLast? rest).map (segment :: ·) := by
  obtain ⟨first, tail, whole⟩ := List.exists_cons_of_ne_nil
    (List.append_ne_nil_of_left_ne_nil (text_ne_nil_of_cutBefore cut) rest)
  rw [whole]
  cases segment with
  | literal passed => exact scanFrom_literal whole.symm (whole ▸ cut.2) offset line
  | code character =>
      obtain ⟨rfl, rfl⟩ := List.cons.inj whole
      exact scanFrom_code cut.1 cut.2 offset line
  | site call =>
      have last : (Segment.site call).text.getLast? = some call.bracket.closing :=
        List.getLast?_concat
      rw [last]
      exact scanFrom_site whole.symm cut offset line

/-- A text that is not empty starts with a segment or with a broken site. -/
theorem exists_cutBefore_or_broken (name : List Char) (previous : Option Char) {text : List Char}
    (nonempty : text ≠ []) :
    (∃ (segment : Segment) (rest : List Char), text = segment.text ++ rest ∧
      segment.CutBefore name previous rest) ∨ Site.Broken name previous text := by
  cases skipped : Literal.after? previous text with
  | some rest =>
      obtain ⟨passed, rfl⟩ := Literal.after?_suffix skipped
      refine .inl ⟨.literal passed, rest, rfl, ?_, skipped⟩
      rintro rfl
      exact Nat.lt_irrefl _ (Literal.after?_length_lt skipped)
  | none =>
  cases opened : Site.open? name previous text with
  | none =>
      obtain ⟨first, tail, rfl⟩ := List.exists_cons_of_ne_nil nonempty
      exact .inl ⟨.code first, tail, rfl, skipped, opened⟩
  | some found =>
  obtain ⟨bracket, inside⟩ := found
  cases closed : Delimiter.close bracket [] (some bracket.opening) inside with
  | error fault => exact .inr ⟨skipped, bracket, inside, fault, opened, closed⟩
  | ok closing =>
      obtain ⟨⟨arguments, split⟩, last⟩ := Delimiter.close_eq_ok closed
      obtain ⟨rest, rfl⟩ : ∃ rest, closing = bracket.closing :: rest := by
        cases closing with
        | nil => simp at last
        | cons delimiter rest => exact ⟨rest, by simpa using last⟩
      obtain ⟨path, before, behind, -, -, whole⟩ := Site.exists_head_of_open? opened
      subst split
      generalize Site.pathText path ++ name ++ before ++ '!' :: behind = head at whole
      have parts : text = (Site.mk head bracket arguments).text ++ rest := by
        simp [Site.text, whole]
      refine .inl ⟨.site ⟨head, bracket, arguments⟩, rest, parts, ?_, ?_, closed⟩
      · rw [← parts]
        exact skipped
      · rw [← parts]
        exact opened

/-! ### A sequence of cuts -/

/-- The character before the text that remains after some segments. -/
def lastBefore (previous : Option Char) (segments : List Segment) : Option Char :=
  (segments.flatMap Segment.text).getLast?.or previous

theorem lastBefore_cons {segment : Segment} (nonempty : segment.text ≠ [])
    (previous : Option Char) (segments : List Segment) :
    lastBefore previous (segment :: segments) = lastBefore segment.text.getLast? segments := by
  have isLast := List.getLast?_eq_some_getLast nonempty
  rw [lastBefore, lastBefore, List.flatMap_cons, List.getLast?_append, Option.or_assoc, isLast]
  rfl

theorem scanFrom_cutTo {name rest : List Char} {previous : Option Char} {segments : List Segment}
    (cuts : CutTo name rest previous segments) (offset line : Nat) :
    scanFrom name offset line previous (segments.flatMap Segment.text ++ rest) =
      (scanFrom name (offset + (segments.flatMap Segment.text).length)
        (line + Text.newlines (segments.flatMap Segment.text))
        (lastBefore previous segments) rest).map (segments ++ ·) := by
  induction segments generalizing previous offset line with
  | nil =>
      simp only [List.flatMap_nil, List.nil_append, List.length_nil, Nat.add_zero, lastBefore,
        List.getLast?_nil, Option.none_or, Text.newlines, List.count_nil]
      cases scanFrom name offset line previous rest <;> rfl
  | cons segment segments ih =>
      obtain ⟨cut, later⟩ := cuts
      rw [List.flatMap_cons, List.append_assoc, scanFrom_cut cut, ih later,
        lastBefore_cons (text_ne_nil_of_cutBefore cut)]
      simp only [List.length_append, Text.newlines, List.count_append, Nat.add_assoc]
      cases scanFrom _ _ _ _ rest <;> rfl

/-- Every text is cut into segments up to its end or up to a broken site. -/
theorem exists_cutTo (name : List Char) (previous : Option Char) (text : List Char) :
    ∃ segments rest, text = segments.flatMap Segment.text ++ rest ∧
      CutTo name rest previous segments ∧
      (rest = [] ∨ Site.Broken name (lastBefore previous segments) rest) := by
  -- Each cut takes at least one character, so that the texts left to cut get shorter.
  induction size : text.length using Nat.strongRecOn generalizing previous text with
  | ind length ih =>
  by_cases empty : text = []
  · exact ⟨[], [], by simp [empty], trivial, .inl rfl⟩
  rcases exists_cutBefore_or_broken name previous empty with ⟨segment, rest, rfl, cut⟩ | broken
  · have nonempty := text_ne_nil_of_cutBefore cut
    have shorter : rest.length < length := by
      have positive := List.length_pos_iff.2 nonempty
      rw [List.length_append] at size
      omega
    obtain ⟨segments, remaining, rfl, cuts, ending⟩ :=
      ih rest.length shorter segment.text.getLast? rest rfl
    refine ⟨segment :: segments, remaining, by simp, ⟨cut, cuts⟩, ?_⟩
    rw [lastBefore_cons nonempty]
    exact ending
  · exact ⟨[], text, rfl, trivial, .inr broken⟩

theorem scanFrom_eq_ok_iff {name text : List Char} {offset line : Nat} {previous : Option Char}
    {segments : List Segment} :
    scanFrom name offset line previous text = .ok segments ↔
      text = segments.flatMap Segment.text ∧ CutTo name [] previous segments := by
  constructor
  · intro scanned
    obtain ⟨others, rest, rfl, cuts, rfl | broken⟩ := exists_cutTo name previous text
    · rw [scanFrom_cutTo cuts, scanFrom_nil] at scanned
      obtain rfl : others = segments := by simpa [Except.map] using scanned
      exact ⟨List.append_nil _, cuts⟩
    · obtain ⟨fault, failed, -⟩ := scanFrom_broken broken
        (offset + (others.flatMap Segment.text).length)
        (line + Text.newlines (others.flatMap Segment.text))
      rw [scanFrom_cutTo cuts, failed] at scanned
      simp [Except.map] at scanned
  · rintro ⟨rfl, cuts⟩
    have scanned := scanFrom_cutTo cuts offset line
    rw [scanFrom_nil, List.append_nil] at scanned
    rw [scanned]
    simp [Except.map]

/-- Cuts of a text, given the character before it, lead to a broken site. -/
def ReachesBroken (name : List Char) (previous : Option Char) (text : List Char) : Prop :=
  ∃ segments rest, text = segments.flatMap Segment.text ++ rest ∧
    CutTo name rest previous segments ∧ Site.Broken name (lastBefore previous segments) rest

theorem ReachesBroken.scanFrom {name text : List Char} {previous : Option Char}
    (reaches : ReachesBroken name previous text) (offset line : Nat) :
    ∃ fault, scanFrom name offset line previous text = .error fault ∧
      offset ≤ fault.offset := by
  obtain ⟨segments, rest, rfl, cuts, broken⟩ := reaches
  obtain ⟨fault, failed, inside⟩ := scanFrom_broken broken
    (offset + (segments.flatMap Segment.text).length)
    (line + Text.newlines (segments.flatMap Segment.text))
  refine ⟨fault, ?_, Nat.le_trans (Nat.le_add_right offset _) inside⟩
  rw [scanFrom_cutTo cuts, failed]
  rfl

/-- A scan fails exactly when cuts lead to a broken site. -/
theorem scanFrom_eq_error_iff {name text : List Char} {offset line : Nat}
    {previous : Option Char} :
    (∃ fault, scanFrom name offset line previous text = .error fault) ↔
      ReachesBroken name previous text := by
  constructor
  · rintro ⟨fault, failed⟩
    obtain ⟨segments, rest, rfl, cuts, rfl | broken⟩ := exists_cutTo name previous text
    · rw [scanFrom_cutTo cuts, scanFrom_nil] at failed
      simp [Except.map] at failed
    · exact ⟨segments, rest, rfl, cuts, broken⟩
  · intro reaches
    obtain ⟨fault, failed, -⟩ := reaches.scanFrom offset line
    exact ⟨fault, failed⟩

end Segment

/-- A site that is met in a source behind some segments and before the remaining text. -/
structure Site.StandsIn (name source : List Char) (before : List Segment) (behind : List Char)
    (call : Site) : Prop where
  source_eq : source = before.flatMap Segment.text ++ (call.text ++ behind)
  cuts : Segment.CutTo name (call.text ++ behind) none before
  closedBefore : call.ClosedBefore name (Segment.lastBefore none before) behind

/-- The segments of a source around a site are those before it and those of the text behind
it. -/
theorem Site.StandsIn.scan {name source behind : List Char} {before : List Segment} {call : Site}
    (stands : call.StandsIn name source before behind) :
    Segment.scan name source =
      (Segment.scanFrom name (before.flatMap Segment.text ++ call.text).length
        (1 + Text.newlines (before.flatMap Segment.text ++ call.text))
        (some call.bracket.closing) behind).map (before ++ .site call :: ·) := by
  have cut : (Segment.site call).CutBefore name (Segment.lastBefore none before) behind :=
    stands.closedBefore
  have last : (Segment.site call).text.getLast? = some call.bracket.closing :=
    List.getLast?_concat
  have siteCut := Segment.scanFrom_cut cut (before.flatMap Segment.text).length
    (1 + Text.newlines (before.flatMap Segment.text))
  rw [last] at siteCut
  simp only [Segment.text] at siteCut
  rw [stands.source_eq, Segment.scan, Segment.scanFrom_cutTo stands.cuts, Nat.zero_add, siteCut]
  simp only [List.length_append, Text.newlines, List.count_append, Nat.add_assoc]
  cases Segment.scanFrom _ _ _ _ behind <;> rfl

end ClosureCapture
