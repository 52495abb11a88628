import ClosureCapture.Proofs.Literal.Closing
import ClosureCapture.Proofs.Site.Cursor
import Mathlib.Data.List.Forall2

/-!
# Comments and literals are opaque

A scan never looks into a comment or literal that it passes over.  When one of them is exchanged
for another, of whatever kind, the scan finds the same sites: those before it stay, the one around
it has the new text among its arguments, and those behind it are moved.  A scan that fails does so
in both texts, with the same sort of fault at corresponding places.
-/

namespace ClosureCapture

open Delimiter

/-! ### Scans of a text behind different characters -/

/-- Two characters that a scan cannot tell apart when they stand before a text. -/
structure Site.Alike (previous other : Option Char) : Prop where
  any_isWord : other.any Text.isWord = previous.any Text.isWord
  mayFollow : Site.mayFollow other = Site.mayFollow previous

namespace Site

theorem Alike.refl (previous : Option Char) : Alike previous previous :=
  ⟨rfl, rfl⟩

theorem Alike.open? {previous other : Option Char} (alike : Alike previous other)
    (name text : List Char) : open? name other text = open? name previous text := by
  simp only [Site.open?, alike.mayFollow]

theorem Alike.lastBefore {previous other : Option Char} (alike : Alike previous other)
    (segments : List Segment) :
    Alike (Segment.lastBefore previous segments) (Segment.lastBefore other segments) := by
  simp only [Segment.lastBefore]
  cases (segments.flatMap Segment.text).getLast? with
  | none => exact alike
  | some last => exact .refl _

theorem Alike.cutBefore {previous other : Option Char} (alike : Alike previous other)
    {name rest : List Char} {segment : Segment} (cut : segment.CutBefore name previous rest) :
    segment.CutBefore name other rest := by
  have skips := Literal.after?_congr alike.any_isWord
  cases segment with
  | literal passed => exact ⟨cut.1, (skips _).trans cut.2⟩
  | code character => exact ⟨(skips _).trans cut.1, (alike.open? _ _).trans cut.2⟩
  | site call =>
      exact ⟨(skips _).trans cut.code, (alike.open? _ _).trans cut.opened, cut.closed⟩

theorem Alike.cutTo {previous other : Option Char} (alike : Alike previous other)
    {name rest : List Char} {segments : List Segment}
    (cuts : Segment.CutTo name rest previous segments) :
    Segment.CutTo name rest other segments := by
  cases segments with
  | nil => trivial
  | cons segment segments => exact ⟨alike.cutBefore cuts.1, cuts.2⟩

end Site

namespace SiteFault

/-- A fault whose place is counted from a given offset and line on. -/
def moved (offset line : Nat) : SiteFault → SiteFault
  | .mismatch expected found place => .mismatch expected found (offset + place)
  | .unclosed start place => .unclosed (line + start) (offset + place)

theorem moved_moved (offset line place start : Nat) (fault : SiteFault) :
    (fault.moved place start).moved offset line = fault.moved (offset + place) (line + start) := by
  cases fault <;> simp [moved, Nat.add_assoc]

/-- The fault of a broken site, counted from the start of the site on. -/
def ofSearch (text inside : List Char) : Delimiter.Fault → SiteFault
  | .mismatch expected found remaining =>
      .mismatch expected found (text.length - remaining.length)
  | .unclosed => .unclosed 0 (text.length - 1 - inside.length)

end SiteFault

namespace Segment

theorem scanFrom_broken_eq {name : List Char} {previous : Option Char} {text inside : List Char}
    {bracket : Bracket} {fault : Delimiter.Fault} (code : Literal.after? previous text = none)
    (opened : Site.open? name previous text = some (bracket, inside))
    (failed : close bracket [] (some bracket.opening) inside = .error fault) (offset line : Nat) :
    scanFrom name offset line previous text =
      .error ((SiteFault.ofSearch text inside fault).moved offset line) := by
  have shorter := Site.open?_length_lt opened
  cases text with
  | nil => simp at shorter
  | cons first tail =>
      rw [scanFrom_of_open code opened, Delimiter.closeAt, failed]
      simp only [List.length_cons] at shorter
      cases fault with
      | mismatch expected found remaining =>
          have inner := (Delimiter.suffix_of_close_mismatch failed).length_le
          have place : offset + (tail.length - inside.length) + 1 +
              (inside.length - remaining.length) =
                offset + ((first :: tail).length - remaining.length) := by
            rw [List.length_cons]
            omega
          simp only [Except.bind, place]
          rfl
      | unclosed => rfl

/-- A scan finds the same segments, or the same fault, wherever its text stands. -/
theorem scanFrom_alike {previous other : Option Char} (alike : Site.Alike previous other)
    (name text : List Char) :
    (∃ segments, ∀ offset line, scanFrom name offset line previous text = .ok segments ∧
      scanFrom name offset line other text = .ok segments) ∨
    ∃ fault : SiteFault, ∀ offset line,
      scanFrom name offset line previous text = .error (fault.moved offset line) ∧
        scanFrom name offset line other text = .error (fault.moved offset line) := by
  obtain ⟨segments, rest, rfl, cuts, rfl | broken⟩ := exists_cutTo name previous text
  · left
    refine ⟨segments, ?_⟩
    intro offset line
    exact ⟨scanFrom_eq_ok_iff.2 ⟨List.append_nil _, cuts⟩,
      scanFrom_eq_ok_iff.2 ⟨List.append_nil _, alike.cutTo cuts⟩⟩
  · right
    obtain ⟨code, bracket, inside, fault, opened, failed⟩ := broken
    have likewise := alike.lastBefore segments
    have otherCode := (Literal.after?_congr likewise.any_isWord rest).trans code
    have otherOpened := (likewise.open? name rest).trans opened
    refine ⟨(SiteFault.ofSearch rest inside fault).moved (segments.flatMap text).length
      (Text.newlines (segments.flatMap text)), ?_⟩
    intro offset line
    rw [scanFrom_cutTo cuts, scanFrom_cutTo (alike.cutTo cuts),
      scanFrom_broken_eq code opened failed, scanFrom_broken_eq otherCode otherOpened failed,
      SiteFault.moved_moved]
    exact ⟨rfl, rfl⟩

end Segment

/-! ### Corresponding sites and faults -/

/-- A comment or literal of a source text that the cursor stops before and passes over. -/
def Literal.PassedIn (name front literal behind : List Char) : Prop :=
  ∃ cursor, Cursor.Reaches name (front ++ (literal ++ behind)) cursor ∧
    cursor.rest = literal ++ behind ∧ Literal.after? cursor.previous cursor.rest = some behind

/-- How a site is found when the text behind a front part is exchanged: a site before that text
stays, one around it has the new text among its arguments, and one behind it is moved by the
difference in characters and in lines. -/
inductive Invocation.Exchanged (front old new : List Char) : Invocation → Invocation → Prop
  | ahead {invocation : Invocation} : invocation.stop ≤ front.length →
      Exchanged front old new invocation invocation
  | around {start line : Nat} {head before behind : List Char} {bracket : Bracket} :
      start + (head ++ bracket.opening :: before).length = front.length →
      Exchanged front old new ⟨start, line, ⟨head, bracket, before ++ (old ++ behind)⟩⟩
        ⟨start, line, ⟨head, bracket, before ++ (new ++ behind)⟩⟩
  | behind {distance lines : Nat} {site : Site} :
      Exchanged front old new
        ⟨(front ++ old).length + distance, 1 + Text.newlines (front ++ old) + lines, site⟩
        ⟨(front ++ new).length + distance, 1 + Text.newlines (front ++ new) + lines, site⟩

/-- How a fault is found when the text behind a front part is exchanged: delimiters that do not
match are met behind the text, and a site that is never closed opens before or behind it. -/
inductive SiteFault.Exchanged (front old new : List Char) : SiteFault → SiteFault → Prop
  | mismatch {expected found : Char} {distance : Nat} :
      Exchanged front old new (.mismatch expected found ((front ++ old).length + distance))
        (.mismatch expected found ((front ++ new).length + distance))
  | ahead {line offset : Nat} : offset < front.length →
      Exchanged front old new (.unclosed line offset) (.unclosed line offset)
  | behind {distance lines : Nat} :
      Exchanged front old new
        (.unclosed (1 + Text.newlines (front ++ old) + lines) ((front ++ old).length + distance))
        (.unclosed (1 + Text.newlines (front ++ new) + lines) ((front ++ new).length + distance))

/-- Outcomes of a scan that correspond when the text behind a front part is exchanged. -/
inductive Invocation.SameOutcome (front old new : List Char) :
    Except SiteFault (List Invocation) → Except SiteFault (List Invocation) → Prop
  | found {invocations others : List Invocation} :
      List.Forall₂ (Invocation.Exchanged front old new) invocations others →
      SameOutcome front old new (.ok invocations) (.ok others)
  | failed {fault other : SiteFault} : SiteFault.Exchanged front old new fault other →
      SameOutcome front old new (.error fault) (.error other)

namespace Invocation

variable {front old new : List Char}

theorem ofSegments_append (offset line : Nat) (segments others : List Segment) :
    ofSegments offset line (segments ++ others) = ofSegments offset line segments ++
      ofSegments (offset + (segments.flatMap Segment.text).length)
        (line + Text.newlines (segments.flatMap Segment.text)) others := by
  induction segments generalizing offset line with
  | nil => rfl
  | cons segment segments ih =>
      have later := ih (offset + segment.text.length) (line + Text.newlines segment.text)
      simp only [Nat.add_assoc, ← List.length_append, Text.newlines, ← List.count_append] at later
      cases segment with
      | code | literal => exact later
      | site call => exact congrArg (_ :: ·) later

/-- A site stands in its source behind the segments before it. -/
theorem mem_ofSegments_append (offset line : Nat) (before : List Segment) (call : Site)
    (later : List Segment) :
    ⟨offset + (before.flatMap Segment.text).length,
      line + Text.newlines (before.flatMap Segment.text), call⟩ ∈
        ofSegments offset line (before ++ .site call :: later) := by
  rw [ofSegments_append]
  exact List.mem_append_right _ List.mem_cons_self

theorem exists_place_of_mem_ofSegments {offset line : Nat} {segments : List Segment}
    {invocation : Invocation} (member : invocation ∈ ofSegments offset line segments) :
    ∃ before later, segments = before ++ .site invocation.site :: later ∧
      invocation.start = offset + (before.flatMap Segment.text).length ∧
      invocation.line = line + Text.newlines (before.flatMap Segment.text) := by
  induction segments generalizing offset line with
  | nil => simp [ofSegments] at member
  | cons segment others ih =>
      have behind : invocation ∈ ofSegments (offset + segment.text.length)
          (line + Text.newlines segment.text) others → ∃ before later,
          segment :: others = before ++ .site invocation.site :: later ∧
            invocation.start = offset + (before.flatMap Segment.text).length ∧
            invocation.line = line + Text.newlines (before.flatMap Segment.text) := by
        intro inside
        obtain ⟨before, later, rfl, start, onLine⟩ := ih inside
        refine ⟨segment :: before, later, rfl, ?_, ?_⟩
        · rw [start, List.flatMap_cons, List.length_append, Nat.add_assoc]
        · rw [onLine, List.flatMap_cons, Text.newlines, Text.newlines, Text.newlines,
            List.count_append, Nat.add_assoc]
      cases segment with
      | code | literal => exact behind member
      | site call =>
          rcases List.mem_cons.1 member with rfl | inside
          · exact ⟨[], others, rfl, rfl, rfl⟩
          · exact behind inside

theorem exists_split_of_mem_ofSegments {offset line : Nat} {segments : List Segment}
    {invocation : Invocation} (member : invocation ∈ ofSegments offset line segments) :
    ∃ before later, segments = before ++ .site invocation.site :: later ∧
      invocation.start = offset + (before.flatMap Segment.text).length := by
  obtain ⟨before, later, split, start, -⟩ := exists_place_of_mem_ofSegments member
  exact ⟨before, later, split, start⟩

theorem stop_le_of_mem_ofSegments {offset line : Nat} {segments : List Segment}
    {invocation : Invocation} (member : invocation ∈ ofSegments offset line segments) :
    invocation.stop ≤ offset + (segments.flatMap Segment.text).length := by
  obtain ⟨before, later, rfl, start⟩ := exists_split_of_mem_ofSegments member
  simp only [stop, start, List.flatMap_append, List.flatMap_cons, List.length_append,
    Segment.text]
  omega

theorem exchanged_ahead {segments : List Segment} (short : (segments.flatMap Segment.text).length ≤
    front.length) : List.Forall₂ (Exchanged front old new) (ofSegments 0 1 segments)
      (ofSegments 0 1 segments) := by
  apply List.forall₂_same.2
  intro invocation member
  apply Exchanged.ahead
  have bound := stop_le_of_mem_ofSegments member
  omega

theorem exchanged_behind (distance lines : Nat) (segments : List Segment) :
    List.Forall₂ (Exchanged front old new)
      (ofSegments ((front ++ old).length + distance)
        (1 + Text.newlines (front ++ old) + lines) segments)
      (ofSegments ((front ++ new).length + distance)
        (1 + Text.newlines (front ++ new) + lines) segments) := by
  induction segments generalizing distance lines with
  | nil => exact .nil
  | cons segment segments ih =>
      have later := ih (distance + segment.text.length) (lines + Text.newlines segment.text)
      simp only [← Nat.add_assoc] at later
      cases segment with
      | code | literal => exact later
      | site call => exact .cons .behind later

theorem exchanged_moved (fault : SiteFault) (distance lines : Nat) :
    SiteFault.Exchanged front old new
      (fault.moved ((front ++ old).length + distance) (1 + Text.newlines (front ++ old) + lines))
      (fault.moved ((front ++ new).length + distance)
        (1 + Text.newlines (front ++ new) + lines)) := by
  cases fault with
  | mismatch expected found place =>
      simp only [SiteFault.moved, Nat.add_assoc]
      exact .mismatch
  | unclosed start place =>
      simp only [SiteFault.moved, Nat.add_assoc]
      simp only [← Nat.add_assoc 1]
      exact .behind

theorem find_of_cutTo {name rest : List Char} {segments : List Segment}
    (cuts : Segment.CutTo name rest none segments) :
    find name (segments.flatMap Segment.text ++ rest) =
      (Segment.scanFrom name (segments.flatMap Segment.text).length
        (1 + Text.newlines (segments.flatMap Segment.text)) (Segment.lastBefore none segments)
        rest).map fun later => ofSegments 0 1 segments ++
          ofSegments (segments.flatMap Segment.text).length
            (1 + Text.newlines (segments.flatMap Segment.text)) later := by
  rw [find, Segment.scan, Segment.scanFrom_cutTo cuts, Nat.zero_add]
  cases Segment.scanFrom _ _ _ _ rest with
  | error fault => rfl
  | ok later =>
      have joined := ofSegments_append 0 1 segments later
      rw [Nat.zero_add] at joined
      exact congrArg Except.ok joined

/-- Segments that correspond up to the same remaining text have corresponding outcomes. -/
theorem sameOutcome_of_cutTo {name after rest : List Char} {segments others : List Segment}
    (cuts : Segment.CutTo name rest none segments)
    (otherCuts : Segment.CutTo name rest none others)
    (whole : segments.flatMap Segment.text = (front ++ old) ++ after)
    (otherWhole : others.flatMap Segment.text = (front ++ new) ++ after)
    (alike : rest = [] ∨
      Site.Alike (Segment.lastBefore none segments) (Segment.lastBefore none others))
    (early : List.Forall₂ (Exchanged front old new) (ofSegments 0 1 segments)
      (ofSegments 0 1 others)) :
    SameOutcome front old new (find name (segments.flatMap Segment.text ++ rest))
      (find name (others.flatMap Segment.text ++ rest)) := by
  have scanned : (∃ later, ∀ offset line,
      Segment.scanFrom name offset line (Segment.lastBefore none segments) rest = .ok later ∧
        Segment.scanFrom name offset line (Segment.lastBefore none others) rest = .ok later) ∨
      ∃ fault : SiteFault, ∀ offset line,
        Segment.scanFrom name offset line (Segment.lastBefore none segments) rest =
            .error (fault.moved offset line) ∧
          Segment.scanFrom name offset line (Segment.lastBefore none others) rest =
            .error (fault.moved offset line) := by
    rcases alike with rfl | alike
    · exact .inl ⟨[], fun _ _ => ⟨Segment.scanFrom_nil .., Segment.scanFrom_nil ..⟩⟩
    · exact Segment.scanFrom_alike alike name rest
  have place : ∀ text : List Char, (text ++ after).length = text.length + after.length :=
    fun _ => List.length_append
  have line : ∀ text : List Char,
      1 + Text.newlines (text ++ after) = 1 + Text.newlines text + Text.newlines after := by
    intro text
    rw [Text.newlines, List.count_append, Nat.add_assoc]
    rfl
  rw [find_of_cutTo cuts, find_of_cutTo otherCuts, whole, otherWhole, place (front ++ old),
    place (front ++ new), line (front ++ old), line (front ++ new)]
  rcases scanned with ⟨later, found⟩ | ⟨fault, failed⟩
  · rw [(found _ _).1, (found _ _).2]
    exact .found (List.rel_append early (exchanged_behind after.length (Text.newlines after) later))
  · rw [(failed _ _).1, (failed _ _).2]
    exact .failed (exchanged_moved fault after.length (Text.newlines after))

/-! ### Exchanging a comment or literal -/

variable {name behind : List Char} {previous : Option Char}

theorem alike_of_after? (skipped : Literal.after? previous (old ++ behind) = some behind)
    (otherSkipped : Literal.after? previous (new ++ behind) = some behind) :
    behind = [] ∨ Site.Alike old.getLast? new.getLast? := by
  by_cases ended : behind = []
  · exact .inl ended
  right
  obtain ⟨passed, split, closed⟩ := Literal.exists_isClosed_of_after? skipped ended
  obtain ⟨otherPassed, otherSplit, otherClosed⟩ :=
    Literal.exists_isClosed_of_after? otherSkipped ended
  obtain ⟨last, isLast, noWord, noColon⟩ := closed.getLast?
  obtain ⟨otherLast, isOtherLast, otherNoWord, otherNoColon⟩ := otherClosed.getLast?
  rw [List.append_cancel_right split, List.append_cancel_right otherSplit, isLast, isOtherLast]
  constructor
  · simp [noWord, otherNoWord]
  · rw [Site.mayFollow, Site.mayFollow, Option.all_some, Option.all_some, noWord, otherNoWord,
      bne_iff_ne.2 noColon, bne_iff_ne.2 otherNoColon]

theorem ne_nil_of_after? (skipped : Literal.after? previous (old ++ behind) = some behind) :
    old ≠ [] := by
  rintro rfl
  exact Nat.lt_irrefl _ (Literal.after?_length_lt skipped)

/-- Between sites, the exchanged text is a segment of its own. -/
theorem sameOutcome_between {before : List Segment} (whole : before.flatMap Segment.text = front)
    (cuts : Segment.CutTo name (old ++ behind) none before)
    (otherCuts : Segment.CutTo name (new ++ behind) none before)
    (skipped : Literal.after? (Segment.lastBefore none before) (old ++ behind) = some behind)
    (otherSkipped : Literal.after? (Segment.lastBefore none before) (new ++ behind) = some behind) :
    SameOutcome front old new (find name (front ++ (old ++ behind)))
      (find name (front ++ (new ++ behind))) := by
  have nonempty := ne_nil_of_after? skipped
  have otherNonempty := ne_nil_of_after? otherSkipped
  have longer := @Segment.CutTo.concat _ _ _ _ (.literal old) cuts ⟨nonempty, skipped⟩
  have otherLonger := @Segment.CutTo.concat _ _ _ _ (.literal new) otherCuts
    ⟨otherNonempty, otherSkipped⟩
  have texts : ∀ literal, (before ++ [Segment.literal literal]).flatMap Segment.text =
      front ++ literal := by
    intro literal
    rw [List.flatMap_append, whole, List.flatMap_singleton]
    rfl
  have outcome := @sameOutcome_of_cutTo front old new name [] behind _ _ longer otherLonger
    (by rw [texts, List.append_nil]) (by rw [texts, List.append_nil]) ?_ ?_
  · rwa [texts, texts, List.append_assoc, List.append_assoc] at outcome
  · rw [@Segment.lastBefore_concat none before (.literal old) nonempty,
      @Segment.lastBefore_concat none before (.literal new) otherNonempty]
    exact alike_of_after? skipped otherSkipped
  · rw [ofSegments_append, ofSegments_append]
    apply List.rel_append
    · exact exchanged_ahead (Nat.le_of_eq (congrArg List.length whole))
    · exact .nil

/-- Two searches that fail in the text behind the exchanged one have corresponding faults. -/
theorem exchanged_ofSearch {before head passed : List Char} {bracket : Bracket} {line : Nat}
    {fault : Delimiter.Fault} (split : front = before ++ (head ++ bracket.opening :: passed))
    (inBehind : ∀ expected found remaining, fault = .mismatch expected found remaining →
      remaining <:+ behind) :
    SiteFault.Exchanged front old new
      ((SiteFault.ofSearch (head ++ bracket.opening :: (passed ++ (old ++ behind)))
        (passed ++ (old ++ behind)) fault).moved before.length line)
      ((SiteFault.ofSearch (head ++ bracket.opening :: (passed ++ (new ++ behind)))
        (passed ++ (new ++ behind)) fault).moved before.length line) := by
  cases fault with
  | unclosed =>
      have opening : ∀ inside : List Char,
          (head ++ bracket.opening :: inside).length - 1 - inside.length = head.length := by
        intro inside
        simp only [List.length_append, List.length_cons]
        omega
      simp only [SiteFault.ofSearch, SiteFault.moved, opening]
      apply SiteFault.Exchanged.ahead
      simp only [split, List.length_append, List.length_cons]
      omega
  | mismatch expected found remaining =>
      have short := (inBehind expected found remaining rfl).length_le
      have place : ∀ literal : List Char, before.length +
          ((head ++ bracket.opening :: (passed ++ (literal ++ behind))).length -
            remaining.length) =
          (front ++ literal).length + (behind.length - remaining.length) := by
        intro literal
        simp only [split, List.length_append, List.length_cons]
        omega
      simp only [SiteFault.ofSearch, SiteFault.moved, place]
      exact .mismatch

/-- The segments up to the end of a site that holds a given text among its arguments. -/
theorem cutTo_around {source head passed literal after rest : List Char} {before : List Segment}
    {bracket : Bracket}
    (opens : Site.OpensIn name source before head bracket
      (passed ++ (literal ++ (after ++ bracket.closing :: rest))))
    (closed : close bracket [] (some bracket.opening)
      (passed ++ (literal ++ (after ++ bracket.closing :: rest))) =
        .ok (bracket.closing :: rest)) :
    Segment.CutTo name rest none
      (before ++ [.site ⟨head, bracket, passed ++ (literal ++ after)⟩]) := by
  have rejoined : passed ++ (literal ++ (after ++ bracket.closing :: rest)) =
      (passed ++ (literal ++ after)) ++ bracket.closing :: rest := by simp
  rw [rejoined] at opens closed
  have cuts := opens.cuts
  rw [← Site.OpensIn.text_append] at cuts
  exact @Segment.CutTo.concat _ _ _ _ (.site _) cuts (opens.cutBefore closed)

/-- Inside a site, the exchanged text is passed over by the search for its closing delimiter. -/
theorem sameOutcome_inside {before : List Segment} {head passed : List Char}
    {bracket inner : Bracket} {outer : List Bracket} {previous : Option Char}
    (opens : Site.OpensIn name (front ++ (old ++ behind)) before head bracket
      (passed ++ (old ++ behind)))
    (otherOpens : Site.OpensIn name (front ++ (new ++ behind)) before head bracket
      (passed ++ (new ++ behind)))
    (searched : close bracket [] (some bracket.opening) (passed ++ (old ++ behind)) =
      close inner outer previous behind)
    (otherSearched : close bracket [] (some bracket.opening) (passed ++ (new ++ behind)) =
      close inner outer previous behind) :
    SameOutcome front old new (find name (front ++ (old ++ behind)))
      (find name (front ++ (new ++ behind))) := by
  have split : front = before.flatMap Segment.text ++ (head ++ bracket.opening :: passed) :=
    opens.of_append.source_eq
  cases outcome : close inner outer previous behind with
  | error fault =>
      rw [outcome] at searched otherSearched
      rw [opens.source_eq, otherOpens.source_eq, find_of_cutTo opens.cuts,
        find_of_cutTo otherOpens.cuts,
        Segment.scanFrom_broken_eq opens.code opens.opened searched,
        Segment.scanFrom_broken_eq otherOpens.code otherOpens.opened otherSearched]
      apply SameOutcome.failed
      apply exchanged_ofSearch split
      rintro expected found remaining rfl
      exact suffix_of_close_mismatch outcome
  | ok closing =>
      rw [outcome] at searched otherSearched
      obtain ⟨⟨after, inBehind⟩, -⟩ := close_eq_ok outcome
      obtain ⟨rest, rfl⟩ : ∃ rest, closing = bracket.closing :: rest := by
        have last := (close_eq_ok searched).2
        cases closing with
        | nil => simp at last
        | cons delimiter rest => exact ⟨rest, by simpa using last⟩
      subst inBehind
      have texts : ∀ literal, (before ++
          [Segment.site ⟨head, bracket, passed ++ (literal ++ after)⟩]).flatMap Segment.text =
            (front ++ literal) ++ (after ++ [bracket.closing]) := by
        intro literal
        simp [split, Segment.text, Site.text]
      have outcomes := @sameOutcome_of_cutTo front old new name (after ++ [bracket.closing]) rest
        _ _ (cutTo_around opens searched) (cutTo_around otherOpens otherSearched) (texts old)
        (texts new) ?_ ?_
      · simpa only [texts, List.append_assoc, List.singleton_append] using outcomes
      · right
        rw [Segment.lastBefore_concat before (by simp [Segment.text, Site.text]),
          Segment.lastBefore_concat before (by simp [Segment.text, Site.text])]
        simp only [Segment.text, Site.text, List.getLast?_concat]
        exact .refl _
      · rw [ofSegments_append, ofSegments_append]
        have short : (before.flatMap Segment.text).length +
            (head ++ bracket.opening :: passed).length = front.length := by
          rw [split]
          exact List.length_append.symm
        apply List.rel_append
        · apply exchanged_ahead
          omega
        · rw [Nat.zero_add]
          exact .cons (.around short) .nil

/-- A search that has come to a comment or literal goes on behind it, and would not end before
it. -/
theorem close_of_walk {passed literal : List Char} {bracket : Bracket} {search : Search}
    (walk : Search.Walk ⟨[], some bracket.opening, passed ++ search.rest⟩ search)
    (atLiteral : search.rest = literal ++ behind)
    (skipped : Literal.after? search.previous (literal ++ behind) = some behind) :
    close bracket [] (some bracket.opening) (passed ++ (literal ++ behind)) =
        (Search.mk search.nested literal.getLast? behind).close bracket [] ∧
      close bracket [] (some bracket.opening) passed = .error .unclosed := by
  have short := walk.of_append rfl (List.nil_append _).symm
  refine ⟨?_, (short.close_eq bracket []).trans (Search.close_nil ..)⟩
  obtain ⟨nested, previous, rest⟩ := search
  simp only at atLiteral skipped walk ⊢
  subst atLiteral
  have step : Search.Step ⟨nested, previous, literal ++ behind⟩ _ := .skip skipped
  have ended := (walk.close_eq bracket []).trans (step.close_eq bracket [])
  rw [lastBefore_append_self] at ended
  exact ended

/-- A comment or literal that a scan passes over can be exchanged for any other one that it
passes over at the same place: the scans fail together, with the same sort of fault, or find
corresponding sites. -/
theorem find_exchange (passed : Literal.PassedIn name front old behind)
    (otherPassed : Literal.PassedIn name front new behind) :
    SameOutcome front old new (find name (front ++ (old ++ behind)))
      (find name (front ++ (new ++ behind))) := by
  obtain ⟨cursor, reached, atOld, skipped⟩ := passed
  obtain ⟨other, otherReached, atNew, otherSkipped⟩ := otherPassed
  obtain rfl := reached.withRest_eq atOld otherReached atNew
  rw [atOld] at skipped
  rw [atNew] at otherSkipped
  cases cursor with
  | scanning previous rest =>
      obtain ⟨before, whole, cuts, rfl⟩ := reached.stands.exists_between
      obtain ⟨others, otherWhole, otherCuts, same⟩ := otherReached.stands.exists_between
      simp only [Cursor.rest] at atOld
      subst atOld
      have front_eq := List.append_cancel_right whole
      have scanned : Segment.scan name front = .ok before :=
        Segment.scanFrom_eq_ok_iff.2 ⟨front_eq, @Segment.CutTo.of_append _ [] _ _ _ cuts⟩
      have otherScanned : Segment.scan name front = .ok others :=
        Segment.scanFrom_eq_ok_iff.2
          ⟨List.append_cancel_right otherWhole, @Segment.CutTo.of_append _ [] _ _ _ otherCuts⟩
      obtain rfl := Except.ok.inj (scanned.symm.trans otherScanned)
      exact sameOutcome_between front_eq.symm cuts otherCuts skipped otherSkipped
  | searching bracket search =>
      obtain ⟨before, head, passed, opens, walk⟩ := reached.stands.exists_inside
      obtain ⟨others, otherHead, otherPassed, otherOpens, otherWalk⟩ :=
        otherReached.stands.exists_inside
      obtain ⟨searched, unclosed⟩ := close_of_walk walk atOld skipped
      obtain ⟨otherSearched, otherUnclosed⟩ := close_of_walk otherWalk atNew otherSkipped
      have restEq : search.rest = old ++ behind := atOld
      rw [restEq] at opens
      -- Cut before the exchanged text, both sources have the same open site.
      obtain ⟨rfl, rfl, -, rfl⟩ :=
        opens.of_append.unique unclosed otherOpens.of_append otherUnclosed
      obtain ⟨inner, outer, ending⟩ :=
        Search.exists_close_eq ⟨search.nested, old.getLast?, behind⟩ bracket []
      refine sameOutcome_inside opens otherOpens (searched.trans ending)
        (otherSearched.trans (Eq.trans ?_ ending))
      rcases alike_of_after? skipped otherSkipped with rfl | alike
      · rw [Search.close_nil, Search.close_nil]
      · exact Search.close_congr alike.any_isWord _ _ _ _

theorem find_exchange_strings :
    Literal.PassedIn ['c'] "c!([".toList "\")\"".toList "])c![]".toList ∧
      Literal.PassedIn ['c'] "c!([".toList "\"c!(\n\"".toList "])c![]".toList ∧
      SameOutcome "c!([".toList "\")\"".toList "\"c!(\n\"".toList
        (find ['c'] ("c!([".toList ++ ("\")\"".toList ++ "])c![]".toList)))
        (find ['c'] ("c!([".toList ++ ("\"c!(\n\"".toList ++ "])c![]".toList))) := by
  have reaches : ∀ rest,
      Site.open? ['c'] none ("c!([".toList ++ rest) = some (.round, '[' :: rest) →
      Cursor.Reaches ['c'] ("c!([".toList ++ rest)
        (.searching .round ⟨[.square], some '[', rest⟩) := by
    intro rest opened
    have entered : Cursor.Step ['c'] (.scanning none ("c!([".toList ++ rest))
        (.searching .round ⟨[], some '(', '[' :: rest⟩) :=
      .enter (by with_unfolding_all rfl) opened
    have nested : Cursor.Step ['c'] (.searching .round ⟨[], some '(', '[' :: rest⟩)
        (.searching .round ⟨[.square], some '[', rest⟩) :=
      .search (.enter (by with_unfolding_all rfl) (by decide))
    exact (Relation.ReflTransGen.single entered).tail nested
  have passed : Literal.PassedIn ['c'] "c!([".toList "\")\"".toList "])c![]".toList :=
    ⟨_, reaches _ (by with_unfolding_all rfl), rfl, by with_unfolding_all rfl⟩
  have otherPassed : Literal.PassedIn ['c'] "c!([".toList "\"c!(\n\"".toList "])c![]".toList :=
    ⟨_, reaches _ (by with_unfolding_all rfl), rfl, by with_unfolding_all rfl⟩
  exact ⟨passed, otherPassed, find_exchange passed otherPassed⟩

end Invocation

end ClosureCapture
