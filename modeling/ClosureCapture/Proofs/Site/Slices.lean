import ClosureCapture.Proofs.Delimiter.Balance
import ClosureCapture.Proofs.Site.Coverage
import ClosureCapture.Proofs.Source.Counts
import ClosureCapture.Proofs.Source.Independence

/-!
# Sites as slices of their source

The sites that a scan finds are slices of the source, one behind the other.  This file proves what
such a slice is made of, that its line is counted from the start of the source, and that the
delimiters of its arguments are balanced.  As the slices do not overlap, the source is what stands
between them and the slices themselves.
-/

namespace ClosureCapture

namespace Invocation

/-- An invocation that stands in a text at its place, given the offset and the line of the first
character of the text. -/
def StandsAt (offset line : Nat) (text : List Char) (invocation : Invocation) : Prop :=
  ∃ before behind, text = before ++ invocation.site.text ++ behind ∧
    invocation.start = offset + before.length ∧
    invocation.line = line + Text.newlines before

/-- An invocation that is a slice of its source: a path, the name, `!` and delimited arguments. -/
structure IsSlice (name source : List Char) (invocation : Invocation) : Prop where
  start_lt_stop : invocation.start < invocation.stop
  stop_le_length : invocation.stop ≤ source.length
  line_eq : invocation.line = 1 + Text.newlines (source.take invocation.start)
  original_eq : ∃ path blanks gap, (∀ blank ∈ blanks, Text.isBlank blank = true) ∧
    (∀ blank ∈ gap, Text.isBlank blank = true) ∧
    invocation.original source = Site.pathText path ++ name ++ blanks ++ '!' :: gap ++
      invocation.site.bracket.opening :: invocation.site.arguments ++
        [invocation.site.bracket.closing]
  balanced : Delimiter.Balanced (Delimiter.word none invocation.site.arguments)

/-! ### Places -/

theorem start_lt_stop (invocation : Invocation) : invocation.start < invocation.stop := by
  simp only [stop, Site.text, List.length_append, List.length_cons]
  omega

theorem standsAt_of_mem_ofSegments {offset line : Nat} {segments : List Segment}
    {invocation : Invocation} (member : invocation ∈ ofSegments offset line segments) :
    invocation.StandsAt offset line (segments.flatMap Segment.text) := by
  obtain ⟨before, later, rfl, start, onLine⟩ := exists_place_of_mem_ofSegments member
  exact ⟨_, later.flatMap Segment.text, by simp [Segment.text], start, onLine⟩

theorem StandsAt.stop_le {offset line : Nat} {text : List Char} {invocation : Invocation}
    (stands : invocation.StandsAt offset line text) :
    invocation.stop ≤ offset + text.length := by
  obtain ⟨before, behind, rfl, start, -⟩ := stands
  simp only [stop, start, List.length_append]
  omega

theorem StandsAt.original_eq {line : Nat} {source : List Char} {invocation : Invocation}
    (stands : invocation.StandsAt 0 line source) :
    invocation.original source = invocation.site.text := by
  obtain ⟨before, behind, rfl, start, -⟩ := stands
  obtain ⟨place, onLine, call⟩ := invocation
  rw [Nat.zero_add] at start
  subst start
  exact original_append before behind onLine call

theorem StandsAt.line_eq {line : Nat} {source : List Char} {invocation : Invocation}
    (stands : invocation.StandsAt 0 line source) :
    invocation.line = line + Text.newlines (source.take invocation.start) := by
  obtain ⟨before, behind, rfl, start, onLine⟩ := stands
  rw [onLine, start, Nat.zero_add, List.append_assoc, List.take_left]

/-! ### The parts of a slice -/

theorem isSlice_of_closedBefore {name source rest : List Char} {previous : Option Char}
    {invocation : Invocation} (stands : invocation.StandsAt 0 1 source)
    (closedBefore : invocation.site.ClosedBefore name previous rest) :
    invocation.IsSlice name source where
  start_lt_stop := invocation.start_lt_stop
  stop_le_length := by simpa using stands.stop_le
  line_eq := stands.line_eq
  original_eq := by
    obtain ⟨path, blanks, gap, blankBefore, blankBehind, head⟩ := closedBefore.exists_head
    refine ⟨path, blanks, gap, blankBefore, blankBehind, ?_⟩
    rw [stands.original_eq, Site.text, head]
  balanced := by
    -- The opening delimiter before the arguments is no part of a word.
    have agree : (none : Option Char).any Text.isWord =
        (some invocation.site.bracket.opening).any Text.isWord := by
      cases invocation.site.bracket <;> decide
    rw [Delimiter.word, Literal.strip_congr agree]
    exact Delimiter.balanced_of_close closedBefore.closed

/-! ### One slice behind the other -/

theorem pairwise_ofSegments (offset line : Nat) (segments : List Segment) :
    (ofSegments offset line segments).Pairwise fun first second => first.stop ≤ second.start := by
  induction segments generalizing offset line with
  | nil => exact .nil
  | cons segment others ih =>
      have later := ih (offset + segment.text.length) (line + Text.newlines segment.text)
      cases segment with
      | code | literal => exact later
      | site call => exact .cons (fun other member => le_start_of_mem_ofSegments member) later

theorem drop_take_append_drop {Item : Type} (items : List Item) {first last : Nat}
    (ordered : first ≤ last) : (items.take last).drop first ++ items.drop last =
      items.drop first := by
  have behind : items.drop last = (items.drop first).drop (last - first) := by
    rw [List.drop_drop, Nat.add_sub_cancel' ordered]
  rw [List.drop_take, behind, List.take_append_drop]

/-- Slices that do not overlap are woven into the source they are taken from. -/
theorem weave_original {source : List Char} {invocations : List Invocation} {last : Nat}
    (ordered : invocations.Pairwise fun first second => first.stop ≤ second.start)
    (ahead : ∀ invocation ∈ invocations, last ≤ invocation.start) :
    weave source last (invocations.map fun invocation =>
      (invocation, .verbatim (invocation.original source))) = source.drop last := by
  induction invocations generalizing last with
  | nil => rfl
  | cons invocation others ih =>
      obtain ⟨behind, later⟩ := List.pairwise_cons.1 ordered
      rw [List.map_cons, weave, ih later behind, SourceExpansion.verbatim, original,
        List.append_assoc, drop_take_append_drop source (Nat.le_of_lt invocation.start_lt_stop),
        drop_take_append_drop source (ahead invocation List.mem_cons_self)]

/-- The sites of a source are slices of it that follow each other, and the source is made of them
and of what stands between them. -/
theorem find_slices_source {name source : List Char} {invocations : List Invocation}
    (found : find name source = .ok invocations) :
    (∀ invocation ∈ invocations, invocation.IsSlice name source) ∧
    (invocations.Pairwise fun first second => first.stop ≤ second.start) ∧
    weave source 0 (invocations.map fun invocation =>
      (invocation, .verbatim (invocation.original source))) = source := by
  obtain ⟨segments, scanned, rfl⟩ := find_eq_ok_iff.1 found
  obtain ⟨rfl, cuts⟩ := Segment.scanFrom_eq_ok_iff.1 scanned
  have ordered := pairwise_ofSegments 0 1 segments
  refine ⟨?_, ordered, weave_original ordered fun _ _ => Nat.zero_le _⟩
  intro invocation member
  obtain ⟨previous, rest, closedBefore⟩ :=
    Segment.exists_closedBefore_of_mem cuts (site_mem_of_mem_ofSegments member)
  exact isSlice_of_closedBefore (standsAt_of_mem_ofSegments member) closedBefore

/-- Two sites on two lines, with a path, blanks, a string and nested delimiters. -/
theorem find_slices_source_two_sites :
    ∃ first second,
      find "capture".toList "a ::capture ! (\"(\", [x])\ncapture![]".toList =
        .ok [first, second] ∧
      first.IsSlice "capture".toList "a ::capture ! (\"(\", [x])\ncapture![]".toList ∧
      first.stop = 24 ∧ second.start = 25 ∧ second.line = 2 := by
  have found : find "capture".toList "a ::capture ! (\"(\", [x])\ncapture![]".toList =
      .ok [⟨0, 1, "a ::capture ! ".toList, .round, "\"(\", [x]".toList⟩,
        ⟨25, 2, "capture!".toList, .square, []⟩] := by
    with_unfolding_all rfl
  obtain ⟨slices, -, -⟩ := find_slices_source found
  exact ⟨_, _, found, slices _ (by simp), rfl, rfl, rfl⟩

end Invocation

end ClosureCapture
