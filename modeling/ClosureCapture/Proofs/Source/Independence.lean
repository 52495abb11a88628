import ClosureCapture.Proofs.Source.Outcome
import Mathlib.Algebra.Order.Ring.Nat

/-!
# Sites are expanded independently

The expansion of a text that can be cut is woven from the text between its sites and the
expansions of the sites, each cut out of the text and expanded on its own.  A site that is cut out
is found again whole, so that nothing of its outcome depends on what stands around it, except for
the lines of its reports: these are counted from the start of the text.
-/

namespace ClosureCapture

/-- A report some lines further down. -/
def SiteReport.lower (lines : Nat) (report : SiteReport) : SiteReport :=
  { report with line := report.line + lines }

namespace SourceExpansion

/-- The same expansion with its reports some lines further down. -/
structure Lowered (lines : Nat) (first second : SourceExpansion) : Prop where
  text_eq : second.text = first.text
  sites_eq : second.sites = first.sites
  expanded_eq : second.expanded = first.expanded
  reports_eq : second.reports = first.reports.map (·.lower lines)

theorem lowered_verbatim (lines : Nat) (text : List Char) :
    Lowered lines (verbatim text) (verbatim text) :=
  ⟨rfl, rfl, rfl, rfl⟩

theorem Lowered.append {lines : Nat} {first second firstLow secondLow : SourceExpansion}
    (lowFirst : Lowered lines first firstLow) (lowSecond : Lowered lines second secondLow) :
    Lowered lines (first.append second) (firstLow.append secondLow) where
  text_eq := by simp only [SourceExpansion.append, lowFirst.text_eq, lowSecond.text_eq]
  sites_eq := by simp only [SourceExpansion.append, lowFirst.sites_eq, lowSecond.sites_eq]
  expanded_eq := by
    simp only [SourceExpansion.append, lowFirst.expanded_eq, lowSecond.expanded_eq]
  reports_eq := by
    simp only [SourceExpansion.append, lowFirst.reports_eq, lowSecond.reports_eq,
      List.map_append]

theorem Lowered.site {settings : Settings} {line lines : Nat} {call : Site}
    {inside insideLow expansion : SourceExpansion} (low : Lowered lines inside insideLow)
    (expanded : SourceExpansion.site settings line call inside = .ok expansion) :
    ∃ expansionLow, SourceExpansion.site settings (line + lines) call insideLow =
      .ok expansionLow ∧ Lowered lines expansion expansionLow := by
  simp only [SourceExpansion.site, low.text_eq] at expanded ⊢
  split at expanded
  · next text outcome =>
      obtain rfl := Except.ok.inj expanded
      refine ⟨_, rfl, rfl, ?_, ?_, low.reports_eq⟩
      · rw [low.sites_eq]
      · rw [low.expanded_eq]
  · next error outcome =>
      split at expanded
      · simp at expanded
      · next diagnostic reported =>
          obtain rfl := Except.ok.inj expanded
          refine ⟨_, rfl, rfl, ?_, low.expanded_eq, ?_⟩
          · rw [low.sites_eq]
          · simp [low.reports_eq, SiteReport.lower]

/-- Expanding a text further down lowers its reports and changes nothing else. -/
def Lowers (settings : Settings) (name : List Char) (lines : Nat) (source : List Char) : Prop :=
  ∀ line expansion, ofText settings name line source = .ok expansion →
    ∃ expansionLow, ofText settings name (line + lines) source = .ok expansionLow ∧
      Lowered lines expansion expansionLow

theorem exists_lowered_ofSegment {settings : Settings} {name : List Char} {segment : Segment}
    {lines : Nat} (inner : ∀ call, .site call = segment → Lowers settings name lines call.arguments)
    {line : Nat} {expansion : SourceExpansion}
    (expanded : ofSegment settings name line segment = .ok expansion) :
    ∃ expansionLow, ofSegment settings name (line + lines) segment = .ok expansionLow ∧
      Lowered lines expansion expansionLow := by
  cases segment with
  | code character =>
      obtain rfl := Except.ok.inj expanded
      exact ⟨_, rfl, lowered_verbatim lines _⟩
  | literal passed =>
      obtain rfl := Except.ok.inj expanded
      exact ⟨_, rfl, lowered_verbatim lines _⟩
  | site call =>
      obtain ⟨inside, expandedInside, finished⟩ := bind_eq_ok_iff.1 expanded
      obtain ⟨insideLow, expandedLow, low⟩ := inner call rfl _ _ expandedInside
      obtain ⟨expansionLow, finishedLow, lowered⟩ := low.site finished
      rw [Nat.add_right_comm] at expandedLow
      exact ⟨expansionLow, bind_eq_ok_iff.2 ⟨insideLow, expandedLow, finishedLow⟩, lowered⟩

theorem exists_lowered_ofSegments {settings : Settings} {name : List Char}
    {segments : List Segment} {lines : Nat}
    (inner : ∀ call, .site call ∈ segments → Lowers settings name lines call.arguments)
    {line : Nat} {expansion : SourceExpansion}
    (expanded : ofSegments settings name line segments = .ok expansion) :
    ∃ expansionLow, ofSegments settings name (line + lines) segments = .ok expansionLow ∧
      Lowered lines expansion expansionLow := by
  induction segments generalizing line expansion with
  | nil =>
      obtain rfl := Except.ok.inj expanded
      exact ⟨_, rfl, lowered_verbatim lines []⟩
  | cons segment others ih =>
      obtain ⟨first, later, expandedFirst, expandedLater, rfl⟩ :=
        ofSegments_cons_eq_ok_iff.1 expanded
      obtain ⟨firstLow, expandedFirstLow, lowFirst⟩ :=
        exists_lowered_ofSegment (fun call same => inner call (by simp [same])) expandedFirst
      obtain ⟨laterLow, expandedLaterLow, lowLater⟩ :=
        ih (fun call member => inner call (List.mem_cons_of_mem _ member)) expandedLater
      rw [Nat.add_right_comm] at expandedLaterLow
      refine ⟨firstLow.append laterLow, ?_, lowFirst.append lowLater⟩
      exact ofSegments_cons_eq_ok_iff.2
        ⟨firstLow, laterLow, expandedFirstLow, expandedLaterLow, rfl⟩

theorem lowers (settings : Settings) (name : List Char) (lines : Nat) (source : List Char) :
    Lowers settings name lines source := by
  induction size : source.length using Nat.strongRecOn generalizing source with
  | ind length ih =>
  intro line expansion expanded
  cases scanned : Segment.scan name source with
  | error fault =>
      rw [ofText_of_fault scanned] at expanded ⊢
      obtain rfl := Except.ok.inj expanded
      refine ⟨_, rfl, rfl, rfl, rfl, ?_⟩
      simp [uncut, SiteReport.lower, Nat.add_right_comm]
  | ok segments =>
      rw [ofText_of_scan scanned] at expanded ⊢
      refine exists_lowered_ofSegments ?_ expanded
      intro call member
      have shorter := Segment.arguments_length_lt_of_mem_scanFrom scanned member
      exact ih call.arguments.length (size ▸ shorter) call.arguments rfl

/-! ### A site on its own -/

theorem append_verbatim_nil (expansion : SourceExpansion) :
    expansion.append (verbatim []) = expansion := by
  simp [SourceExpansion.append, verbatim]

/-- The outcome of a closed site is that of its text, but for the lines of its reports. -/
theorem ofText_site {settings : Settings} {name rest : List Char} {previous : Option Char}
    {call : Site} (closedBefore : call.ClosedBefore name previous rest) (line : Nat) :
    ofText settings name line call.text = ofSegment settings name line (.site call) := by
  rw [ofText_of_scan closedBefore.scan_text, ofSegments, ofSegments]
  cases ofSegment settings name line (.site call) with
  | error fault => rfl
  | ok expansion => exact congrArg Except.ok (append_verbatim_nil expansion)

end SourceExpansion

/-! ### Weaving -/

/-- The text of an invocation in its source. -/
def Invocation.original (source : List Char) (invocation : Invocation) : List Char :=
  (source.take invocation.stop).drop invocation.start

theorem Invocation.original_append (before behind : List Char) (line : Nat) (call : Site) :
    Invocation.original (before ++ call.text ++ behind) ⟨before.length, line, call⟩ =
      call.text := by
  rw [Invocation.original, Invocation.stop, ← List.length_append, List.take_left,
    List.drop_left]

/-- The source from an offset on, with every invocation replaced by an expansion. -/
def Invocation.weave (source : List Char) :
    Nat → List (Invocation × SourceExpansion) → List Char
  | last, [] => source.drop last
  | last, (invocation, part) :: others =>
      (source.take invocation.start).drop last ++ part.text ++
        weave source invocation.stop others

namespace SourceExpansion

/-- An expansion that is made of expansions of invocations and of the source between them, from
an offset on. -/
structure WovenFrom (source : List Char) (last : Nat)
    (entries : List (Invocation × SourceExpansion)) (expansion : SourceExpansion) : Prop where
  text_eq : expansion.text = Invocation.weave source last entries
  sites_eq : expansion.sites = (entries.map (·.2.sites)).sum
  expanded_eq : expansion.expanded = (entries.map (·.2.expanded)).sum
  reports_eq : expansion.reports = entries.flatMap fun entry =>
    entry.2.reports.map (·.lower (Text.newlines (source.take entry.1.start)))

theorem wovenFrom_nil (settled gap : List Char) :
    WovenFrom (settled ++ gap) settled.length [] (verbatim gap) :=
  ⟨by simp [verbatim, Invocation.weave], rfl, rfl, rfl⟩

/-- The text before an invocation, its expansion, and what is woven behind it. -/
theorem WovenFrom.cons {source settled gap : List Char} {invocation : Invocation}
    (before : source.take invocation.start = settled ++ gap)
    {part lowered later : SourceExpansion} {entries : List (Invocation × SourceExpansion)}
    (low : Lowered (Text.newlines (settled ++ gap)) part lowered)
    (woven : WovenFrom source invocation.stop entries later) :
    WovenFrom source settled.length ((invocation, part) :: entries)
      ((verbatim gap).append (lowered.append later)) where
  text_eq := by
    simp only [SourceExpansion.append, verbatim, Invocation.weave, before, List.drop_left,
      low.text_eq, woven.text_eq, List.append_assoc]
  sites_eq := by
    simp only [SourceExpansion.append, verbatim, low.sites_eq, woven.sites_eq, List.map_cons,
      List.sum_cons, Nat.zero_add]
  expanded_eq := by
    simp only [SourceExpansion.append, verbatim, low.expanded_eq, woven.expanded_eq,
      List.map_cons, List.sum_cons, Nat.zero_add]
  reports_eq := by
    simp only [SourceExpansion.append, verbatim, low.reports_eq, woven.reports_eq,
      List.flatMap_cons, before, List.nil_append]

theorem verbatim_append_append (first second : List Char) (expansion : SourceExpansion) :
    (verbatim first).append ((verbatim second).append expansion) =
      (verbatim (first ++ second)).append expansion := by
  simp [SourceExpansion.append, verbatim]

theorem verbatim_nil_append (expansion : SourceExpansion) :
    (verbatim []).append expansion = expansion := by
  simp [SourceExpansion.append, verbatim]

/-- A closed site that is cut out and expanded on its own has the outcome it has in place. -/
theorem exists_expandSource_site {settings : Settings} {name : String}
    (usable : settings.Usable name) {rest : List Char} {previous : Option Char} {call : Site}
    (closedBefore : call.ClosedBefore name.toList previous rest) {lines : Nat}
    {expansion : SourceExpansion}
    (expanded : ofSegment settings name.toList (1 + lines) (.site call) = .ok expansion) :
    ∃ part, settings.expandSource call.text = .ok part ∧ Lowered lines part expansion := by
  obtain ⟨alone, expandedAlone⟩ := exists_ofText usable 1 call.text
  have inPlace := expandedAlone
  rw [ofText_site closedBefore] at inPlace
  obtain ⟨lowered, expandedLow, low⟩ := exists_lowered_ofSegment
    (fun inner _ => lowers settings name.toList lines inner.arguments) inPlace
  obtain rfl : lowered = expansion := Except.ok.inj (expandedLow.symm.trans expanded)
  exact ⟨_, usable.expandSource expandedAlone, low.text_eq, low.sites_eq, low.expanded_eq,
    low.reports_eq⟩

/-- The expansion of segments is woven from the expansions of the sites among them. -/
theorem exists_wovenFrom_of_ofSegments {settings : Settings} {name : String}
    (usable : settings.Usable name) {segments : List Segment}
    (closed : ∀ call, .site call ∈ segments →
      ∃ previous rest, call.ClosedBefore name.toList previous rest)
    {source settled gap : List Char}
    (whole : source = settled ++ gap ++ segments.flatMap Segment.text)
    {expansion : SourceExpansion}
    (expanded : ofSegments settings name.toList (1 + Text.newlines (settled ++ gap)) segments =
      .ok expansion) :
    ∃ entries,
      entries.map (·.1) = Invocation.ofSegments (settled ++ gap).length
        (1 + Text.newlines (settled ++ gap)) segments ∧
      (∀ entry ∈ entries, settings.expandSource (entry.1.original source) = .ok entry.2) ∧
      WovenFrom source settled.length entries ((verbatim gap).append expansion) := by
  -- Text that is no site joins the gap; a site settles the gap and itself.
  induction segments generalizing settled gap expansion with
  | nil =>
      obtain rfl := Except.ok.inj expanded
      rw [List.flatMap_nil, List.append_nil] at whole
      refine ⟨[], rfl, by simp, ?_⟩
      rw [whole, append_verbatim_nil]
      exact wovenFrom_nil settled gap
  | cons segment others ih =>
      obtain ⟨first, later, expandedFirst, expandedLater, rfl⟩ :=
        ofSegments_cons_eq_ok_iff.1 expanded
      have closedLater : ∀ call, .site call ∈ others →
          ∃ previous rest, call.ClosedBefore name.toList previous rest :=
        fun call member => closed call (List.mem_cons_of_mem _ member)
      have lineAfter : 1 + Text.newlines (settled ++ gap) + Text.newlines segment.text =
          1 + Text.newlines (settled ++ (gap ++ segment.text)) := by
        simp [Text.newlines, Nat.add_assoc]
      have offsetAfter : (settled ++ gap).length + segment.text.length =
          (settled ++ (gap ++ segment.text)).length := by
        simp [Nat.add_assoc]
      have wholeAfter : source =
          settled ++ (gap ++ segment.text) ++ others.flatMap Segment.text := by
        rw [whole, List.flatMap_cons]
        simp
      rw [lineAfter] at expandedLater
      cases segment with
      | code character =>
          obtain rfl := Except.ok.inj expandedFirst
          simp only [Invocation.ofSegments, offsetAfter, lineAfter, verbatim_append_append]
          exact ih closedLater wholeAfter expandedLater
      | literal passed =>
          obtain rfl := Except.ok.inj expandedFirst
          simp only [Invocation.ofSegments, offsetAfter, lineAfter, verbatim_append_append]
          exact ih closedLater wholeAfter expandedLater
      | site call =>
          obtain ⟨previous, behind, closedBefore⟩ := closed call (by simp)
          obtain ⟨part, expandedPart, low⟩ :=
            exists_expandSource_site usable closedBefore expandedFirst
          rw [← List.append_nil (settled ++ _)] at wholeAfter expandedLater
          obtain ⟨entries, found, parts, woven⟩ := ih closedLater wholeAfter expandedLater
          rw [List.append_nil] at found
          rw [← offsetAfter, verbatim_nil_append] at woven
          simp only [Invocation.ofSegments, offsetAfter, lineAfter]
          refine ⟨(⟨(settled ++ gap).length, 1 + Text.newlines (settled ++ gap), call⟩, part) ::
            entries, ?_, ?_, ?_⟩
          · rw [List.map_cons, found]
          · intro entry member
            rcases List.mem_cons.1 member with rfl | member
            · rw [whole, List.flatMap_cons, Segment.text, ← List.append_assoc,
                Invocation.original_append]
              exact expandedPart
            · exact parts entry member
          · refine WovenFrom.cons ?_ low woven
            rw [whole, List.take_left]

end SourceExpansion

theorem Settings.Usable.exists_wovenFrom {settings : Settings} {name : String}
    (usable : settings.Usable name) {source : List Char} {segments : List Segment}
    (scanned : Segment.scan name.toList source = .ok segments) :
    ∃ whole entries,
      settings.expandSource source = .ok whole ∧
      entries.map (·.1) = Invocation.ofSegments 0 1 segments ∧
      (∀ entry ∈ entries, settings.expandSource (entry.1.original source) = .ok entry.2) ∧
      whole.WovenFrom source 0 entries := by
  obtain ⟨joined, cuts⟩ := Segment.scanFrom_eq_ok_iff.1 scanned
  obtain ⟨expansion, expanded⟩ :=
    SourceExpansion.exists_ofText usable 1 source
  have whole : source = [] ++ [] ++ segments.flatMap Segment.text := joined
  have bySegments : SourceExpansion.ofSegments settings name.toList
      (1 + Text.newlines ([] ++ [])) segments = .ok expansion := by
    rw [← expanded, SourceExpansion.ofText_of_scan scanned]
    rfl
  obtain ⟨entries, places, parts, woven⟩ :=
    SourceExpansion.exists_wovenFrom_of_ofSegments usable
      (fun call member => Segment.exists_closedBefore_of_mem cuts member) whole bySegments
  rw [SourceExpansion.verbatim_nil_append] at woven
  exact ⟨_, entries, usable.expandSource expanded, places, parts, woven.text_eq, woven.sites_eq,
    woven.expanded_eq, woven.reports_eq⟩

/-- The expansion of a source whose sites are found is woven from the text between them and from
the expansions of their texts, each taken as a source of its own.  The counts are those of the
parts together, and so are the reports, each lowered by the lines before its site. -/
theorem Settings.Usable.expandSource_woven {settings : Settings} {name : String}
    (usable : settings.Usable name) {source : List Char} {invocations : List Invocation}
    (found : Invocation.find name.toList source = .ok invocations) :
    ∃ whole entries,
      settings.expandSource source = .ok whole ∧
      entries.map (·.1) = invocations ∧
      (∀ entry ∈ entries, settings.expandSource (entry.1.original source) = .ok entry.2) ∧
      whole.WovenFrom source 0 entries := by
  obtain ⟨segments, scanned, rfl⟩ := Invocation.find_eq_ok_iff.1 found
  exact usable.exists_wovenFrom scanned

/-- Two sites on two lines, the second of which is malformed. -/
theorem Settings.Usable.expandSource_woven_two_sites :
    ∃ first second,
      Invocation.find "capture".toList
        "a capture!(move x in x)\ncapture![ref in y]".toList = .ok [first, second] ∧
      ∃ whole entries,
        ({} : Settings).expandSource
          "a capture!(move x in x)\ncapture![ref in y]".toList = .ok whole ∧
        entries.map (·.1) = [first, second] ∧
        (∀ entry ∈ entries, ({} : Settings).expandSource (entry.1.original
          "a capture!(move x in x)\ncapture![ref in y]".toList) = .ok entry.2) ∧
        whole.WovenFrom "a capture!(move x in x)\ncapture![ref in y]".toList 0 entries := by
  have found : Invocation.find "capture".toList
      "a capture!(move x in x)\ncapture![ref in y]".toList = .ok
        [⟨2, 1, ⟨"capture!".toList, .round, "move x in x".toList⟩⟩,
          ⟨24, 2, ⟨"capture!".toList, .square, "ref in y".toList⟩⟩] := by
    with_unfolding_all rfl
  exact ⟨_, _, found, Settings.Usable.expandSource_woven Settings.usable_default found⟩

end ClosureCapture
