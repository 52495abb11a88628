import ClosureCapture.Proofs.Source.Replacement

/-!
# Where failing sites are reported

A site inside another one is scanned as part of the arguments of that one, with lines that are
counted on from level to level.  This file proves that the lines are those of the source
nevertheless: each report belongs to a site that does not expand, quotes the slice of the source
that the site is, and counts its line from the start of the source.  The reports stand in the order
of the sites, with the sites inside a site before it and otherwise from left to right.
-/

namespace ClosureCapture

namespace Invocation

variable {name : List Char} {offset line : Nat} {source : List Char}

/-! ### The places of sites inside sites -/

/-- A place in the arguments of a site is a place in the text around the site. -/
theorem StandsAt.of_arguments {outer inner : Invocation}
    (outerStands : outer.StandsAt offset line source)
    (innerStands : inner.StandsAt (outer.start + (outer.site.head.length + 1))
      (outer.line + Text.newlines outer.site.head) outer.site.arguments) :
    inner.StandsAt offset line source := by
  obtain ⟨before, behind, rfl, start, onLine⟩ := outerStands
  obtain ⟨front, rest, arguments, innerStart, innerLine⟩ := innerStands
  have opening : Text.newlines [outer.site.bracket.opening] = 0 := by
    cases outer.site.bracket <;> decide
  refine ⟨before ++ outer.site.head ++ [outer.site.bracket.opening] ++ front,
    rest ++ [outer.site.bracket.closing] ++ behind, ?_, ?_, ?_⟩
  · rw [Site.text, arguments]
    simp
  · rw [innerStart, start]
    simp only [List.length_append, List.length_singleton]
    omega
  · simp only [Text.newlines, List.count_append] at opening onLine innerLine ⊢
    omega

theorem standsAt_of_mem_deep {invocation : Invocation}
    (member : invocation ∈ deep name offset line source) :
    invocation.StandsAt offset line source := by
  induction size : source.length using Nat.strongRecOn generalizing offset line source with
  | ind length ih =>
  cases scanned : Segment.scan name source with
  | error fault => simp [deep_of_fault scanned] at member
  | ok segments =>
      rw [deep_of_scan scanned, List.mem_flatMap] at member
      obtain ⟨outer, outerMember, within⟩ := member
      have outerStands := standsAt_of_mem_ofSegments outerMember
      rw [← (Segment.scanFrom_eq_ok_iff.1 scanned).1] at outerStands
      rcases List.mem_append.1 within with deeper | itself
      · have shorter := Segment.arguments_length_lt_of_mem_scanFrom scanned
          (site_mem_of_mem_ofSegments outerMember)
        exact outerStands.of_arguments (ih _ (size ▸ shorter) deeper rfl)
      · obtain rfl := List.mem_singleton.1 itself
        exact outerStands

/-! ### The order of the sites -/

/-- The order from the inside out and from left to right: a site ends before the other one starts,
or it lies inside the other one. -/
def Precedes (first second : Invocation) : Prop :=
  first.stop ≤ second.start ∨ (second.start < first.start ∧ first.stop < second.stop)

theorem Precedes.start_ne {first second : Invocation} (precedes : first.Precedes second) :
    first.start ≠ second.start := by
  have forward := first.start_lt_stop
  rcases precedes with apart | ⟨inside, -⟩
  · omega
  · omega

theorem lies_of_mem_inside {outer inner : Invocation} (member : inner ∈ outer.inside name) :
    outer.start < inner.start ∧ inner.stop < outer.stop := by
  have stands := standsAt_of_mem_deep member
  have ends := stands.stop_le
  obtain ⟨front, -, -, start, -⟩ := stands
  refine ⟨by omega, Nat.lt_of_le_of_lt ends ?_⟩
  simp only [stop, Site.text, List.length_append, List.length_cons, List.length_nil]
  omega

theorem le_of_mem_withInner {outer invocation : Invocation}
    (member : invocation ∈ outer.withInner name) :
    outer.start ≤ invocation.start ∧ invocation.stop ≤ outer.stop := by
  rcases List.mem_append.1 member with inside | itself
  · obtain ⟨starts, stops⟩ := lies_of_mem_inside inside
    exact ⟨Nat.le_of_lt starts, Nat.le_of_lt stops⟩
  · obtain rfl := List.mem_singleton.1 itself
    exact ⟨Nat.le_refl _, Nat.le_refl _⟩

theorem pairwise_deep : (deep name offset line source).Pairwise Precedes := by
  induction size : source.length using Nat.strongRecOn generalizing offset line source with
  | ind length ih =>
  cases scanned : Segment.scan name source with
  | error fault =>
      rw [deep_of_fault scanned]
      exact .nil
  | ok segments =>
      rw [deep_of_scan scanned, List.pairwise_flatMap]
      constructor
      · -- Within one outermost site all others lie inside it, and it comes last.
        intro outer member
        have shorter := Segment.arguments_length_lt_of_mem_scanFrom scanned
          (site_mem_of_mem_ofSegments member)
        refine List.pairwise_append.2 ⟨ih _ (size ▸ shorter) rfl, List.pairwise_singleton .., ?_⟩
        intro inner inside other itself
        obtain rfl := List.mem_singleton.1 itself
        exact .inr (lies_of_mem_inside inside)
      · -- What lies in two outermost sites is as far apart as they are.
        refine (pairwise_ofSegments offset line segments).imp ?_
        intro first second apart inFirst firstMember inSecond secondMember
        have firstBounds := le_of_mem_withInner firstMember
        have secondBounds := le_of_mem_withInner secondMember
        exact .inl (by omega)

end Invocation

namespace SourceExpansion

variable {settings : Settings} {name : String} (usable : settings.Usable name)

include usable

/-- A site that does not expand is reported behind the sites inside it. -/
theorem reports_of_site {line : Nat} {call : Site} {inside part : SourceExpansion}
    (expandedInside : ofText settings name.toList (line + Text.newlines call.head) call.arguments =
      .ok inside)
    (finished : site settings line call inside = .ok part) :
    (part.reports.map fun report => (report.line, report.text)) =
      (inside.reports.map fun report => (report.line, report.text)) ++
        if call.expands settings then [] else [(line, call.text)] := by
  have expands := expands_eq usable expandedInside
  obtain ⟨found, succeeded, -, outcome⟩ := site_cases usable.renderable line call inside
  obtain rfl := Except.ok.inj (succeeded.symm.trans finished)
  rcases outcome with ⟨text, succeeds, -, -, reports⟩ | ⟨error, diagnostic, fails, -, -, -, reports⟩
  · rw [succeeds] at expands
    rw [expands, reports]
    exact (List.append_nil _).symm
  · rw [fails] at expands
    rw [expands, reports, List.map_append]
    rfl

theorem reports_of_ofText {source : List Char} {segments : List Segment}
    (scanned : Segment.scan name.toList source = .ok segments) {line : Nat}
    {expansion : SourceExpansion}
    (expanded : ofText settings name.toList line source = .ok expansion) (offset : Nat) :
    (expansion.reports.map fun report => (report.line, report.text)) =
      ((Invocation.deep name.toList offset line source).filter
        (!·.site.expands settings)).map fun failing => (failing.line, failing.site.text) := by
  refine ofText_deep_induction (motive := fun sites _ part =>
    (part.reports.map fun report => (report.line, report.text)) =
      (sites.filter (!·.site.expands settings)).map fun failing =>
        (failing.line, failing.site.text)) ?_ ?_ ?_ usable.isName scanned expanded offset
  · intro text
    rfl
  · intro firstSites secondSites firstText secondText first second reportsFirst reportsSecond
    rw [List.filter_append, List.map_append, ← reportsFirst, ← reportsSecond, ← List.map_append]
    rfl
  · intro invocation inner inside part reportsInside expandedInside finished
    rw [reports_of_site usable expandedInside finished, reportsInside, List.filter_append,
      List.map_append]
    cases expands : invocation.site.expands settings <;> simp [expands]

end SourceExpansion

/-- Every report belongs to a site that does not expand.  It quotes the slice of the source that the
site is and gives the line on which the site starts in the source.  No two reports belong to one
site, and they follow each other from the inside out and from left to right. -/
theorem Settings.Usable.expandSource_reports_sites {settings : Settings} {name : String}
    (usable : settings.Usable name) {source : List Char} {invocations : List Invocation}
    (found : Invocation.find name.toList source = .ok invocations) :
    let failing := (Invocation.deep name.toList 0 1 source).filter (!·.site.expands settings)
    ∃ expansion, settings.expandSource source = .ok expansion ∧
      (expansion.reports.map fun report => (report.line, report.text)) =
        (failing.map fun site =>
          (1 + Text.newlines (source.take site.start), site.original source)) ∧
      (∀ site ∈ failing, site.start < site.stop ∧ site.stop ≤ source.length ∧
        site.original source = site.site.text) ∧
      (failing.map (·.start)).Nodup ∧ failing.Pairwise Invocation.Precedes := by
  intro failing
  obtain ⟨segments, scanned, -⟩ := Invocation.find_eq_ok_iff.1 found
  obtain ⟨inner, expanded⟩ := SourceExpansion.exists_ofText usable 1 source
  have reports := SourceExpansion.reports_of_ofText usable scanned expanded 0
  have stands : ∀ site ∈ failing, site.StandsAt 0 1 source := fun site member =>
    Invocation.standsAt_of_mem_deep (List.mem_filter.1 member).1
  have ordered : failing.Pairwise Invocation.Precedes := Invocation.pairwise_deep.filter _
  refine ⟨_, usable.expandSource expanded, reports.trans ?_, ?_, ?_, ordered⟩
  · refine List.map_congr_left fun site member => ?_
    rw [(stands site member).line_eq, (stands site member).original_eq]
  · intro site member
    have ends := (stands site member).stop_le
    rw [Nat.zero_add] at ends
    exact ⟨site.start_lt_stop, ends, (stands site member).original_eq⟩
  · exact List.pairwise_map.2 (ordered.imp Invocation.Precedes.start_ne)

/-- A site that fails inside one that fails, each on its own line. -/
theorem Settings.Usable.expandSource_reports_sites_nested :
    ∃ expansion, ({} : Settings).expandSource
        "\ncapture!(move in\ncapture!(ref in x))".toList = .ok expansion ∧
      (expansion.reports.map fun report => (report.line, report.text)) =
        [(3, "capture!(ref in x)".toList),
          (2, "capture!(move in\ncapture!(ref in x))".toList)] := by
  have found : Invocation.find "capture".toList "\ncapture!(move in\ncapture!(ref in x))".toList =
      .ok [⟨1, 2, "capture!".toList, .round, "move in\ncapture!(ref in x)".toList⟩] := by
    with_unfolding_all rfl
  have failing : ((Invocation.deep "capture".toList 0 1
      "\ncapture!(move in\ncapture!(ref in x))".toList).filter
        (!·.site.expands {})).map (fun site =>
        (1 + Text.newlines ("\ncapture!(move in\ncapture!(ref in x))".toList.take site.start),
          site.original "\ncapture!(move in\ncapture!(ref in x))".toList)) =
      [(3, "capture!(ref in x)".toList),
        (2, "capture!(move in\ncapture!(ref in x))".toList)] := by
    decide +kernel
  obtain ⟨expansion, expanded, reports, -⟩ :=
    Settings.Usable.expandSource_reports_sites Settings.usable_default found
  exact ⟨expansion, expanded, reports.trans failing⟩

end ClosureCapture
