import ClosureCapture.Proofs.Source.Outcome

/-!
# Counting sites and reports

Under usable settings an expansion ends in one of two ways.  Either the text could not be cut,
and it is kept whole with a single report that quotes nothing; or every site, at whatever depth,
was counted once, and each of them was expanded or reported with its own text.  Cutting never
fails at a lower level, because the arguments of a closed site hold no broken site.
-/

namespace ClosureCapture

namespace Invocation

theorem site_mem_of_mem_ofSegments {offset line : Nat} {segments : List Segment}
    {invocation : Invocation} (member : invocation ∈ ofSegments offset line segments) :
    .site invocation.site ∈ segments := by
  induction segments generalizing offset line with
  | nil => simp [ofSegments] at member
  | cons segment others ih =>
      cases segment with
      | site call =>
          rcases List.mem_cons.1 member with rfl | later
          · simp
          · exact List.mem_cons_of_mem _ (ih later)
      | code character => exact List.mem_cons_of_mem _ (ih member)
      | literal passed => exact List.mem_cons_of_mem _ (ih member)

/-- The sites of a source text at all depths with their places, given the offset and the line of
its first character.  The sites inside a site come before it. -/
def deep (name : List Char) (offset line : Nat) (source : List Char) : List Invocation :=
  match _cut : Segment.scan name source with
  | .error _ => []
  | .ok segments =>
      (ofSegments offset line segments).attach.flatMap fun ⟨invocation, _member⟩ =>
        deep name (invocation.start + (invocation.site.head.length + 1))
          (invocation.line + Text.newlines invocation.site.head) invocation.site.arguments ++
        [invocation]
termination_by source.length
decreasing_by
  exact Segment.arguments_length_lt_of_mem_scanFrom _cut (site_mem_of_mem_ofSegments _member)

/-- The sites inside a site, then the site itself. -/
def withInner (name : List Char) (invocation : Invocation) : List Invocation :=
  deep name (invocation.start + (invocation.site.head.length + 1))
    (invocation.line + Text.newlines invocation.site.head) invocation.site.arguments ++
  [invocation]

theorem deep_of_scan {name source : List Char} {segments : List Segment}
    (scanned : Segment.scan name source = .ok segments) (offset line : Nat) :
    deep name offset line source = (ofSegments offset line segments).flatMap (withInner name) := by
  rw [deep.eq_def]
  split
  · next fault failed => simp [scanned] at failed
  · next others found =>
      obtain rfl : segments = others := by simpa [scanned] using found
      rw [List.flatMap_subtype (g := withInner name), List.unattach_attach]
      intro invocation member
      rfl

theorem deep_of_fault {name source : List Char} {fault : SiteFault}
    (failed : Segment.scan name source = .error fault) (offset line : Nat) :
    deep name offset line source = [] := by
  rw [deep.eq_def]
  split
  · rfl
  · next segments scanned => simp [failed] at scanned

/-- Whatever the depth of a site, its arguments can be cut. -/
theorem exists_scan_of_mem_deep {name : String} (isName : Text.isName name = true)
    {offset line : Nat} {source : List Char} {invocation : Invocation}
    (member : invocation ∈ deep name.toList offset line source) :
    ∃ segments, Segment.scan name.toList invocation.site.arguments = .ok segments := by
  induction size : source.length using Nat.strongRecOn generalizing offset line source with
  | ind length ih =>
  cases scanned : Segment.scan name.toList source with
  | error fault => simp [deep_of_fault scanned] at member
  | ok segments =>
      rw [deep_of_scan scanned, List.mem_flatMap] at member
      obtain ⟨outer, outerMember, inside⟩ := member
      have outerSite := site_mem_of_mem_ofSegments outerMember
      have shorter := Segment.arguments_length_lt_of_mem_scanFrom scanned outerSite
      rcases List.mem_append.1 inside with inner | itself
      · exact ih outer.site.arguments.length (size ▸ shorter) inner rfl
      · obtain rfl := List.mem_singleton.1 itself
        exact Segment.exists_scan_arguments isName scanned outerSite

end Invocation

theorem Site.arguments_infix_text (call : Site) : call.arguments <:+: call.text :=
  ⟨call.head ++ [call.bracket.opening], [call.bracket.closing], by simp [Site.text]⟩

namespace SourceExpansion

/-! ### Induction on the sites of a text -/

section Induction

variable {settings : Settings} {name : String}
  {motive : List Invocation → List Char → SourceExpansion → Prop}
  (verbatim : ∀ text, motive [] text (verbatim text))
  (append : ∀ {firstSites secondSites : List Invocation} {firstText secondText : List Char}
    {first second : SourceExpansion}, motive firstSites firstText first →
    motive secondSites secondText second →
    motive (firstSites ++ secondSites) (firstText ++ secondText) (first.append second))
  (site : ∀ {invocation : Invocation} {inner : List Invocation}
    {inside expansion : SourceExpansion}, motive inner invocation.site.arguments inside →
    ofText settings name.toList (invocation.line + Text.newlines invocation.site.head)
      invocation.site.arguments = .ok inside →
    site settings invocation.line invocation.site inside = .ok expansion →
    motive (inner ++ [invocation]) invocation.site.text expansion)

include verbatim append site

theorem ofSegments_deep_induction {segments : List Segment}
    (inner : ∀ call, .site call ∈ segments → ∀ line inside offset,
      ofText settings name.toList line call.arguments = .ok inside →
      motive (Invocation.deep name.toList offset line call.arguments) call.arguments inside)
    {line : Nat} {expansion : SourceExpansion}
    (expanded : ofSegments settings name.toList line segments = .ok expansion) (offset : Nat) :
    motive ((Invocation.ofSegments offset line segments).flatMap
      (Invocation.withInner name.toList)) (segments.flatMap Segment.text) expansion := by
  induction segments generalizing line expansion offset with
  | nil =>
      obtain rfl := Except.ok.inj expanded
      exact verbatim []
  | cons segment others ih =>
      obtain ⟨first, later, expandedFirst, expandedLater, rfl⟩ :=
        ofSegments_cons_eq_ok_iff.1 expanded
      have holdsLater := ih (fun call member => inner call (List.mem_cons_of_mem _ member))
        expandedLater (offset + segment.text.length)
      cases segment with
      | code character =>
          obtain rfl := Except.ok.inj expandedFirst
          exact append (verbatim [character]) holdsLater
      | literal passed =>
          obtain rfl := Except.ok.inj expandedFirst
          exact append (verbatim passed) holdsLater
      | site call =>
          obtain ⟨inside, expandedInside, finished⟩ := bind_eq_ok_iff.1 expandedFirst
          have holdsInside := inner call (by simp) _ inside (offset + (call.head.length + 1))
            expandedInside
          have holdsSite := @site ⟨offset, line, call⟩ _ _ _ holdsInside expandedInside finished
          exact append holdsSite holdsLater

/-- What holds of a text without sites, of one text after another if it holds of both, and of a
site if it holds of its arguments, holds of every text that can be cut and the sites in it at all
depths. -/
theorem ofText_deep_induction (isName : Text.isName name = true) {source : List Char}
    {segments : List Segment} (scanned : Segment.scan name.toList source = .ok segments)
    {line : Nat} {expansion : SourceExpansion}
    (expanded : ofText settings name.toList line source = .ok expansion) (offset : Nat) :
    motive (Invocation.deep name.toList offset line source) source expansion := by
  induction size : source.length using Nat.strongRecOn
    generalizing source segments line expansion offset with
  | ind length ih =>
  rw [ofText_of_scan scanned] at expanded
  rw [Invocation.deep_of_scan scanned, (Segment.scanFrom_eq_ok_iff.1 scanned).1]
  apply ofSegments_deep_induction verbatim append site ?_ expanded
  intro call member innerLine inside innerOffset expandedInside
  have shorter := Segment.arguments_length_lt_of_mem_scanFrom scanned member
  obtain ⟨inner, innerScanned⟩ := Segment.exists_scan_arguments isName scanned member
  exact ih call.arguments.length (size ▸ shorter) innerScanned expandedInside innerOffset rfl

end Induction

/-! ### Counts -/

/-- The text is kept whole, with one report that quotes nothing. -/
structure Kept (source : List Char) (expansion : SourceExpansion) : Prop where
  text_eq : expansion.text = source
  sites_eq : expansion.sites = 0
  expanded_eq : expansion.expanded = 0
  reports_eq : ∃ line message, expansion.reports = [⟨line, message, []⟩]

/-- A number of sites was met, each was expanded or reported, and the reports quote the text. -/
structure Counts (count : Nat) (source : List Char) (expansion : SourceExpansion) : Prop where
  sites_eq : expansion.sites = count
  balance : expansion.sites = expansion.expanded + expansion.reports.length
  quoted : ∀ report ∈ expansion.reports, report.text ≠ [] ∧ report.text <:+: source

theorem Kept.not_counts {source : List Char} {expansion : SourceExpansion} {count : Nat}
    (kept : expansion.Kept source) : ¬ expansion.Counts count source := by
  intro counts
  obtain ⟨line, message, reports⟩ := kept.reports_eq
  have balance := counts.balance
  rw [kept.sites_eq, kept.expanded_eq, reports] at balance
  simp at balance

theorem kept_uncut (line : Nat) (fault : SiteFault) (source : List Char) :
    (uncut line fault source).Kept source :=
  ⟨rfl, rfl, rfl, _, _, rfl⟩

theorem counts_verbatim (text : List Char) : (verbatim text).Counts 0 text :=
  ⟨rfl, rfl, by simp [verbatim]⟩

theorem Counts.append {firstCount secondCount : Nat} {firstText secondText : List Char}
    {first second : SourceExpansion} (firstCounts : first.Counts firstCount firstText)
    (secondCounts : second.Counts secondCount secondText) :
    (first.append second).Counts (firstCount + secondCount) (firstText ++ secondText) where
  sites_eq := by
    simp only [SourceExpansion.append, firstCounts.sites_eq, secondCounts.sites_eq]
  balance := by
    have firstBalance := firstCounts.balance
    have secondBalance := secondCounts.balance
    simp only [SourceExpansion.append, List.length_append]
    omega
  quoted := by
    intro report member
    rcases List.mem_append.1 member with early | late
    · obtain ⟨nonempty, inside⟩ := firstCounts.quoted report early
      exact ⟨nonempty, inside.trans (List.prefix_append _ _).isInfix⟩
    · obtain ⟨nonempty, inside⟩ := secondCounts.quoted report late
      exact ⟨nonempty, inside.trans (List.suffix_append _ _).isInfix⟩

/-- A site counts once more than the sites inside it, and is expanded or reported. -/
theorem Counts.site {settings : Settings} {name : String} (usable : settings.Usable name)
    {line count : Nat} {call : Site} {inside expansion : SourceExpansion}
    (inner : inside.Counts count call.arguments)
    (expanded : SourceExpansion.site settings line call inside = .ok expansion) :
    expansion.Counts (count + 1) call.text := by
  obtain ⟨found, succeeded, sites, outcome⟩ := site_cases usable.renderable line call inside
  obtain rfl : found = expansion := Except.ok.inj (succeeded.symm.trans expanded)
  have innerQuoted : ∀ report ∈ inside.reports,
      report.text ≠ [] ∧ report.text <:+: call.text := by
    intro report member
    obtain ⟨nonempty, quoted⟩ := inner.quoted report member
    exact ⟨nonempty, quoted.trans (Site.arguments_infix_text call)⟩
  have innerBalance := inner.balance
  rcases outcome with
    ⟨text, -, -, isExpanded, reports⟩ | ⟨error, diagnostic, -, -, -, kept, reports⟩
  · refine ⟨by rw [sites, inner.sites_eq], ?_, ?_⟩
    · rw [sites, isExpanded, reports]
      omega
    · rw [reports]
      exact innerQuoted
  · refine ⟨by rw [sites, inner.sites_eq], ?_, ?_⟩
    · rw [sites, kept, reports, List.length_append, List.length_singleton]
      omega
    · rw [reports]
      intro report member
      rcases List.mem_append.1 member with early | last
      · exact innerQuoted report early
      · obtain rfl := List.mem_singleton.1 last
        exact ⟨by simp [Site.text], List.infix_refl _⟩

/-- A text that can be cut is counted, at all its depths. -/
theorem counts_of_ofText {settings : Settings} {name : String} (usable : settings.Usable name)
    {source : List Char} {segments : List Segment}
    (scanned : Segment.scan name.toList source = .ok segments) {line : Nat}
    {expansion : SourceExpansion}
    (expanded : ofText settings name.toList line source = .ok expansion) (offset : Nat) :
    expansion.Counts (Invocation.deep name.toList offset line source).length source := by
  refine ofText_deep_induction (motive := fun sites text part => part.Counts sites.length text)
    counts_verbatim ?_ ?_ usable.isName scanned expanded offset
  · intro firstSites secondSites firstText secondText first second firstCounts secondCounts
    rw [List.length_append]
    exact firstCounts.append secondCounts
  · intro invocation inner inside part insideCounts _ finished
    rw [List.length_append]
    exact insideCounts.site usable finished

end SourceExpansion

/-- A source that cannot be cut is kept, with a report of the place of the fault. -/
theorem Settings.Usable.expandSource_of_fault {settings : Settings} {name : String}
    (usable : settings.Usable name) {source : List Char} {fault : SiteFault}
    (failed : Segment.scan name.toList source = .error fault) :
    ∃ expansion, settings.expandSource source = .ok expansion ∧ expansion.Kept source ∧
      expansion.reports = [⟨1 + Text.newlines (source.take fault.offset), fault.message, []⟩] := by
  have kept := SourceExpansion.kept_uncut 1 fault source
  exact ⟨_, usable.expandSource (SourceExpansion.ofText_of_fault failed 1),
    ⟨kept.text_eq, kept.sites_eq, kept.expanded_eq, kept.reports_eq⟩, rfl⟩

theorem Settings.Usable.counts_of_scan {settings : Settings} {name : String}
    (usable : settings.Usable name) {source : List Char} {segments : List Segment}
    (scanned : Segment.scan name.toList source = .ok segments) {expansion : SourceExpansion}
    (expanded : settings.expandSource source = .ok expansion) :
    expansion.Counts (Invocation.deep name.toList 0 1 source).length source := by
  obtain ⟨inner, expandedInner⟩ :=
    SourceExpansion.exists_ofText usable 1 source
  obtain rfl := Except.ok.inj ((usable.expandSource expandedInner).symm.trans expanded)
  have counts := SourceExpansion.counts_of_ofText usable scanned expandedInner 0
  exact ⟨counts.sites_eq, counts.balance, counts.quoted⟩

/-- At no depth does a search for sites fail.  An expansion either keeps a text that could not be
cut, or counts every site at every depth as expanded or as reported. -/
theorem Settings.Usable.expandSource_kept_or_counts {settings : Settings} {name : String}
    (usable : settings.Usable name) (source : List Char) :
    (∀ invocation ∈ Invocation.deep name.toList 0 1 source,
      ∃ inner, Invocation.find name.toList invocation.site.arguments = .ok inner) ∧
    ∃ expansion, settings.expandSource source = .ok expansion ∧
      (((∃ fault, Invocation.find name.toList source = .error fault) ∧ expansion.Kept source ∧
          ¬ expansion.Counts (Invocation.deep name.toList 0 1 source).length source) ∨
        ((∃ invocations, Invocation.find name.toList source = .ok invocations) ∧
          expansion.Counts (Invocation.deep name.toList 0 1 source).length source ∧
          ¬ expansion.Kept source)) := by
  constructor
  · intro invocation member
    obtain ⟨segments, scanned⟩ := Invocation.exists_scan_of_mem_deep usable.isName member
    exact ⟨_, Invocation.find_eq_ok_iff.2 ⟨segments, scanned, rfl⟩⟩
  cases scanned : Segment.scan name.toList source with
  | error fault =>
      obtain ⟨expansion, expanded, kept, -⟩ := usable.expandSource_of_fault scanned
      exact ⟨expansion, expanded,
        .inl ⟨⟨fault, Invocation.find_eq_error_iff.2 scanned⟩, kept, kept.not_counts⟩⟩
  | ok segments =>
      obtain ⟨inner, expandedInner⟩ := SourceExpansion.exists_ofText usable 1 source
      have expanded := usable.expandSource expandedInner
      have counts := usable.counts_of_scan scanned expanded
      refine ⟨_, expanded,
        .inr ⟨⟨_, Invocation.find_eq_ok_iff.2 ⟨segments, scanned, rfl⟩⟩, counts, ?_⟩⟩
      intro kept
      exact kept.not_counts counts

/-- A site whose body holds another one. -/
theorem Settings.Usable.expandSource_kept_or_counts_nested :
    (∀ invocation ∈ Invocation.deep "capture".toList 0 1
        "f(capture!(move x in capture![ref y in (x, y)]))".toList,
      ∃ inner, Invocation.find "capture".toList invocation.site.arguments = .ok inner) ∧
    ∃ expansion,
      ({} : Settings).expandSource
        "f(capture!(move x in capture![ref y in (x, y)]))".toList = .ok expansion ∧
      expansion.Counts 2 "f(capture!(move x in capture![ref y in (x, y)]))".toList := by
  obtain ⟨nested, expansion, expanded, outcome⟩ := Settings.Usable.expandSource_kept_or_counts
    Settings.usable_default "f(capture!(move x in capture![ref y in (x, y)]))".toList
  refine ⟨nested, expansion, expanded, ?_⟩
  have found : ∃ invocations, Invocation.find "capture".toList
      "f(capture!(move x in capture![ref y in (x, y)]))".toList = .ok invocations :=
    ⟨_, by with_unfolding_all rfl⟩
  have depth : (Invocation.deep "capture".toList 0 1
      "f(capture!(move x in capture![ref y in (x, y)]))".toList).length = 2 := by
    decide +kernel
  rcases outcome with ⟨⟨fault, failed⟩, -⟩ | ⟨-, counts, -⟩
  · obtain ⟨invocations, found⟩ := found
    exact nomatch failed.symm.trans found
  · rwa [depth] at counts

end ClosureCapture
