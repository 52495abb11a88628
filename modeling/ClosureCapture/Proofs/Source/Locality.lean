import ClosureCapture.Proofs.Site.Opacity
import ClosureCapture.Proofs.Source.Counts
import ClosureCapture.Proofs.Source.Independence

/-!
# How far an error reaches

A site that cannot be expanded is left as it stands, and the sites around it are replaced all the
same.  A broken site reaches further: since the sites are found before any of them is expanded,
the whole source is kept, with a single report of the place of the fault.  So a site is replaced
exactly when no broken site stands behind it.
-/

namespace ClosureCapture

namespace Settings.Usable

variable {settings : Settings} {name : String}

/-- A site on its own, when its arguments expand. -/
theorem expandSource_site (usable : settings.Usable name) {previous : Option Char}
    {behind : List Char} {call : Site}
    (closedBefore : call.ClosedBefore name.toList previous behind) {inside : SourceExpansion}
    (expandedInside : settings.expandSource call.arguments = .ok inside) {text : String}
    (expands : (CaptureList.expandText inside.text settings.target settings).outcome = .ok text) :
    ∃ part, settings.expandSource call.text = .ok part ∧ part.text = text.toList := by
  obtain ⟨inner, expandedInner⟩ :=
    SourceExpansion.exists_ofText usable 1 call.arguments
  obtain rfl := Except.ok.inj ((usable.expandSource expandedInner).symm.trans expandedInside)
  obtain ⟨innerLow, expandedLow, low⟩ :=
    SourceExpansion.lowers settings name.toList (Text.newlines call.head) call.arguments 1 inner
      expandedInner
  obtain ⟨part, succeeded, -, outcome⟩ :=
    SourceExpansion.site_cases usable.renderable 1 call innerLow
  have expanded : SourceExpansion.ofText settings name.toList 1 call.text = .ok part := by
    rw [SourceExpansion.ofText_site closedBefore]
    exact bind_eq_ok_iff.2 ⟨innerLow, expandedLow, succeeded⟩
  refine ⟨_, usable.expandSource expanded, ?_⟩
  rw [low.text_eq] at outcome
  rcases outcome with ⟨result, expandedText, replaced, -⟩ | ⟨error, diagnostic, failed, -⟩
  · obtain rfl := Except.ok.inj (expandedText.symm.trans expands)
    exact replaced
  · exact nomatch failed.symm.trans expands

/-- A source with a broken site behind another site is kept as it stands, and its only report is
about a place behind that other site. -/
theorem expandSource_of_reachesBroken (usable : settings.Usable name)
    {source behind : List Char} {before : List Segment} {call : Site}
    (stands : call.StandsIn name.toList source before behind)
    (reaches : Segment.ReachesBroken name.toList (some call.bracket.closing) behind) :
    ∃ expansion fault,
      settings.expandSource source = .ok expansion ∧ expansion.Kept source ∧
      Invocation.find name.toList source = .error fault ∧
      (before.flatMap Segment.text ++ call.text).length ≤ fault.offset ∧
      expansion.reports = [⟨1 + Text.newlines (source.take fault.offset), fault.message, []⟩] := by
  obtain ⟨fault, failed, inside⟩ := reaches.scanFrom
    (before.flatMap Segment.text ++ call.text).length
    (1 + Text.newlines (before.flatMap Segment.text ++ call.text))
  have scanned : Segment.scan name.toList source = .error fault := by
    rw [stands.scan, failed]
    rfl
  obtain ⟨expansion, expanded, kept, reports⟩ := usable.expandSource_of_fault scanned
  exact ⟨expansion, fault, expanded, kept, Invocation.find_eq_error_iff.2 scanned, inside,
    reports⟩

/-- A site without a broken site behind it has its own expansion woven into that of its
source. -/
theorem expandSource_of_not_reachesBroken (usable : settings.Usable name)
    {source behind : List Char} {before : List Segment} {call : Site}
    (stands : call.StandsIn name.toList source before behind)
    (unbroken : ¬ Segment.ReachesBroken name.toList (some call.bracket.closing) behind)
    {part : SourceExpansion} (alone : settings.expandSource call.text = .ok part) :
    ∃ expansion entries,
      settings.expandSource source = .ok expansion ∧ ¬ expansion.Kept source ∧
      Invocation.find name.toList source = .ok (entries.map (·.1)) ∧
      (∀ entry ∈ entries, settings.expandSource (entry.1.original source) = .ok entry.2) ∧
      (⟨(before.flatMap Segment.text).length,
        1 + Text.newlines (before.flatMap Segment.text), call⟩, part) ∈ entries ∧
      expansion.WovenFrom source 0 entries := by
  obtain ⟨later, scanned⟩ : ∃ later,
      Segment.scan name.toList source = .ok (before ++ .site call :: later) := by
    rw [stands.scan]
    cases scannedBehind : Segment.scanFrom name.toList
      (before.flatMap Segment.text ++ call.text).length
      (1 + Text.newlines (before.flatMap Segment.text ++ call.text))
      (some call.bracket.closing) behind with
    | error fault =>
        exact absurd (Segment.scanFrom_eq_error_iff.1 ⟨fault, scannedBehind⟩) unbroken
    | ok later => exact ⟨later, rfl⟩
  obtain ⟨expansion, entries, expanded, places, parts, woven⟩ := usable.exists_wovenFrom scanned
  have place := Invocation.mem_ofSegments_append 0 1 before call later
  rw [Nat.zero_add, ← places] at place
  obtain ⟨⟨invocation, own⟩, member, same⟩ := List.mem_map.1 place
  obtain rfl := same
  have expandedOwn := parts _ member
  rw [stands.source_eq, ← List.append_assoc, Invocation.original_append, alone] at expandedOwn
  obtain rfl := Except.ok.inj expandedOwn
  have notKept : ¬ expansion.Kept source := by
    intro kept
    exact kept.not_counts (usable.counts_of_scan scanned expanded)
  exact ⟨expansion, entries, expanded, notKept,
    Invocation.find_eq_ok_iff.2 ⟨_, scanned, places.symm⟩, parts, member, woven⟩

/-- A site whose arguments expand is replaced by its expansion, as are the sites around it, unless
a broken site stands behind it.  In that case the source is kept as it stands, no site is counted,
and the only report, which quotes nothing, is about the fault of the broken site. -/
theorem expandSource_replaces_unless_broken (usable : settings.Usable name)
    {source behind : List Char} {before : List Segment} {call : Site}
    (stands : call.StandsIn name.toList source before behind) {inside : SourceExpansion}
    (expandedInside : settings.expandSource call.arguments = .ok inside) {text : String}
    (expands : (CaptureList.expandText inside.text settings.target settings).outcome = .ok text) :
    ∃ expansion, settings.expandSource source = .ok expansion ∧
      (expansion.Kept source ↔
        Segment.ReachesBroken name.toList (some call.bracket.closing) behind) ∧
      (expansion.Kept source → ∃ fault,
        Invocation.find name.toList source = .error fault ∧
        (before.flatMap Segment.text ++ call.text).length ≤ fault.offset ∧
        expansion.reports =
          [⟨1 + Text.newlines (source.take fault.offset), fault.message, []⟩]) ∧
      (¬ expansion.Kept source → ∃ entries part,
        part.text = text.toList ∧
        (⟨(before.flatMap Segment.text).length,
          1 + Text.newlines (before.flatMap Segment.text), call⟩, part) ∈ entries ∧
        Invocation.find name.toList source = .ok (entries.map (·.1)) ∧
        (∀ entry ∈ entries, settings.expandSource (entry.1.original source) = .ok entry.2) ∧
        expansion.WovenFrom source 0 entries) := by
  by_cases reaches : Segment.ReachesBroken name.toList (some call.bracket.closing) behind
  · obtain ⟨expansion, fault, expanded, kept, failed, later, reports⟩ :=
      usable.expandSource_of_reachesBroken stands reaches
    refine ⟨expansion, expanded, iff_of_true kept reaches, ?_, ?_⟩
    · intro _
      exact ⟨fault, failed, later, reports⟩
    · intro notKept
      exact absurd kept notKept
  · obtain ⟨part, alone, replaced⟩ :=
      usable.expandSource_site stands.closedBefore expandedInside expands
    obtain ⟨expansion, entries, expanded, notKept, found, parts, member, woven⟩ :=
      usable.expandSource_of_not_reachesBroken stands reaches alone
    refine ⟨expansion, expanded, iff_of_false notKept reaches, ?_, ?_⟩
    · intro kept
      exact absurd kept notKept
    · intro _
      exact ⟨entries, part, replaced, member, found, parts, woven⟩

/-- A site that expands on its own is left as it stands before a site that is never closed. -/
theorem expandSource_replaces_unless_broken_unclosed :
    (CaptureList.expandText "move x in x".toList ({} : Settings).target {}).outcome =
      .ok "\x7b let x = x; x \x7d" ∧
    ∃ expansion,
      ({} : Settings).expandSource "capture!(move x in x) capture!(".toList = .ok expansion ∧
      expansion.Kept "capture!(move x in x) capture!(".toList := by
  have stands : Site.StandsIn "capture".toList "capture!(move x in x) capture!(".toList []
      " capture!(".toList ⟨"capture!".toList, .round, "move x in x".toList⟩ := by
    refine ⟨by decide, trivial, ?_, ?_, ?_⟩ <;> with_unfolding_all rfl
  have reaches : Segment.ReachesBroken "capture".toList (some ')') " capture!(".toList := by
    refine ⟨[.code ' '], "capture!(".toList, by decide, ⟨⟨?_, ?_⟩, trivial⟩, ?_,
      .round, [], .unclosed, ?_, ?_⟩ <;> with_unfolding_all rfl
  have inside : ({} : Settings).expandSource "move x in x".toList =
      .ok ⟨"move x in x".toList, 0, 0, [], [.sitesExpanded 0 0 "capture"]⟩ := by
    with_unfolding_all rfl
  have expands : (CaptureList.expandText "move x in x".toList ({} : Settings).target {}).outcome =
      .ok "\x7b let x = x; x \x7d" := by
    with_unfolding_all rfl
  obtain ⟨expansion, expanded, kept, -⟩ :=
    expandSource_replaces_unless_broken Settings.usable_default stands inside expands
  exact ⟨expands, expansion, expanded, kept.2 reaches⟩

end Settings.Usable

end ClosureCapture
