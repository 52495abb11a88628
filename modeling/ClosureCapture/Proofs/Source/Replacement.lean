import ClosureCapture.Proofs.Site.Slices
import ClosureCapture.Proofs.Source.Totality

/-!
# Which sites are replaced

The sites inside a site are expanded before it, and those that succeed are counted then.  Where the
outer site fails it is kept as it stands, with everything in it, but the count is not taken back.
This file proves how far the count of expanded sites is from the number of sites that are replaced
in the result: it is too large by the sites that expand inside a site that is kept.
-/

namespace ClosureCapture

/-- Whether the arguments of a site expand once the sites inside them have been rewritten. -/
def Site.expands (settings : Settings) (call : Site) : Bool :=
  match settings.expandSource call.arguments with
  | .error _ => false
  | .ok inside => (CaptureList.expandText inside.text settings.target settings).outcome.isOk

namespace Invocation

/-- The sites inside a site, at all depths, with their places in the source of the site. -/
def inside (name : List Char) (outer : Invocation) : List Invocation :=
  deep name (outer.start + (outer.site.head.length + 1))
    (outer.line + Text.newlines outer.site.head) outer.site.arguments

theorem mem_deep_of_mem_inside {name : List Char} {offset line : Nat} {source : List Char}
    {outer inner : Invocation} (outerMember : outer ∈ deep name offset line source)
    (innerMember : inner ∈ outer.inside name) : inner ∈ deep name offset line source := by
  induction size : source.length using Nat.strongRecOn generalizing offset line source with
  | ind length ih =>
  cases scanned : Segment.scan name source with
  | error fault => simp [deep_of_fault scanned] at outerMember
  | ok segments =>
      rw [deep_of_scan scanned, List.mem_flatMap] at outerMember ⊢
      obtain ⟨top, topMember, within⟩ := outerMember
      refine ⟨top, topMember, List.mem_append_left _ ?_⟩
      rcases List.mem_append.1 within with deeper | itself
      · have shorter := Segment.arguments_length_lt_of_mem_scanFrom scanned
          (site_mem_of_mem_ofSegments topMember)
        exact ih _ (size ▸ shorter) deeper rfl
      · obtain rfl := List.mem_singleton.1 itself
        exact innerMember

/-- Whether a site lies inside one of the given sites that is kept as it stands. -/
def liesInKept (settings : Settings) (name : List Char) (sites : List Invocation)
    (invocation : Invocation) : Bool :=
  sites.any fun outer => !outer.site.expands settings && decide (invocation ∈ outer.inside name)

/-- Whether a site is replaced in the result: it expands, and so does every site around it. -/
def isReplaced (settings : Settings) (name : List Char) (sites : List Invocation)
    (invocation : Invocation) : Bool :=
  invocation.site.expands settings && !invocation.liesInKept settings name sites

theorem original_of_mem_ofSegments {line : Nat} {segments : List Segment} {invocation : Invocation}
    (member : invocation ∈ ofSegments 0 line segments) :
    invocation.original (segments.flatMap Segment.text) = invocation.site.text :=
  (standsAt_of_mem_ofSegments member).original_eq

end Invocation

namespace SourceExpansion

variable {settings : Settings} {name : String} (usable : settings.Usable name)

include usable

/-- Whether a site expands is seen from what its arguments have become. -/
theorem expands_eq {line : Nat} {call : Site} {inside : SourceExpansion}
    (expandedInside : ofText settings name.toList line call.arguments = .ok inside) :
    call.expands settings =
      (CaptureList.expandText inside.text settings.target settings).outcome.isOk := by
  obtain ⟨alone, expandedAlone, sameText⟩ :=
    exists_expandSource_text usable.renderable usable.macroName expandedInside
  rw [Site.expands, expandedAlone, ← sameText]

/-- A site that expands counts once more, and a site that does not is kept. -/
theorem site_expands {line : Nat} {call : Site} {inside part : SourceExpansion}
    (expandedInside : ofText settings name.toList (line + Text.newlines call.head) call.arguments =
      .ok inside)
    (finished : site settings line call inside = .ok part) :
    part.expanded = inside.expanded + (if call.expands settings then 1 else 0) ∧
      (call.expands settings = false → part.text = call.text) := by
  have expands := expands_eq usable expandedInside
  obtain ⟨found, succeeded, -, outcome⟩ := site_cases usable.renderable line call inside
  obtain rfl := Except.ok.inj (succeeded.symm.trans finished)
  rcases outcome with ⟨text, succeeds, -, counted, -⟩ | ⟨error, -, fails, -, kept, counted, -⟩
  · rw [succeeds] at expands
    rw [expands, counted]
    exact ⟨rfl, fun absent => nomatch absent⟩
  · rw [fails] at expands
    rw [expands, counted]
    exact ⟨rfl, fun _ => kept⟩

/-- Every site that expands is counted, at whatever depth. -/
theorem expanded_of_ofText {source : List Char} {segments : List Segment}
    (scanned : Segment.scan name.toList source = .ok segments) {line : Nat}
    {expansion : SourceExpansion}
    (expanded : ofText settings name.toList line source = .ok expansion) (offset : Nat) :
    expansion.expanded =
      (Invocation.deep name.toList offset line source).countP (·.site.expands settings) := by
  refine ofText_deep_induction (motive := fun sites _ part =>
    part.expanded = sites.countP (·.site.expands settings)) ?_ ?_ ?_ usable.isName scanned expanded
    offset
  · intro text
    rfl
  · intro firstSites secondSites firstText secondText first second countFirst countSecond
    rw [List.countP_append, ← countFirst, ← countSecond]
    rfl
  · intro invocation inner inside part countInside expandedInside finished
    rw [List.countP_append, List.countP_singleton, ← countInside]
    exact (site_expands usable expandedInside finished).1

/-- A site that does not expand is its own result. -/
theorem text_of_kept {call : Site} {previous : Option Char} {behind : List Char}
    (closedBefore : call.ClosedBefore name.toList previous behind)
    (fails : call.expands settings = false) {part : SourceExpansion}
    (alone : settings.expandSource call.text = .ok part) : part.text = call.text := by
  obtain ⟨whole, expandedWhole⟩ := exists_ofText usable 1 call.text
  obtain rfl := Except.ok.inj ((usable.expandSource expandedWhole).symm.trans alone)
  rw [ofText_site closedBefore] at expandedWhole
  obtain ⟨inside, expandedInside, finished⟩ := bind_eq_ok_iff.1 expandedWhole
  exact (site_expands usable expandedInside finished).2 fails

end SourceExpansion

namespace Settings.Usable

theorem expanded_eq_countP {settings : Settings} {name : String} (usable : settings.Usable name)
    {source : List Char} {segments : List Segment}
    (scanned : Segment.scan name.toList source = .ok segments) {expansion : SourceExpansion}
    (expanded : settings.expandSource source = .ok expansion) :
    expansion.expanded =
      (Invocation.deep name.toList 0 1 source).countP (·.site.expands settings) := by
  obtain ⟨inner, expandedInner⟩ := SourceExpansion.exists_ofText usable 1 source
  obtain rfl := Except.ok.inj ((usable.expandSource expandedInner).symm.trans expanded)
  exact SourceExpansion.expanded_of_ofText usable scanned expandedInner 0

/-- The number of expanded sites is that of the sites that are replaced and of those that expand
inside a site that is kept.  So it is the number of replaced sites exactly when no site that is
kept holds a site that expands.  A kept site has its own text in the result. -/
theorem expandSource_expanded_eq_iff {settings : Settings} {name : String}
    (usable : settings.Usable name) {source : List Char} {invocations : List Invocation}
    (found : Invocation.find name.toList source = .ok invocations) :
    let sites := Invocation.deep name.toList 0 1 source
    let replaced := sites.countP (·.isReplaced settings name.toList sites)
    let hidden := sites.countP fun invocation =>
      invocation.site.expands settings && invocation.liesInKept settings name.toList sites
    ∃ expansion entries, settings.expandSource source = .ok expansion ∧
      expansion.expanded = replaced + hidden ∧
      (expansion.expanded = replaced ↔
        ∀ outer ∈ sites, outer.site.expands settings = false →
          ∀ inner ∈ outer.inside name.toList, inner.site.expands settings = false) ∧
      entries.map (·.1) = invocations ∧ expansion.WovenFrom source 0 entries ∧
      ∀ entry ∈ entries, entry.1.site.expands settings = false →
        entry.2.text = entry.1.site.text := by
  intro sites replaced hidden
  obtain ⟨segments, scanned, rfl⟩ := Invocation.find_eq_ok_iff.1 found
  obtain ⟨expansion, entries, expanded, places, parts, woven⟩ := usable.exists_wovenFrom scanned
  have split : expansion.expanded = replaced + hidden := by
    rw [usable.expanded_eq_countP scanned expanded, List.countP_eq_countP_filter_add sites _
      (·.liesInKept settings name.toList sites), Nat.add_comm, List.countP_filter,
      List.countP_filter]
    rfl
  refine ⟨expansion, entries, expanded, split, ?_, places, woven, ?_⟩
  · have noneHidden : hidden = 0 ↔ ∀ outer ∈ sites, outer.site.expands settings = false →
        ∀ inner ∈ outer.inside name.toList, inner.site.expands settings = false := by
      rw [List.countP_eq_zero]
      constructor
      · intro absent outer outerMember fails inner innerMember
        have lies : inner.liesInKept settings name.toList sites = true :=
          List.any_eq_true.2 ⟨outer, outerMember, by simp [fails, innerMember]⟩
        have missing := absent inner (Invocation.mem_deep_of_mem_inside outerMember innerMember)
        simpa [lies] using missing
      · intro truthful inner _ counts
        obtain ⟨expands, lies⟩ := Bool.and_eq_true_iff.1 counts
        obtain ⟨outer, outerMember, kept⟩ := List.any_eq_true.1 lies
        simp only [Bool.and_eq_true, Bool.not_eq_true', decide_eq_true_eq] at kept
        rw [truthful outer outerMember kept.1 inner kept.2] at expands
        simp at expands
    rw [← noneHidden]
    omega
  · intro entry member fails
    have place : entry.1 ∈ Invocation.ofSegments 0 1 segments :=
      places ▸ List.mem_map_of_mem member
    have whole := parts entry member
    rw [(Segment.scanFrom_eq_ok_iff.1 scanned).1,
      Invocation.original_of_mem_ofSegments place] at whole
    obtain ⟨character, behind, closedBefore⟩ := Segment.exists_closedBefore_of_mem
      (Segment.scanFrom_eq_ok_iff.1 scanned).2 (Invocation.site_mem_of_mem_ofSegments place)
    exact SourceExpansion.text_of_kept usable closedBefore fails whole

/-- A site that is kept holds one that expands: it is counted, and nothing is replaced. -/
theorem expandSource_expanded_eq_iff_inner :
    ∃ expansion, ({} : Settings).expandSource
        "capture!(move in capture!(move x in x))".toList = .ok expansion ∧
      expansion.expanded = 1 ∧
      (Invocation.deep "capture".toList 0 1
        "capture!(move in capture!(move x in x))".toList).countP
          (·.isReplaced {} "capture".toList (Invocation.deep "capture".toList 0 1
            "capture!(move in capture!(move x in x))".toList)) = 0 := by
  have found : Invocation.find "capture".toList "capture!(move in capture!(move x in x))".toList =
      .ok [⟨0, 1, "capture!".toList, .round, "move in capture!(move x in x)".toList⟩] := by
    with_unfolding_all rfl
  obtain ⟨expansion, -, expanded, counted, -⟩ :=
    expandSource_expanded_eq_iff Settings.usable_default found
  have replaced : (Invocation.deep "capture".toList 0 1
      "capture!(move in capture!(move x in x))".toList).countP
        (·.isReplaced {} "capture".toList (Invocation.deep "capture".toList 0 1
          "capture!(move in capture!(move x in x))".toList)) = 0 := by
    decide +kernel
  have hidden : (Invocation.deep "capture".toList 0 1
      "capture!(move in capture!(move x in x))".toList).countP (fun invocation =>
        invocation.site.expands {} && invocation.liesInKept {} "capture".toList
          (Invocation.deep "capture".toList 0 1
            "capture!(move in capture!(move x in x))".toList)) = 1 := by
    decide +kernel
  rw [replaced, hidden] at counted
  exact ⟨expansion, expanded, counted, replaced⟩

end Settings.Usable

end ClosureCapture
