import ClosureCapture.Proofs.Result.Chaining
import ClosureCapture.Proofs.Site.Nesting
import ClosureCapture.Source

/-!
# The outcome of a source text, segment by segment

The expansion of a text that can be cut is the expansion of its first segment followed by that
of the other segments, each starting on its own line.  Where target and layout are known nothing
but the text can be at fault, so that every text has an outcome.
-/

namespace ClosureCapture

/-- Settings whose target and layout are known. -/
structure Settings.Renderable (settings : Settings) : Prop where
  target : (Target.ofValue? settings.target).isSome = true
  layout : (Block.Layout.ofValue? settings.renderMode).isSome = true

/-- Settings whose macro name is a name and whose target and layout are known. -/
structure Settings.Usable (settings : Settings) (name : String) : Prop where
  macroName : settings.macroName.text? = some name
  isName : Text.isName name = true
  target : (Target.ofValue? settings.target).isSome = true
  layout : (Block.Layout.ofValue? settings.renderMode).isSome = true

theorem Settings.Usable.renderable {settings : Settings} {name : String}
    (usable : settings.Usable name) : settings.Renderable :=
  ⟨usable.target, usable.layout⟩

namespace SourceExpansion

/-- The outcome of one segment on the given line. -/
def ofSegment (settings : Settings) (name : List Char) (line : Nat) :
    Segment → Except ExpansionError SourceExpansion
  | .site call => do
      let inside ← ofText settings name (line + Text.newlines call.head) call.arguments
      site settings line call inside
  | other => .ok (verbatim other.text)

/-- The outcome of segments one after another, the first of which is on the given line. -/
def ofSegments (settings : Settings) (name : List Char) (line : Nat) :
    List Segment → Except ExpansionError SourceExpansion
  | [] => .ok (verbatim [])
  | segment :: others => do
      let first ← ofSegment settings name line segment
      let later ← ofSegments settings name (line + Text.newlines segment.text) others
      return first.append later

theorem ofSegments_cons_eq_ok_iff {settings : Settings} {name : List Char} {line : Nat}
    {segment : Segment} {others : List Segment} {expansion : SourceExpansion} :
    ofSegments settings name line (segment :: others) = .ok expansion ↔
      ∃ first later, ofSegment settings name line segment = .ok first ∧
        ofSegments settings name (line + Text.newlines segment.text) others = .ok later ∧
        first.append later = expansion := by
  constructor
  · intro expanded
    obtain ⟨first, expandedFirst, rest⟩ := bind_eq_ok_iff.1 expanded
    obtain ⟨later, expandedLater, joined⟩ := bind_eq_ok_iff.1 rest
    exact ⟨first, later, expandedFirst, expandedLater, Except.ok.inj joined⟩
  · rintro ⟨first, later, expandedFirst, expandedLater, rfl⟩
    rw [ofSegments, expandedFirst, expandedLater]
    rfl

theorem ofText_of_fault {settings : Settings} {name source : List Char} {fault : SiteFault}
    (failed : Segment.scan name source = .error fault) (line : Nat) :
    ofText settings name line source = .ok (uncut line fault source) := by
  rw [ofText.eq_def]
  split
  · next other found =>
      obtain rfl : fault = other := by simpa [failed] using found
      rfl
  · next segments found => simp [failed] at found

theorem mapM_numbered_eq_ofSegments (settings : Settings) (name : List Char) (line : Nat)
    (segments : List Segment) :
    (do
      let parts ← (Segment.numbered line segments).mapM fun entry =>
        ofSegment settings name entry.1 entry.2
      return concat parts) = ofSegments settings name line segments := by
  induction segments generalizing line with
  | nil => rfl
  | cons segment others ih =>
      rw [Segment.numbered, ofSegments, List.mapM_cons, ← ih]
      cases ofSegment settings name line segment with
      | error fault => rfl
      | ok first =>
          cases (Segment.numbered (line + Text.newlines segment.text) others).mapM
            fun entry => ofSegment settings name entry.1 entry.2 <;> rfl

theorem ofText_of_scan {settings : Settings} {name source : List Char} {segments : List Segment}
    (scanned : Segment.scan name source = .ok segments) (line : Nat) :
    ofText settings name line source = ofSegments settings name line segments := by
  rw [ofText.eq_def]
  split
  · next fault found => simp [scanned] at found
  · next others found =>
      obtain rfl : segments = others := by simpa [scanned] using found
      rw [← mapM_numbered_eq_ofSegments]
      congr 1
      rw [List.mapM_subtype (g := fun entry => ofSegment settings name entry.1 entry.2),
        List.unattach_attach]
      rintro ⟨place, segment⟩ member
      cases segment <;> rfl

/-! ### Settings that can be rendered -/

theorem render_diagnostic? {settings : Settings} {target : Value}
    (known : (Target.ofValue? target).isSome = true)
    (layout : (Block.Layout.ofValue? settings.renderMode).isSome = true) (scope : Scope)
    {error : ExpansionError} (failed : scope.render target settings = .error error) :
    ∃ diagnostic, error.diagnostic? = some diagnostic := by
  obtain ⟨language, named⟩ := Option.isSome_iff_exists.1 known
  obtain ⟨layout, laidOut⟩ := Option.isSome_iff_exists.1 layout
  cases language with
  | rust => simp [Scope.render, named, laidOut] at failed
  | python =>
      simp only [Scope.render, named] at failed
      split at failed
      · simp at failed
      · obtain rfl := Except.error.inj failed
        exact ⟨_, rfl⟩

/-- For a known target and a known layout nothing but the text is at fault. -/
theorem expandText_diagnostic? {settings : Settings} {target : Value}
    (known : (Target.ofValue? target).isSome = true)
    (layout : (Block.Layout.ofValue? settings.renderMode).isSome = true) (text : List Char)
    {error : ExpansionError}
    (failed : (CaptureList.expandText text target settings).outcome = .error error) :
    ∃ diagnostic, error.diagnostic? = some diagnostic := by
  simp only [CaptureList.expandText] at failed
  split at failed
  · obtain rfl := Except.error.inj failed
    exact ⟨_, rfl⟩
  · simp only [CaptureList.expand] at failed
    split at failed
    · obtain rfl := Except.error.inj failed
      exact ⟨_, rfl⟩
    · exact render_diagnostic? known layout _ failed

section Renderable

variable {settings : Settings} (renderable : settings.Renderable)

include renderable

/-- The outcome of a site whose arguments have been expanded: its expansion, or the site as it
stands with one report more. -/
theorem site_cases (line : Nat) (call : Site) (inside : SourceExpansion) :
    ∃ expansion, site settings line call inside = .ok expansion ∧
      expansion.sites = inside.sites + 1 ∧
      ((∃ text, (CaptureList.expandText inside.text settings.target settings).outcome = .ok text ∧
          expansion.text = text.toList ∧ expansion.expanded = inside.expanded + 1 ∧
          expansion.reports = inside.reports) ∨
        ∃ error diagnostic,
          (CaptureList.expandText inside.text settings.target settings).outcome = .error error ∧
          error.diagnostic? = some diagnostic ∧ expansion.text = call.text ∧
          expansion.expanded = inside.expanded ∧
          expansion.reports = inside.reports ++ [⟨line, diagnostic.text, call.text⟩]) := by
  cases outcome : (CaptureList.expandText inside.text settings.target settings).outcome with
  | ok text =>
      simp only [site, outcome]
      exact ⟨_, rfl, rfl, .inl ⟨text, rfl, rfl, rfl, rfl⟩⟩
  | error error =>
      obtain ⟨diagnostic, reported⟩ :=
        expandText_diagnostic? renderable.target renderable.layout inside.text outcome
      simp only [site, outcome, reported]
      exact ⟨_, rfl, rfl, .inr ⟨error, diagnostic, rfl, reported, rfl, rfl, rfl⟩⟩

theorem exists_ofSegments {name : List Char} {segments : List Segment}
    (inner : ∀ call, .site call ∈ segments → ∀ line,
      ∃ inside, ofText settings name line call.arguments = .ok inside) (line : Nat) :
    ∃ expansion, ofSegments settings name line segments = .ok expansion := by
  induction segments generalizing line with
  | nil => exact ⟨_, rfl⟩
  | cons segment others ih =>
      obtain ⟨later, expandedLater⟩ := ih
        (fun call member => inner call (List.mem_cons_of_mem _ member))
        (line + Text.newlines segment.text)
      have first : ∃ first, ofSegment settings name line segment = .ok first := by
        cases segment with
        | code character => exact ⟨_, rfl⟩
        | literal passed => exact ⟨_, rfl⟩
        | site call =>
            obtain ⟨inside, expandedInside⟩ :=
              inner call (by simp) (line + Text.newlines call.head)
            obtain ⟨expansion, expanded, -⟩ := site_cases renderable line call inside
            exact ⟨expansion, bind_eq_ok_iff.2 ⟨inside, expandedInside, expanded⟩⟩
      obtain ⟨first, expandedFirst⟩ := first
      exact ⟨first.append later,
        ofSegments_cons_eq_ok_iff.2 ⟨first, later, expandedFirst, expandedLater, rfl⟩⟩

/-- Every text has an outcome, whatever the macro name. -/
theorem exists_outcome (name : List Char) (line : Nat) (source : List Char) :
    ∃ expansion, ofText settings name line source = .ok expansion := by
  induction size : source.length using Nat.strongRecOn generalizing line source with
  | ind length ih =>
  cases scanned : Segment.scan name source with
  | error fault => exact ⟨_, ofText_of_fault scanned line⟩
  | ok segments =>
      rw [ofText_of_scan scanned]
      apply exists_ofSegments renderable
      intro call member innerLine
      have shorter := Segment.arguments_length_lt_of_mem_scanFrom scanned member
      exact ih call.arguments.length (size ▸ shorter) innerLine call.arguments rfl

end Renderable

theorem exists_ofText {settings : Settings} {name : String} (usable : settings.Usable name)
    (line : Nat) (source : List Char) :
    ∃ expansion, ofText settings name.toList line source = .ok expansion :=
  exists_outcome usable.renderable name.toList line source

end SourceExpansion

theorem Settings.expandSource_of_ofText {settings : Settings} {name : String}
    (named : settings.macroName.text? = some name) {source : List Char}
    {expansion : SourceExpansion}
    (expanded : SourceExpansion.ofText settings name.toList 1 source = .ok expansion) :
    settings.expandSource source = .ok { expansion with
      events := expansion.events ++
        [.sitesExpanded expansion.expanded expansion.sites name] } := by
  simp only [Settings.expandSource, named, expanded]

theorem Settings.Usable.expandSource {settings : Settings} {name : String}
    (usable : settings.Usable name) {source : List Char} {expansion : SourceExpansion}
    (expanded : SourceExpansion.ofText settings name.toList 1 source = .ok expansion) :
    settings.expandSource source = .ok { expansion with
      events := expansion.events ++
        [.sitesExpanded expansion.expanded expansion.sites name] } :=
  Settings.expandSource_of_ofText usable.macroName expanded

theorem Settings.usable_default : ({} : Settings).Usable "capture" :=
  ⟨rfl, by decide, by decide, by decide⟩

/-! ### The sites of a text that can be cut -/

theorem Invocation.find_eq_ok_iff {name source : List Char} {invocations : List Invocation} :
    Invocation.find name source = .ok invocations ↔
      ∃ segments, Segment.scan name source = .ok segments ∧
        Invocation.ofSegments 0 1 segments = invocations := by
  rw [Invocation.find]
  cases Segment.scan name source <;> simp [Except.map]

theorem Invocation.find_eq_error_iff {name source : List Char} {fault : SiteFault} :
    Invocation.find name source = .error fault ↔ Segment.scan name source = .error fault := by
  rw [Invocation.find]
  cases Segment.scan name source <;> simp [Except.map]

theorem Segment.exists_closedBefore_of_mem {name rest : List Char} {previous : Option Char}
    {segments : List Segment} (cuts : CutTo name rest previous segments) {call : Site}
    (member : .site call ∈ segments) :
    ∃ character remaining, call.ClosedBefore name character remaining := by
  induction segments generalizing previous with
  | nil => simp at member
  | cons segment others ih =>
      rcases List.mem_cons.1 member with rfl | later
      · exact ⟨_, _, cuts.1⟩
      · exact ih cuts.2 later

theorem Segment.exists_scan_arguments {name : String} (isName : Text.isName name = true)
    {source : List Char} {segments : List Segment}
    (scanned : Segment.scan name.toList source = .ok segments) {call : Site}
    (member : .site call ∈ segments) :
    ∃ inner, Segment.scan name.toList call.arguments = .ok inner := by
  obtain ⟨-, cuts⟩ := Segment.scanFrom_eq_ok_iff.1 scanned
  obtain ⟨character, remaining, closedBefore⟩ := Segment.exists_closedBefore_of_mem cuts member
  exact closedBefore.exists_scan_arguments isName

end ClosureCapture
