import ClosureCapture.Expansion
import ClosureCapture.Site

/-!
# Expansion of a source text

Every site of a source text is replaced by its expansion, on its own: a site that cannot be
expanded is reported and kept as written. The sites inside the arguments of a site are expanded
before the site itself. The outcome of a text is the outcomes of its segments one after another.
A text that cannot be cut into segments is kept whole and reported once.
-/

namespace ClosureCapture

/-- A report about a site: its line, what is wrong, and its text. -/
structure SiteReport where
  line : Nat
  message : String
  text : List Char
  deriving DecidableEq, Repr

/-- The expansion of a source text: the new text, the numbers of sites met and expanded, the
reports and the events. -/
structure SourceExpansion where
  text : List Char
  sites : Nat
  expanded : Nat
  reports : List SiteReport
  events : List Event
  deriving DecidableEq, Repr

namespace SourceExpansion

/-- A text in which nothing was met. -/
def verbatim (text : List Char) : SourceExpansion :=
  ⟨text, 0, 0, [], []⟩

/-- The expansion of one text after another. -/
def append (first second : SourceExpansion) : SourceExpansion :=
  ⟨first.text ++ second.text, first.sites + second.sites, first.expanded + second.expanded,
    first.reports ++ second.reports, first.events ++ second.events⟩

/-- The expansion of texts one after another. -/
def concat (parts : List SourceExpansion) : SourceExpansion :=
  parts.foldr append (verbatim [])

/-- Whether nothing was reported. -/
def ok (expansion : SourceExpansion) : Bool :=
  expansion.reports.isEmpty

end SourceExpansion

/-- Why settings cannot be used on a source text. -/
inductive SettingsFault where
  | expansion (error : ExpansionError)
  | macroNameNotText (name : Value)

namespace Segment

/-- The segments with their lines, the first of which is given. -/
def numbered (line : Nat) : List Segment → List (Nat × Segment)
  | [] => []
  | segment :: rest => (line, segment) :: numbered (line + Text.newlines segment.text) rest

theorem mem_of_mem_numbered {line : Nat} {segments : List Segment} {entry : Nat × Segment}
    (member : entry ∈ numbered line segments) : entry.2 ∈ segments := by
  induction segments generalizing line with
  | nil => simp [numbered] at member
  | cons segment rest ih =>
      simp only [numbered, List.mem_cons] at member
      rcases member with rfl | later
      · simp
      · exact List.mem_cons_of_mem _ (ih later)

private theorem exists_of_map_eq_ok {Fault Before After : Type} {change : Before → After}
    {result : Except Fault Before} {after : After} (mapped : result.map change = .ok after) :
    ∃ before, result = .ok before ∧ change before = after := by
  cases result with
  | error fault => simp [Except.map] at mapped
  | ok before => exact ⟨before, rfl, Except.ok.inj mapped⟩

theorem arguments_length_lt_of_mem_scanFrom {name text : List Char} {offset line : Nat}
    {previous : Option Char} {segments : List Segment} {call : Site}
    (cut : scanFrom name offset line previous text = .ok segments)
    (member : .site call ∈ segments) : call.arguments.length < text.length := by
  fun_induction scanFrom name offset line previous text generalizing segments with
  | case1 =>
      obtain rfl := Except.ok.inj cut
      simp at member
  | case2 offset line previous first rest after skipped =>
      rename_i ih
      obtain ⟨others, later, rfl⟩ := exists_of_map_eq_ok cut
      simp only [List.mem_cons, reduceCtorEq, false_or] at member
      exact Nat.lt_trans (ih later member) (Literal.after?_length_lt skipped)
  | case3 offset line previous first rest skipped opened ih =>
      obtain ⟨others, later, rfl⟩ := exists_of_map_eq_ok cut
      simp only [List.mem_cons, reduceCtorEq, false_or] at member
      exact Nat.lt_succ_of_lt (ih later member)
  | case4 => simp at cut
  | case5 offset line previous first rest skipped bracket inside opened head opening stop closed
      call =>
      rename_i ih
      have inner := Site.open?_length_lt opened
      obtain ⟨others, later, rfl⟩ := exists_of_map_eq_ok cut
      simp only [List.mem_cons, Segment.site.injEq] at member
      rcases member with rfl | member
      · simp only [call, List.length_take] at inner ⊢
        omega
      · have := ih later member
        simp only [List.length_drop] at this inner
        omega

end Segment

namespace SourceExpansion

/-- A text that cannot be cut into segments, the first line of which is given. -/
def uncut (line : Nat) (fault : SiteFault) (source : List Char) : SourceExpansion :=
  let report : SiteReport :=
    ⟨line + Text.newlines (source.take fault.offset), fault.message, []⟩
  ⟨source, 0, 0, [report], []⟩

/-- A site on the given line, when its arguments have been expanded. -/
def site (settings : Settings) (line : Nat) (call : Site) (inside : SourceExpansion) :
    Except ExpansionError SourceExpansion :=
  let expansion := CaptureList.expandText inside.text settings.target settings
  let events := inside.events ++ expansion.events
  match expansion.outcome with
  | .ok text =>
      .ok ⟨text.toList, inside.sites + 1, inside.expanded + 1, inside.reports, events⟩
  | .error error =>
      match error.diagnostic? with
      | none => .error error
      | some diagnostic =>
          .ok ⟨call.text, inside.sites + 1, inside.expanded,
            inside.reports ++ [⟨line, diagnostic.text, call.text⟩],
            events ++ [.siteFailed line diagnostic.text]⟩

/-- Expand the sites of a text whose first line is given. -/
def ofText (settings : Settings) (name : List Char) (line : Nat) (source : List Char) :
    Except ExpansionError SourceExpansion :=
  match _cut : Segment.scan name source with
  | .error fault => .ok (uncut line fault source)
  | .ok segments => do
      let parts ← (Segment.numbered line segments).attach.mapM fun ⟨entry, _member⟩ =>
        match _segment : entry.2 with
        | .site call => do
            let inside ←
              ofText settings name (entry.1 + Text.newlines call.head) call.arguments
            site settings entry.1 call inside
        | other => .ok (verbatim other.text)
      return concat parts
termination_by source.length
decreasing_by
  refine Segment.arguments_length_lt_of_mem_scanFrom _cut ?_
  exact _segment ▸ Segment.mem_of_mem_numbered _member

end SourceExpansion

/-- Expand every site of a source text. -/
def Settings.expandSource (settings : Settings) (source : List Char) :
    Except SettingsFault SourceExpansion :=
  match settings.macroName.text? with
  | none => .error (.macroNameNotText settings.macroName)
  | some name =>
      match SourceExpansion.ofText settings name.toList 1 source with
      | .error error => .error (.expansion error)
      | .ok expansion =>
          .ok { expansion with
            events := expansion.events ++
              [.sitesExpanded expansion.expanded expansion.sites name] }

end ClosureCapture
