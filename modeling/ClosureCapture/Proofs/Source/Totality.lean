import ClosureCapture.Proofs.Settings.Outcome
import ClosureCapture.Proofs.Source.Independence

/-!
# Every failure is reported

A source text can fail in two ways, at any depth: a text cannot be cut into segments, or the
arguments of a site are no capture list that can be rendered.  Where the macro name is a text and
target and layout are known, no failure stops the expansion of a source.  Each of them has a
report, and the reports of the source are those of its failures.
-/

namespace ClosureCapture

/-- What goes wrong in a source text, with the line where it does. -/
inductive SourceFailure where
  | cut (line : Nat) (fault : SiteFault)
  | expansion (line : Nat) (call : Site) (error : ExpansionError)

namespace SourceFailure

/-- The report of a failure, if the text is to blame for it. -/
def report? : SourceFailure → Option SiteReport
  | .cut line fault => some ⟨line, fault.message, []⟩
  | .expansion line call error =>
      error.diagnostic?.map fun diagnostic => ⟨line, diagnostic.text, call.text⟩

/-- A failure occurs in a source text, whose first line is given, when it stops the cutting of
this text, when it occurs in the arguments of one of its sites, or when it stops the expansion of
the arguments of one of its sites, in which the inner sites have been expanded. -/
inductive Occurs (settings : Settings) (name : List Char) :
    Nat → List Char → SourceFailure → Prop
  | cut {line : Nat} {source : List Char} {fault : SiteFault}
      (failed : Segment.scan name source = .error fault) :
      Occurs settings name line source
        (.cut (line + Text.newlines (source.take fault.offset)) fault)
  | inside {line : Nat} {source : List Char} {before later : List Segment} {call : Site}
      {failure : SourceFailure}
      (scanned : Segment.scan name source = .ok (before ++ .site call :: later))
      (occurs : Occurs settings name
        (line + Text.newlines (before.flatMap Segment.text) + Text.newlines call.head)
        call.arguments failure) :
      Occurs settings name line source failure
  | expansion {line : Nat} {source : List Char} {before later : List Segment} {call : Site}
      {inside : SourceExpansion} {error : ExpansionError}
      (scanned : Segment.scan name source = .ok (before ++ .site call :: later))
      (expanded : settings.expandSource call.arguments = .ok inside)
      (failed :
        (CaptureList.expandText inside.text settings.target settings).outcome = .error error) :
      Occurs settings name line source
        (.expansion (line + Text.newlines (before.flatMap Segment.text)) call error)

/-- No failure but one of the text occurs. -/
theorem Occurs.exists_report {settings : Settings} (renderable : settings.Renderable)
    {name source : List Char} {line : Nat} {failure : SourceFailure}
    (occurs : Occurs settings name line source failure) :
    ∃ report, failure.report? = some report := by
  induction occurs with
  | cut failed => exact ⟨_, rfl⟩
  | inside scanned occurs ih => exact ih
  | expansion scanned expanded failed =>
      obtain ⟨diagnostic, diagnosed⟩ := SourceExpansion.expandText_diagnostic?
        renderable.target renderable.layout _ failed
      exact ⟨_, by rw [report?, diagnosed]; rfl⟩

end SourceFailure

namespace SourceExpansion

/-- The reports on segments are those on the sites among them. -/
theorem mem_reports_ofSegments_iff {settings : Settings} {name : List Char} {line : Nat}
    {segments : List Segment} {expansion : SourceExpansion}
    (expanded : ofSegments settings name line segments = .ok expansion) {report : SiteReport} :
    report ∈ expansion.reports ↔ ∃ before call later part,
      segments = before ++ .site call :: later ∧
      ofSegment settings name (line + Text.newlines (before.flatMap Segment.text))
        (.site call) = .ok part ∧
      report ∈ part.reports := by
  induction segments generalizing line expansion with
  | nil =>
      obtain rfl := Except.ok.inj expanded
      simp [verbatim]
  | cons segment others ih =>
      obtain ⟨first, rest, expandedFirst, expandedRest, rfl⟩ :=
        ofSegments_cons_eq_ok_iff.1 expanded
      have lineAfter : ∀ before : List Segment,
          line + Text.newlines segment.text + Text.newlines (before.flatMap Segment.text) =
            line + Text.newlines ((segment :: before).flatMap Segment.text) := by
        intro before
        simp [Text.newlines, Nat.add_assoc]
      have reports : (first.append rest).reports = first.reports ++ rest.reports := rfl
      rw [reports, List.mem_append, ih expandedRest]
      constructor
      · rintro (early | ⟨before, call, later, part, rfl, expandedPart, member⟩)
        · cases segment with
          | code character =>
              obtain rfl := Except.ok.inj expandedFirst
              simp [verbatim] at early
          | literal passed =>
              obtain rfl := Except.ok.inj expandedFirst
              simp [verbatim] at early
          | site call => exact ⟨[], call, others, first, rfl, expandedFirst, early⟩
        · rw [lineAfter] at expandedPart
          exact ⟨segment :: before, call, later, part, rfl, expandedPart, member⟩
      · rintro ⟨before, call, later, part, split, expandedPart, member⟩
        cases before with
        | nil =>
            obtain ⟨rfl, rfl⟩ := List.cons.inj split
            obtain rfl := Except.ok.inj (expandedFirst.symm.trans expandedPart)
            exact .inl member
        | cons other before =>
            obtain ⟨rfl, rfl⟩ := List.cons.inj split
            rw [← lineAfter] at expandedPart
            exact .inr ⟨before, call, later, part, rfl, expandedPart, member⟩

/-- Every site has an outcome, and so have its arguments. -/
theorem exists_ofSegment_site {settings : Settings} (renderable : settings.Renderable)
    (name : List Char) (line : Nat) (call : Site) :
    ∃ inside part,
      ofText settings name (line + Text.newlines call.head) call.arguments = .ok inside ∧
      ofSegment settings name line (.site call) = .ok part := by
  obtain ⟨inside, expandedInside⟩ :=
    exists_outcome renderable name (line + Text.newlines call.head) call.arguments
  obtain ⟨part, finished, -⟩ := site_cases renderable line call inside
  exact ⟨inside, part, expandedInside, bind_eq_ok_iff.2 ⟨inside, expandedInside, finished⟩⟩

section Renderable

variable {settings : Settings} (renderable : settings.Renderable) {name : String}
  (named : settings.macroName.text? = some name)

include renderable named

/-- The text that a source is expanded to does not depend on its first line. -/
theorem exists_expandSource_text {line : Nat} {source : List Char} {expansion : SourceExpansion}
    (expanded : ofText settings name.toList line source = .ok expansion) :
    ∃ alone, settings.expandSource source = .ok alone ∧ alone.text = expansion.text := by
  obtain ⟨top, expandedTop⟩ := exists_outcome renderable name.toList 0 source
  obtain ⟨first, expandedFirst, lowFirst⟩ :=
    lowers settings name.toList 1 source 0 top expandedTop
  obtain ⟨low, expandedLow, lowered⟩ :=
    lowers settings name.toList line source 0 top expandedTop
  rw [Nat.zero_add] at expandedFirst expandedLow
  obtain rfl := Except.ok.inj (expandedLow.symm.trans expanded)
  exact ⟨_, Settings.expandSource_of_ofText named expandedFirst,
    lowFirst.text_eq.trans lowered.text_eq.symm⟩

/-- The reports on a site are those on its arguments and, if the expansion fails, its own. -/
theorem mem_reports_ofSegment_iff {line : Nat} {call : Site} {part : SourceExpansion}
    (expanded : ofSegment settings name.toList line (.site call) = .ok part)
    {report : SiteReport} :
    report ∈ part.reports ↔
      (∃ inside, ofText settings name.toList (line + Text.newlines call.head) call.arguments =
          .ok inside ∧ report ∈ inside.reports) ∨
        ∃ inside error, settings.expandSource call.arguments = .ok inside ∧
          (CaptureList.expandText inside.text settings.target settings).outcome =
            .error error ∧
          (SourceFailure.expansion line call error).report? = some report := by
  obtain ⟨inside, expandedInside, finished⟩ := bind_eq_ok_iff.1 expanded
  obtain ⟨alone, expandedAlone, sameText⟩ :=
    exists_expandSource_text renderable named expandedInside
  obtain ⟨found, succeeded, -, outcome⟩ := site_cases renderable line call inside
  obtain rfl := Except.ok.inj (succeeded.symm.trans finished)
  rw [← sameText] at outcome
  simp only [expandedInside, expandedAlone, Except.ok.injEq, exists_eq_left', exists_and_left]
  rcases outcome with ⟨text, succeeds, -, -, reports⟩ |
    ⟨error, diagnostic, fails, diagnosed, -, -, reports⟩
  · simp [reports, succeeds]
  · simp [reports, fails, SourceFailure.report?, diagnosed, @eq_comm _ report]

/-- The reports on a text are those of its failures. -/
theorem mem_reports_ofText_iff {line : Nat} {source : List Char} {expansion : SourceExpansion}
    (expanded : ofText settings name.toList line source = .ok expansion) {report : SiteReport} :
    report ∈ expansion.reports ↔
      ∃ failure, SourceFailure.Occurs settings name.toList line source failure ∧
        failure.report? = some report := by
  induction size : source.length using Nat.strongRecOn generalizing line source expansion with
  | ind length ih =>
  cases scanned : Segment.scan name.toList source with
  | error fault =>
      obtain rfl := Except.ok.inj ((ofText_of_fault scanned line).symm.trans expanded)
      constructor
      · intro member
        obtain rfl := List.mem_singleton.1 member
        exact ⟨_, .cut scanned, rfl⟩
      · rintro ⟨failure, occurs, reported⟩
        cases occurs with
        | cut failed =>
            obtain rfl := Except.error.inj (scanned.symm.trans failed)
            obtain rfl := Option.some.inj reported
            exact List.mem_singleton_self _
        | inside found => simp [scanned] at found
        | expansion found => simp [scanned] at found
  | ok segments =>
      rw [ofText_of_scan scanned] at expanded
      rw [mem_reports_ofSegments_iff expanded]
      constructor
      · rintro ⟨before, call, later, part, rfl, expandedPart, member⟩
        have shorter := Segment.arguments_length_lt_of_mem_scanFrom scanned
          (List.mem_append_right before (List.mem_cons_self ..))
        rcases (mem_reports_ofSegment_iff renderable named expandedPart).1 member with
          ⟨inside, expandedInside, inner⟩ | ⟨inside, error, rewritten, fails, reported⟩
        · obtain ⟨failure, occurs, reported⟩ :=
            (ih call.arguments.length (size ▸ shorter) expandedInside rfl).1 inner
          exact ⟨failure, .inside scanned occurs, reported⟩
        · exact ⟨_, .expansion scanned rewritten fails, reported⟩
      · rintro ⟨failure, occurs, reported⟩
        cases occurs with
        | cut failed => simp [scanned] at failed
        | @inside _ _ before later call _ found occurs =>
            obtain rfl := Except.ok.inj (scanned.symm.trans found)
            have shorter := Segment.arguments_length_lt_of_mem_scanFrom scanned
              (List.mem_append_right before (List.mem_cons_self ..))
            obtain ⟨inside, part, expandedInside, expandedPart⟩ :=
              exists_ofSegment_site renderable name.toList
                (line + Text.newlines (before.flatMap Segment.text)) call
            refine ⟨before, call, later, part, rfl, expandedPart, ?_⟩
            refine (mem_reports_ofSegment_iff renderable named expandedPart).2
              (.inl ⟨inside, expandedInside, ?_⟩)
            exact (ih call.arguments.length (size ▸ shorter) expandedInside rfl).2
              ⟨failure, occurs, reported⟩
        | @expansion _ _ before later call inside error found rewritten fails =>
            obtain rfl := Except.ok.inj (scanned.symm.trans found)
            obtain ⟨-, part, -, expandedPart⟩ := exists_ofSegment_site renderable name.toList
              (line + Text.newlines (before.flatMap Segment.text)) call
            refine ⟨before, call, later, part, rfl, expandedPart, ?_⟩
            exact (mem_reports_ofSegment_iff renderable named expandedPart).2
              (.inr ⟨inside, error, rewritten, fails, reported⟩)

end Renderable

end SourceExpansion

namespace Settings

/-- Where the macro name is a text and target and layout are known, every source has an expansion.
Each of its failures, at any depth, is one that the text is to blame for and has a report in the
expansion, which holds no other reports.  Nor can the expansion of a single capture list fail for
another reason, for the target of the settings or a known one that is asked for. -/
theorem expandSource_reports_failures {settings : Settings} {name : String}
    (named : settings.macroName = .string name)
    (target : settings.target ∈ Target.labels.map Value.string)
    (layout : settings.renderMode ∈ Block.Layout.labels.map Value.string) :
    (∀ source, ∃ expansion, settings.expandSource source = .ok expansion ∧
      (∀ failure, SourceFailure.Occurs settings name.toList 1 source failure →
        ∃ report ∈ expansion.reports, failure.report? = some report) ∧
      (∀ report ∈ expansion.reports,
        ∃ failure, SourceFailure.Occurs settings name.toList 1 source failure ∧
          failure.report? = some report) ∧
      (expansion.ok = true ↔
        ∀ failure, ¬ SourceFailure.Occurs settings name.toList 1 source failure)) ∧
    ∀ text asked, asked.isVoid = true ∨ asked ∈ Target.labels.map Value.string →
      ∀ error, (CaptureList.expandText text (settings.targetOr asked) settings).outcome =
        .error error → ∃ diagnostic, error.diagnostic? = some diagnostic := by
  have renderable : settings.Renderable :=
    ⟨Target.ofValue?_isSome_iff.2 target, Block.Layout.ofValue?_isSome_iff.2 layout⟩
  have hasText : settings.macroName.text? = some name := by rw [named]; rfl
  constructor
  · intro source
    obtain ⟨inner, expandedInner⟩ :=
      SourceExpansion.exists_outcome renderable name.toList 1 source
    have reports : ∀ report, report ∈ inner.reports ↔
        ∃ failure, SourceFailure.Occurs settings name.toList 1 source failure ∧
          failure.report? = some report :=
      fun _ => SourceExpansion.mem_reports_ofText_iff renderable hasText expandedInner
    refine ⟨_, Settings.expandSource_of_ofText hasText expandedInner, ?_, ?_, ?_⟩
    · intro failure occurs
      obtain ⟨report, reported⟩ := occurs.exists_report renderable
      exact ⟨report, (reports report).2 ⟨failure, occurs, reported⟩, reported⟩
    · exact fun report member => (reports report).1 member
    · rw [SourceExpansion.ok, List.isEmpty_iff, List.eq_nil_iff_forall_not_mem]
      constructor
      · intro none failure occurs
        obtain ⟨report, reported⟩ := occurs.exists_report renderable
        exact none report ((reports report).2 ⟨failure, occurs, reported⟩)
      · intro never report member
        obtain ⟨failure, occurs, -⟩ := (reports report).1 member
        exact never failure occurs
  · intro text asked given error failed
    refine SourceExpansion.expandText_diagnostic? ?_ renderable.layout text failed
    rw [targetOr]
    split
    · exact renderable.target
    · next something => exact Target.ofValue?_isSome_iff.2 (given.resolve_left something)

/-- A macro name that is no name, and a site inside another one whose arguments are no capture
list. -/
theorem expandSource_reports_failures_nested :
    ∃ (settings : Settings) (expansion : SourceExpansion),
      settings.macroName = .string "a b" ∧ settings.target = .string "python" ∧
      settings.expandSource "f(a b![move x in a b!(move)])".toList = .ok expansion ∧
      expansion.ok = false ∧
      ∃ report ∈ expansion.reports, report.text = "a b!(move)".toList := by
  let settings : Settings := { macroName := .string "a b", target := .string "python" }
  obtain ⟨total, -⟩ := expandSource_reports_failures
    (show settings.macroName = .string "a b" from rfl)
    (show .string "python" ∈ Target.labels.map Value.string from .tail _ (.head _))
    (show .string "inline" ∈ Block.Layout.labels.map Value.string from .head _)
  obtain ⟨expansion, expanded, reported, -, ok⟩ := total "f(a b![move x in a b!(move)])".toList
  have outer : Segment.scan "a b".toList "f(a b![move x in a b!(move)])".toList =
      .ok ("f(".toList.map Segment.code ++
        .site ⟨"a b!".toList, .square, "move x in a b!(move)".toList⟩ :: [.code ')']) := by
    decide +kernel
  have inner : Segment.scan "a b".toList "move x in a b!(move)".toList =
      .ok ("move x in ".toList.map Segment.code ++
        .site ⟨"a b!".toList, .round, "move".toList⟩ :: []) := by
    decide +kernel
  obtain ⟨line, error, occurs⟩ : ∃ line error, SourceFailure.Occurs settings "a b".toList 1
      "f(a b![move x in a b!(move)])".toList
      (.expansion line ⟨"a b!".toList, .round, "move".toList⟩ error) :=
    ⟨_, _, .inside outer
      (.expansion inner (by with_unfolding_all rfl) (by with_unfolding_all rfl))⟩
  obtain ⟨report, member, same⟩ := reported _ occurs
  obtain ⟨diagnostic, -, rfl⟩ := Option.map_eq_some_iff.1 same
  refine ⟨settings, expansion, rfl, rfl, expanded, ?_, _, member, rfl⟩
  rw [Bool.eq_false_iff]
  exact fun fine => ok.1 fine _ occurs

end Settings

end ClosureCapture
