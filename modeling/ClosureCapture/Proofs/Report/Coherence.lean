import ClosureCapture.Proofs.Alias.Conflicts
import ClosureCapture.Report
import Mathlib.Data.List.Nodup

/-!
# The parts of a report agree

A report is put together from views of a capture list that are computed apart: counts by mode, names
in order of first appearance, names captured more than once, alias conflicts, and warnings without
repetitions.  This file proves how they fit together.  The number of warnings is exact because
different conflicts are described differently: the description starts with the number of the
clause, and no conflict shares its clause with another.
-/

namespace ClosureCapture

/-! ### Names in order of first appearance -/

/-- The names of a list, each once, in the order in which they appear first. -/
structure FirstOccurrences (names distinct : List String) : Prop where
  mem_iff : ∀ name, name ∈ distinct ↔ name ∈ names
  ordered : distinct.Pairwise (names.idxOf · < names.idxOf ·)
  nodup : distinct.Nodup := ordered.imp fun before same => absurd (same ▸ before) (Nat.lt_irrefl _)

/-- A name that is already there changes nothing. -/
theorem FirstOccurrences.concat_old {names distinct : List String} {name : String}
    (first : FirstOccurrences names distinct) (old : name ∈ names) :
    FirstOccurrences (names ++ [name]) distinct where
  mem_iff := by
    intro other
    rw [first.mem_iff, List.mem_append, List.mem_singleton]
    exact ⟨.inl, fun either => either.elim id fun same => same ▸ old⟩
  ordered := by
    refine first.ordered.imp_of_mem fun {one two} inOne inTwo before => ?_
    rwa [List.idxOf_append_of_mem ((first.mem_iff one).1 inOne),
      List.idxOf_append_of_mem ((first.mem_iff two).1 inTwo)]

/-- A new name comes last. -/
theorem FirstOccurrences.concat_new {names distinct : List String} {name : String}
    (first : FirstOccurrences names distinct) (new : name ∉ names) :
    FirstOccurrences (names ++ [name]) (distinct ++ [name]) where
  mem_iff := by
    intro other
    rw [List.mem_append, List.mem_append, first.mem_iff]
  ordered := by
    have place : ∀ other ∈ distinct, (names ++ [name]).idxOf other = names.idxOf other :=
      fun other member => List.idxOf_append_of_mem ((first.mem_iff other).1 member)
    refine List.pairwise_append.2 ⟨?_, List.pairwise_singleton _ _, ?_⟩
    · refine first.ordered.imp_of_mem fun {one two} inOne inTwo before => ?_
      rwa [place one inOne, place two inTwo]
    · intro other member last isLast
      rw [List.mem_singleton.1 isLast, place other member, List.idxOf_append_of_notMem new,
        List.idxOf_cons_self]
      exact List.idxOf_lt_length_iff.2 ((first.mem_iff other).1 member)

theorem firstOccurrences_eraseDups (names : List String) :
    FirstOccurrences names names.eraseDups := by
  induction names using List.reverseRecOn with
  | nil => exact { mem_iff := fun _ => .rfl, ordered := .nil }
  | append_singleton names name ih =>
      rw [List.eraseDups_append]
      by_cases old : name ∈ names
      · have removed : [name].removeAll names = [] := by simp [List.removeAll, old]
        rw [removed, List.eraseDups_nil, List.append_nil]
        exact ih.concat_old old
      · have kept : [name].removeAll names = [name] := by simp [List.removeAll, old]
        rw [kept]
        exact ih.concat_new old

/-! ### Adding warnings -/

namespace Report

/-- A report with warnings behind the ones it has, none of them twice. -/
structure Extends (report other : Report) (messages : List String) : Prop where
  only_appends : ∃ added, other = { report with warnings := report.warnings ++ added } ∧
    ∀ message ∈ added, message ∈ messages
  holds : ∀ message ∈ messages, message ∈ other.warnings
  nodup : other.warnings.Nodup

theorem warn_old {report : Report} {message : String} (old : message ∈ report.warnings) :
    report.warn message = report := by
  rw [warn, if_pos (List.contains_iff_mem.2 old)]

theorem warn_new {report : Report} {message : String} (new : message ∉ report.warnings) :
    report.warn message = { report with warnings := report.warnings ++ [message] } := by
  rw [warn, if_neg fun old => new (List.contains_iff_mem.1 old)]

theorem extends_warn {report : Report} (nodup : report.warnings.Nodup) (message : String) :
    report.Extends (report.warn message) [message] := by
  by_cases old : message ∈ report.warnings
  · rw [warn_old old]
    exact ⟨⟨[], by simp, by simp⟩, by simpa using old, nodup⟩
  · rw [warn_new old]
    refine ⟨⟨[message], rfl, by simp⟩, by simp, ?_⟩
    exact List.nodup_append.2 ⟨nodup, List.nodup_singleton _, by
      intro first member last isLast same
      exact old (List.mem_singleton.1 isLast ▸ same ▸ member)⟩

theorem Extends.trans {report other last : Report} {messages later : List String}
    (first : report.Extends other messages) (second : other.Extends last later) :
    report.Extends last (messages ++ later) := by
  obtain ⟨⟨added, rfl, asked⟩, holds, -⟩ := first
  obtain ⟨⟨more, rfl, askedLater⟩, holdsLater, nodup⟩ := second
  refine ⟨⟨added ++ more, by simp, ?_⟩, ?_, nodup⟩
  · intro message member
    rw [List.mem_append] at member ⊢
    exact member.imp (asked message) (askedLater message)
  · intro message member
    rcases List.mem_append.1 member with early | late
    · exact List.mem_append_left more (holds message early)
    · exact holdsLater message late

/-- Any number of warnings keeps a report free of repetitions and changes nothing else. -/
theorem extends_warnAll {report : Report} (nodup : report.warnings.Nodup)
    (messages : List String) : report.Extends (report.warnAll messages) messages := by
  induction messages generalizing report with
  | nil => exact ⟨⟨[], by simp [warnAll], by simp⟩, by simp, nodup⟩
  | cons message messages ih =>
      have first := extends_warn nodup message
      exact first.trans (ih first.nodup)

/-- Warnings that are all different are all added. -/
theorem warnAll_of_nodup {report : Report} {messages : List String}
    (nodup : (report.warnings ++ messages).Nodup) :
    report.warnAll messages = { report with warnings := report.warnings ++ messages } := by
  induction messages generalizing report with
  | nil => simp [warnAll]
  | cons message messages ih =>
      have new : message ∉ report.warnings := by
        intro old
        exact (List.nodup_append.1 nodup).2.2 message old message List.mem_cons_self rfl
      rw [warnAll, List.foldl_cons, warn_new new, ← warnAll, ih (by simpa using nodup)]
      simp

end Report

/-! ### Descriptions of conflicts -/

namespace AliasConflict

/-- A description starts with the number of the clause, followed by a blank. -/
theorem exists_toList_describe (conflict : AliasConflict) :
    ∃ rest, conflict.describe.toList =
      "Clause ".toList ++ (Nat.toDigits 10 (conflict.index + 1) ++ ' ' :: rest) := by
  unfold describe
  simp only [toString, String.toList_append, Nat.repr_eq_ofList_toDigits, String.toList_ofList,
    List.append_assoc]
  exact ⟨_, rfl⟩

theorem index_eq_of_describe_eq {conflict other : AliasConflict}
    (same : conflict.describe = other.describe) : conflict.index = other.index := by
  obtain ⟨rest, described⟩ := conflict.exists_toList_describe
  obtain ⟨others, describedOther⟩ := other.exists_toList_describe
  have digits : ∀ (number : Nat) (rest : List Char),
      (Nat.toDigits 10 number ++ ' ' :: rest).takeWhile Char.isDigit = Nat.toDigits 10 number := by
    intro number rest
    have inside : ∀ digit ∈ Nat.toDigits 10 number, digit.isDigit = true :=
      fun digit member => Nat.isDigit_of_mem_toDigits (by decide) (by decide) member
    rw [List.takeWhile_append_of_pos inside, List.takeWhile_cons_of_neg (by decide),
      List.append_nil]
  rw [← same, described] at describedOther
  have numbers := congrArg (List.takeWhile Char.isDigit) (List.append_cancel_left describedOther)
  rw [digits, digits] at numbers
  have values := congrArg (Nat.ofDigitChars 10 · 0) numbers
  simp only [Nat.ofDigitChars_ten_toDigits] at values
  omega

end AliasConflict

/-! ### The warnings of a report -/

namespace CaptureList

theorem nodup_conflictWarnings (list : CaptureList String) :
    (conflictWarnings list.conflicts).Nodup := by
  refine List.pairwise_map.2 ((pairwise_conflictsFrom [] 0 list.clauses).imp ?_)
  intro conflict other before same
  have described : conflict.describe = other.describe := by
    rw [← String.toList_inj] at same ⊢
    simpa only [String.toList_append, List.append_cancel_left_eq] using same
  exact absurd (AliasConflict.index_eq_of_describe_eq described) (Nat.ne_of_lt before)

theorem head?_of_mem_emptyWarnings {list : CaptureList String} {message : String}
    (member : message ∈ list.emptyWarnings) : message.toList.head? = some 'N' := by
  unfold emptyWarnings at member
  split at member
  · rw [List.mem_singleton.1 member]
    decide
  · simp at member

theorem head?_of_mem_shadowWarnings {shadowed : List String} {message : String}
    (member : message ∈ shadowWarnings shadowed) : message.toList.head? = some 'C' := by
  unfold shadowWarnings at member
  split at member
  · simp at member
  · rw [List.mem_singleton.1 member, String.toList_append]
    rfl

theorem head?_of_mem_conflictWarnings {conflicts : List AliasConflict} {message : String}
    (member : message ∈ conflictWarnings conflicts) : message.toList.head? = some 'A' := by
  obtain ⟨conflict, -, rfl⟩ := List.mem_map.1 member
  rw [String.toList_append]
  rfl

/-- No warning repeats another one: those of different kinds start with different letters. -/
theorem nodup_warnings (list : CaptureList String) (shadowed : List String) :
    (list.emptyWarnings ++ shadowWarnings shadowed ++ conflictWarnings list.conflicts).Nodup := by
  have empty : list.emptyWarnings.Nodup := by
    unfold emptyWarnings
    split <;> simp
  have shadow : (shadowWarnings shadowed).Nodup := by
    unfold shadowWarnings
    split <;> simp
  rw [List.nodup_append, List.nodup_append]
  refine ⟨⟨empty, shadow, ?_⟩, list.nodup_conflictWarnings, ?_⟩
  · rintro first inEmpty _ inShadow rfl
    have starts := head?_of_mem_shadowWarnings inShadow
    simp [head?_of_mem_emptyWarnings inEmpty] at starts
  · rintro first early _ late rfl
    have starts := head?_of_mem_conflictWarnings late
    rcases List.mem_append.1 early with inEmpty | inShadow
    · simp [head?_of_mem_emptyWarnings inEmpty] at starts
    · simp [head?_of_mem_shadowWarnings inShadow] at starts

/-! ### Names captured more than once -/

theorem length_clausesFor (list : CaptureList String) (identifier : String) :
    (list.clausesFor identifier).length = list.identifiers.count identifier := by
  rw [clausesFor, ← List.countP_eq_length_filter, identifiers, List.count, List.countP_map]
  rfl

/-- A conflict is a second capture of its name. -/
theorem two_le_count_of_mem_conflicts {list : CaptureList String} {conflict : AliasConflict}
    (member : conflict ∈ list.conflicts) : 2 ≤ list.identifiers.count conflict.identifier := by
  obtain ⟨before, later, split, -, earlier, ⟨front, back, rfl, same, -⟩, -⟩ :=
    mem_conflicts_iff.1 member
  have names : list.identifiers = (front.map (·.identifier) ++ conflict.identifier ::
      back.map (·.identifier)) ++ conflict.identifier :: later.map (·.identifier) := by
    simp [identifiers, split, same, AliasConflict.identifier]
  rw [names, List.count_append, List.count_append, List.count_cons_self, List.count_cons_self]
  omega

end CaptureList

/-! ### The whole report -/

theorem ModeCounts.total_ofClauses (clauses : List (Clause String)) :
    (ofClauses clauses).total = clauses.length := by
  induction clauses with
  | nil => rfl
  | cons clause clauses ih =>
      rw [List.length_cons, ← ih]
      cases called : clause.mode <;> simp [ofClauses, total, called, Mode.label] <;> omega

/-- How the parts of a report fit a capture list and each other. -/
structure Report.IsCoherent (list : CaptureList String) (report : Report) : Prop where
  total : report.modeCounts.total = report.totalClauses
  clauses : report.totalClauses = list.clauses.length
  identifiers : FirstOccurrences list.identifiers report.identifiers
  methods : FirstOccurrences (list.clauses.filterMap (·.mode.method?)) report.methods
  shadowed_sublist : report.shadowed.Sublist report.identifiers
  mem_shadowed_iff : ∀ name, name ∈ report.shadowed ↔ 2 ≤ list.identifiers.count name
  conflicts : report.conflicts = list.conflicts
  conflict_shadowed : ∀ conflict ∈ report.conflicts, conflict.identifier ∈ report.shadowed
  warnings_nodup : report.warnings.Nodup
  warnings_length : report.warnings.length = (if report.totalClauses = 0 then 1 else 0) +
    (if report.shadowed = [] then 0 else 1) + report.conflicts.length

namespace CaptureList

/-- The parts of a report, with all warnings in it. -/
theorem report_eq (list : CaptureList String) :
    let shadowed := list.identifiers.eraseDups.filter fun name => 1 < (list.clausesFor name).length
    list.report =
      { totalClauses := list.clauses.length
        modeCounts := .ofClauses list.clauses
        identifiers := list.identifiers.eraseDups
        shadowed := shadowed
        methods := (list.clauses.filterMap (·.mode.method?)).eraseDups
        conflicts := list.conflicts
        bodyLength := list.body.length
        warnings :=
          list.emptyWarnings ++ shadowWarnings shadowed ++ conflictWarnings list.conflicts } :=
  Report.warnAll_of_nodup (list.nodup_warnings _)

theorem mem_shadowed_iff (list : CaptureList String) (name : String) :
    name ∈ list.report.shadowed ↔ 2 ≤ list.identifiers.count name := by
  rw [report_eq, List.mem_filter, List.mem_eraseDups, decide_eq_true_iff, length_clausesFor]
  exact ⟨And.right, fun twice => ⟨List.count_pos_iff.1 (by omega), twice⟩⟩

theorem isCoherent_report (list : CaptureList String) : list.report.IsCoherent list where
  total := by
    rw [report_eq]
    exact ModeCounts.total_ofClauses list.clauses
  clauses := by rw [report_eq]
  identifiers := by
    rw [report_eq]
    exact firstOccurrences_eraseDups _
  methods := by
    rw [report_eq]
    exact firstOccurrences_eraseDups _
  shadowed_sublist := by
    rw [report_eq]
    exact List.filter_sublist
  mem_shadowed_iff := list.mem_shadowed_iff
  conflicts := by rw [report_eq]
  conflict_shadowed := by
    intro conflict member
    rw [report_eq] at member
    exact (list.mem_shadowed_iff _).2 (two_le_count_of_mem_conflicts member)
  warnings_nodup := by
    rw [report_eq]
    exact list.nodup_warnings _
  warnings_length := by
    rw [report_eq, List.length_append, List.length_append, conflictWarnings, List.length_map]
    congr 2
    · unfold emptyWarnings
      split <;> simp_all
    · unfold shadowWarnings
      split <;> simp_all

end CaptureList

/-- There is nothing to warn of when there are clauses and all of them capture different names. -/
theorem Report.IsCoherent.warnings_eq_nil_iff {list : CaptureList String} {report : Report}
    (coherent : report.IsCoherent list) :
    report.warnings = [] ↔ list.clauses ≠ [] ∧ list.identifiers.Nodup := by
  have unshadowed : report.shadowed = [] ↔ list.identifiers.Nodup := by
    rw [List.nodup_iff_count_le_one, List.eq_nil_iff_forall_not_mem]
    refine forall_congr' fun name => ?_
    rw [coherent.mem_shadowed_iff]
    omega
  have clausal : report.totalClauses ≠ 0 ↔ list.clauses ≠ [] := by
    rw [coherent.clauses, ne_eq, List.length_eq_zero_iff]
  rw [← List.length_eq_zero_iff, coherent.warnings_length, ← unshadowed, ← clausal]
  constructor
  · intro nothing
    split_ifs at nothing <;> simp_all
  · rintro ⟨some, none⟩
    have quiet : report.conflicts = [] := by
      rw [List.eq_nil_iff_forall_not_mem]
      intro conflict member
      simpa [none] using coherent.conflict_shadowed conflict member
    simp [some, none, quiet]

/-- A report is coherent.  It has no warning exactly when there are clauses and all of them capture
different names, and warnings that are added later come behind its own, none of them twice. -/
theorem CaptureList.report_coherent (list : CaptureList String) :
    list.report.IsCoherent list ∧
    (list.report.warnings = [] ↔ list.clauses ≠ [] ∧ list.identifiers.Nodup) ∧
    ∀ messages, list.report.Extends (list.report.warnAll messages) messages := by
  have coherent := list.isCoherent_report
  exact ⟨coherent, coherent.warnings_eq_nil_iff,
    fun messages => Report.extends_warnAll coherent.warnings_nodup messages⟩

end ClosureCapture
