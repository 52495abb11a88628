import ClosureCapture.Expansion
import ClosureCapture.Proofs.Alias.Conflicts
import ClosureCapture.Proofs.CaptureList.Grammar
import ClosureCapture.Proofs.Token.Coverage

/-!
# Strict and shadowing policies

Two expansions of one text that differ in the policy alone go the same way unless the list has
alias conflicts.  Then the strict policy refuses the list at the first conflict, whatever the
target is, and the shadowing policy renders the list after a warning for each conflict.
-/

namespace ClosureCapture

/-- Settings with another policy. -/
def Settings.withPolicy (settings : Settings) (policy : AliasPolicy) : Settings :=
  { settings with aliasPolicy := policy }

theorem Scope.render_withPolicy (scope : Scope) (target : Value) (settings : Settings)
    (policy : AliasPolicy) :
    scope.render target (settings.withPolicy policy) = scope.render target settings := rfl

namespace Event

@[simp]
theorem warnings_append (events others : List Event) :
    warnings (events ++ others) = warnings events ++ warnings others := by
  simp [warnings]

theorem warnings_aliasShadowed (conflicts : List AliasConflict) :
    warnings (conflicts.map fun conflict => .aliasShadowed conflict.describe) =
      conflicts.map fun conflict => (aliasShadowed conflict.describe).message := by
  induction conflicts with
  | nil => rfl
  | cons conflict others ih => exact congrArg _ ih

end Event

namespace CaptureList

/-! ### The first token of a clause -/

/-- A token begins the clause with the given index when the text is split into phrases. -/
def BeginsClause (text : List Char) (index : Nat) (token : Token) : Prop :=
  ∃ sentence : Sentence, sentence.tokens = Token.scan text ∧
    ∃ phrase, (sentence.phrases.filter (·.clause?.isSome))[index]? = some phrase ∧
      phrase.tokens.head? = some token

theorem exists_phrase_of_getElem? {phrases : List Phrase} {index : Nat} {clause : Clause String}
    (found : (phrases.filterMap Phrase.clause?)[index]? = some clause) :
    ∃ phrase, (phrases.filter (·.clause?.isSome))[index]? = some phrase ∧
      phrase.clause? = some clause := by
  induction phrases generalizing index with
  | nil => simp at found
  | cons phrase phrases ih =>
      cases stated : phrase.clause? with
      | none =>
          rw [List.filterMap_cons_none stated] at found
          simpa [stated] using ih found
      | some first =>
          rw [List.filterMap_cons_some stated] at found
          rw [List.filter_cons_of_pos (by simp [stated])]
          cases index with
          | zero => exact ⟨phrase, rfl, stated.trans found⟩
          | succ index => exact ih found

theorem Phrase.exists_head_of_clause? {phrase : Phrase} {clause : Clause String}
    (stated : phrase.clause? = some clause) :
    ∃ token, phrase.tokens.head? = some token ∧ clause.offset = some token.offset := by
  cases phrase with
  | comma => simp [clause?] at stated
  | _ =>
      obtain rfl := Option.some.inj stated
      exact ⟨_, rfl, rfl⟩

/-- A clause that was read stands at the offset of its first token, which the text holds there. -/
theorem exists_beginsClause {text : List Char} {list : CaptureList String} {index : Nat}
    {clause : Clause String} (parsed : parse text = .ok list)
    (found : list.clauses[index]? = some clause) :
    ∃ token, BeginsClause text index token ∧ token.StandsIn text ∧
      clause.offset = some token.offset := by
  obtain ⟨sentence, written, rfl⟩ := parse_eq_ok_iff.1 parsed
  obtain ⟨phrase, placed, stated⟩ := exists_phrase_of_getElem? found
  obtain ⟨token, first, offset⟩ := Phrase.exists_head_of_clause? stated
  refine ⟨token, ⟨sentence, written, phrase, placed, first⟩, ?_, offset⟩
  apply Token.standsIn_of_mem_scan
  rw [← written, Sentence.tokens]
  apply List.mem_append_left
  apply List.mem_flatMap.2
  exact ⟨phrase, (List.mem_filter.1 (List.mem_of_getElem? placed)).1, List.mem_of_head? first⟩

/-! ### Expansion under a policy -/

theorem warnings_events (reading : Reading) : Event.warnings reading.events = [] := by
  have quiet : ∀ clauses : List (Clause String), Event.warnings
      (clauses.map fun clause => .clauseMatched clause.mode.label clause.identifier) = [] := by
    intro clauses
    induction clauses with
    | nil => rfl
    | cons clause clauses ih => exact ih
  unfold Reading.events
  split
  · rw [Event.warnings_append, quiet]
    rfl
  · exact quiet _

theorem expandText_of_parse_error {text : List Char} {error : GrammarError}
    (refused : parse text = .error error) (target : Value) (settings : Settings) :
    (expandText text target settings).outcome = .error (.grammar error) := by
  rw [parse] at refused
  simp only [expandText, refused]

theorem expandText_of_parse_ok {text : List Char} {list : CaptureList String}
    (parsed : parse text = .ok list) (target : Value) (settings : Settings) :
    (expandText text target settings).outcome = (list.expand target settings).outcome ∧
      Event.warnings (expandText text target settings).events =
        Event.warnings (list.expand target settings).events := by
  rw [parse] at parsed
  simp only [expandText, parsed, Event.warnings_append, warnings_events, List.nil_append, and_self]

theorem expand_strict_of_conflict {list : CaptureList String} {first : AliasConflict}
    {others : List AliasConflict} (conflicting : list.conflicts = first :: others)
    (target : Value) (settings : Settings) :
    (list.expand target (settings.withPolicy .strict)).outcome = .error (.aliasing first) := by
  simp [expand, checkAliasing, Settings.withPolicy, conflicting]

theorem expand_strict_of_no_conflict {list : CaptureList String} (clean : list.conflicts = [])
    (target : Value) (settings : Settings) :
    (list.expand target (settings.withPolicy .strict)).outcome =
      list.scope.render target settings := by
  simp [expand, checkAliasing, Settings.withPolicy, clean, ← Scope.render_withPolicy _ _ _ .strict]

theorem expand_shadow (list : CaptureList String) (target : Value) (settings : Settings) :
    (list.expand target (settings.withPolicy .shadow)).outcome =
        list.scope.render target settings ∧
      Event.warnings (list.expand target (settings.withPolicy .shadow)).events =
        list.conflicts.map fun conflict => (Event.aliasShadowed conflict.describe).message := by
  refine ⟨rfl, ?_⟩
  have shown : (list.expand target (settings.withPolicy .shadow)).events =
      (list.conflicts.map fun conflict => Event.aliasShadowed conflict.describe) ++
        [.listExpanding list.clauses.length target.display] := rfl
  rw [shown, Event.warnings_append, Event.warnings_aliasShadowed]
  exact List.append_nil _

/-- The two policies differ on lists with conflicts alone.  A text that cannot be read is refused
with the same error, and a list without conflicts is rendered without a warning.  Of a list with
conflicts the strict policy reports the first one, where the text has the first token of its
clause, and the shadowing one warns of each in clause order and renders the list. -/
theorem expandText_strict_shadow (text : List Char) (target : Value) (settings : Settings) :
    let strict := expandText text target (settings.withPolicy .strict)
    let shadow := expandText text target (settings.withPolicy .shadow)
    match parse text with
    | .error error =>
        strict.outcome = .error (.grammar error) ∧ shadow.outcome = .error (.grammar error)
    | .ok list =>
        shadow.outcome = list.scope.render target settings ∧
        match list.conflicts with
        | [] => strict.outcome = shadow.outcome ∧ Event.warnings shadow.events = []
        | first :: others =>
            strict.outcome = .error (.aliasing first) ∧
            (∃ token, BeginsClause text first.index token ∧ token.StandsIn text ∧
              (ExpansionError.aliasing first).diagnostic? =
                some ⟨first.describe, some token.offset⟩) ∧
            Event.warnings shadow.events = (first :: others).map
              (fun conflict => (Event.aliasShadowed conflict.describe).message) ∧
            (first :: others).Pairwise (·.index < ·.index) := by
  intro strict shadow
  cases parsed : parse text with
  | error error =>
      exact ⟨expandText_of_parse_error parsed _ _, expandText_of_parse_error parsed _ _⟩
  | ok list =>
      obtain ⟨strictly, -⟩ := expandText_of_parse_ok parsed target (settings.withPolicy .strict)
      obtain ⟨shadowed, warned⟩ :=
        expandText_of_parse_ok parsed target (settings.withPolicy .shadow)
      obtain ⟨rendered, shown⟩ := expand_shadow list target settings
      have outcome : shadow.outcome = list.scope.render target settings := shadowed.trans rendered
      refine ⟨outcome, ?_⟩
      cases conflicting : list.conflicts with
      | nil =>
          rw [conflicting] at shown
          refine ⟨?_, warned.trans shown⟩
          exact (strictly.trans (expand_strict_of_no_conflict conflicting _ _)).trans outcome.symm
      | cons first others =>
          have member : first ∈ list.conflicts := conflicting ▸ List.mem_cons_self
          have found := getElem?_of_mem_conflicts member
          obtain ⟨token, begins, stands, offset⟩ := exists_beginsClause parsed found
          have ordered := pairwise_conflictsFrom [] 0 list.clauses
          rw [conflicts] at conflicting
          rw [conflicting] at ordered
          rw [conflicts, conflicting] at shown
          refine ⟨strictly.trans (expand_strict_of_conflict conflicting _ _),
            ⟨token, begins, stands, ?_⟩, warned.trans shown, ordered⟩
          rw [← offset]
          rfl

end CaptureList

end ClosureCapture
