import ClosureCapture.Alias
import Mathlib.Data.List.Induction

/-!
# Which clauses conflict

A walk over the clauses keeps a state for every name.  This file proves what the state of a name
is at any point: it was set by the last clause that captures the name otherwise than by a move, and
no other clause matters.  Hence the conflicts can be told from pairs of clauses alone, and the
conflicts on one name are those of the clauses that capture it.
-/

namespace ClosureCapture

/-- The pairs of captures of one name, the earlier one first, that alias a reference, and what the
earlier one has bound the name to. -/
inductive Mode.Aliases {Name : Type} : (earlier later : Mode Name) → Borrow → Prop
  | refAfterRefMut : Aliases .refMut .ref .mutable
  | refMutAfterRef : Aliases .ref .refMut .shared
  | refMutAfterRefMut : Aliases .refMut .refMut .mutable

theorem Mode.Aliases.conflictsWith {Name : Type} {earlier later : Mode Name} {state : Borrow}
    (aliases : earlier.Aliases later state) :
    state = Borrow.owned.after earlier ∧ state.conflictsWith later = true := by
  cases aliases <;> exact ⟨rfl, rfl⟩

theorem Mode.aliases_of_conflictsWith {Name : Type} {earlier later : Mode Name}
    (conflicting : (Borrow.owned.after earlier).conflictsWith later = true) :
    earlier.Aliases later (Borrow.owned.after earlier) := by
  cases earlier <;> cases later <;> simp [Borrow.after, Borrow.conflictsWith] at conflicting
  · exact .refMutAfterRef
  · exact .refAfterRefMut
  · exact .refMutAfterRefMut

/-- A clause is the last among clauses that captures a name otherwise than by a move. -/
def Clause.LastBinds {Name : Type} (clauses : List (Clause Name)) (identifier : Name)
    (clause : Clause Name) : Prop :=
  ∃ before after, clauses = before ++ clause :: after ∧ clause.identifier = identifier ∧
    clause.mode ≠ .move ∧ ∀ other ∈ after, other.identifier = identifier → other.mode = .move

namespace Borrow

variable {Name : Type}

theorem after_of_ne_move {mode : Mode Name} (binds : mode ≠ .move) (state : Borrow) :
    state.after mode = owned.after mode := by
  cases mode with
  | move => exact absurd rfl binds
  | ref | refMut | method => rfl

variable [DecidableEq Name]

/-- The state of a name after some clauses. -/
def ofClauses (clauses : List (Clause Name)) (identifier : Name) : Borrow :=
  clauses.foldl
    (fun state clause =>
      if clause.identifier = identifier then state.after clause.mode else state)
    .owned

theorem ofClauses_concat (clauses : List (Clause Name)) (clause : Clause Name)
    (identifier : Name) :
    ofClauses (clauses ++ [clause]) identifier =
      if clause.identifier = identifier then (ofClauses clauses identifier).after clause.mode
      else ofClauses clauses identifier := by
  simp [ofClauses]

/-- Clauses that capture other names, and moves, leave the state of a name alone. -/
theorem ofClauses_append_of_moves {identifier : Name} (clauses : List (Clause Name))
    {later : List (Clause Name)}
    (moves : ∀ other ∈ later, other.identifier = identifier → other.mode = .move) :
    ofClauses (clauses ++ later) identifier = ofClauses clauses identifier := by
  induction later using List.reverseRecOn with
  | nil => rw [List.append_nil]
  | append_singleton later clause ih =>
      rw [← List.append_assoc, ofClauses_concat,
        ih fun other member => moves other (by simp [member])]
      split
      · next same => rw [moves clause (by simp) same, after]
      · rfl

/-- The state of a name is set by the last clause that binds it. -/
theorem ofClauses_of_lastBinds {clauses : List (Clause Name)} {identifier : Name}
    {clause : Clause Name} (last : clause.LastBinds clauses identifier) :
    ofClauses clauses identifier = owned.after clause.mode := by
  obtain ⟨before, after, rfl, same, binds, moves⟩ := last
  rw [List.append_cons, ofClauses_append_of_moves _ moves, ofClauses_concat, if_pos same]
  exact after_of_ne_move binds _

theorem exists_lastBinds {clauses : List (Clause Name)} {identifier : Name}
    (borrowed : ofClauses clauses identifier ≠ owned) :
    ∃ clause : Clause Name, clause.LastBinds clauses identifier := by
  induction clauses using List.reverseRecOn with
  | nil => exact absurd rfl borrowed
  | append_singleton clauses clause ih =>
      by_cases binds : clause.identifier = identifier ∧ clause.mode ≠ .move
      · exact ⟨clause, clauses, [], rfl, binds.1, binds.2, by simp⟩
      · -- The last clause changes nothing, so the one that counts stands before it.
        have moves : ∀ other ∈ [clause], other.identifier = identifier → other.mode = .move := by
          intro other member same
          obtain rfl := List.mem_singleton.1 member
          by_contra stays
          exact binds ⟨same, stays⟩
        rw [ofClauses_append_of_moves clauses moves] at borrowed
        obtain ⟨earlier, before, after, rfl, same, earlierBinds, others⟩ := ih borrowed
        refine ⟨earlier, before, after ++ [clause], by simp, same, earlierBinds, ?_⟩
        intro other member
        rcases List.mem_append.1 member with inside | itself
        · exact others other inside
        · exact moves other itself

/-- A clause aliases the state of its name when it aliases the last clause that binds the name. -/
theorem conflictsWith_iff {clauses : List (Clause Name)} {identifier : Name} {state : Borrow}
    {mode : Mode Name} :
    (state = ofClauses clauses identifier ∧ state.conflictsWith mode = true) ↔
      ∃ clause : Clause Name, clause.LastBinds clauses identifier ∧
        clause.mode.Aliases mode state := by
  constructor
  · rintro ⟨rfl, conflicting⟩
    have borrowed : ofClauses clauses identifier ≠ owned := by
      intro owned
      rw [owned] at conflicting
      cases mode <;> simp [conflictsWith] at conflicting
    obtain ⟨clause, last⟩ := exists_lastBinds borrowed
    refine ⟨clause, last, ?_⟩
    rw [ofClauses_of_lastBinds last] at conflicting ⊢
    exact Mode.aliases_of_conflictsWith conflicting
  · rintro ⟨clause, last, aliases⟩
    rw [ofClauses_of_lastBinds last]
    exact aliases.conflictsWith

/-- The state of a name depends on the clauses that capture it. -/
theorem ofClauses_filter (clauses : List (Clause Name)) (identifier : Name) :
    ofClauses (clauses.filter (·.identifier = identifier)) identifier =
      ofClauses clauses identifier := by
  induction clauses using List.reverseRecOn with
  | nil => rfl
  | append_singleton clauses clause ih =>
      rw [List.filter_append, ofClauses_concat]
      by_cases same : clause.identifier = identifier
      · rw [List.filter_cons_of_pos (by simpa using same), List.filter_nil, ofClauses_concat, ih]
      · rw [List.filter_cons_of_neg (by simpa using same), List.filter_nil, List.append_nil, ih,
          if_neg same]

namespace States

/-- States that some clauses have left the names in. -/
def ReachedBy (states : States) (clauses : List (Clause String)) : Prop :=
  ∀ identifier, states.get identifier = ofClauses clauses identifier

theorem reachedBy_nil : ReachedBy [] [] := fun _ => rfl

theorem ReachedBy.afterClause {states : States} {clauses : List (Clause String)}
    (reached : states.ReachedBy clauses) (clause : Clause String) :
    (states.afterClause clause).ReachedBy (clauses ++ [clause]) := by
  intro identifier
  rw [ofClauses_concat, ← reached identifier, States.afterClause, get, List.lookup_cons]
  by_cases same : clause.identifier = identifier
  · simp [same]
  · have different : (identifier == clause.identifier) = false := beq_false_of_ne (Ne.symm same)
    simp [same, different, get]

end States

end Borrow

/-- A conflict with the place of its clause counted among the clauses that capture a name. -/
def AliasConflict.rankedIn (clauses : List (Clause String)) (identifier : String)
    (conflict : AliasConflict) : AliasConflict :=
  { conflict with
    index := ((clauses.take conflict.index).filter (·.identifier = identifier)).length }

namespace CaptureList

/-- The conflicts of a clause and of those behind it. -/
theorem mem_conflictsFrom_cons {states : Borrow.States} {index : Nat} {rest : List (Clause String)}
    {clause : Clause String} {conflict : AliasConflict} :
    conflict ∈ conflictsFrom states index (clause :: rest) ↔
      (conflict = ⟨clause, index, states.get clause.identifier⟩ ∧
        conflict.previous.conflictsWith conflict.clause.mode = true) ∨
      conflict ∈ conflictsFrom (states.afterClause clause) (index + 1) rest := by
  rw [conflictsFrom]
  split
  · next conflicting =>
      rw [List.mem_cons]
      apply or_congr_left
      constructor
      · rintro rfl
        exact ⟨rfl, conflicting⟩
      · exact And.left
  · next agreeing =>
      constructor
      · exact .inr
      · rintro (⟨rfl, conflicting⟩ | later)
        · exact absurd conflicting agreeing
        · exact later

theorem mem_conflictsFrom_iff {states : Borrow.States} {seen rest : List (Clause String)}
    (reached : states.ReachedBy seen) {conflict : AliasConflict} :
    conflict ∈ conflictsFrom states seen.length rest ↔
      ∃ before later, rest = before ++ conflict.clause :: later ∧
        conflict.index = (seen ++ before).length ∧
        conflict.previous = Borrow.ofClauses (seen ++ before) conflict.identifier ∧
        conflict.previous.conflictsWith conflict.clause.mode = true := by
  induction rest generalizing states seen with
  | nil => simp [conflictsFrom]
  | cons clause rest ih =>
      have behind := ih (reached.afterClause clause)
      rw [List.length_append, List.length_singleton] at behind
      rw [mem_conflictsFrom_cons, behind, reached clause.identifier]
      constructor
      · rintro (⟨rfl, conflicting⟩ | ⟨before, later, rfl, index, previous, conflicting⟩)
        · exact ⟨[], rest, rfl, by simp, by simp [AliasConflict.identifier], conflicting⟩
        · rw [← List.append_cons] at index previous
          exact ⟨clause :: before, later, rfl, index, previous, conflicting⟩
      · rintro ⟨before, later, split, index, previous, conflicting⟩
        cases before with
        | nil =>
            obtain ⟨rfl, rfl⟩ := List.cons.inj split
            rw [List.append_nil] at index previous
            refine .inl ⟨?_, conflicting⟩
            rw [← index]
            exact congrArg (AliasConflict.mk _ _) previous
        | cons first before =>
            obtain ⟨rfl, rfl⟩ := List.cons.inj split
            rw [List.append_cons] at index previous
            exact .inr ⟨before, later, rfl, index, previous, conflicting⟩

theorem le_index_of_mem_conflictsFrom {states : Borrow.States} {index : Nat}
    {clauses : List (Clause String)} {conflict : AliasConflict}
    (member : conflict ∈ conflictsFrom states index clauses) : index ≤ conflict.index := by
  induction clauses generalizing states index with
  | nil => exact absurd member List.not_mem_nil
  | cons clause rest ih =>
      rcases mem_conflictsFrom_cons.1 member with ⟨rfl, -⟩ | later
      · exact Nat.le_refl _
      · exact Nat.le_of_succ_le (ih later)

theorem pairwise_conflictsFrom (states : Borrow.States) (index : Nat)
    (clauses : List (Clause String)) :
    (conflictsFrom states index clauses).Pairwise (·.index < ·.index) := by
  induction clauses generalizing states index with
  | nil => exact .nil
  | cons clause rest ih =>
      rw [conflictsFrom]
      split
      · exact .cons (fun _ later => le_index_of_mem_conflictsFrom later) (ih _ _)
      · exact ih _ _

/-- The conflicts on a name, their places counted among the clauses that capture it, are the
conflicts of these clauses. -/
theorem rankedIn_conflictsFrom (identifier : String) {states own : Borrow.States}
    {seen rest : List (Clause String)} (reached : states.ReachedBy seen)
    (ownReached : own.ReachedBy (seen.filter (·.identifier = identifier))) :
    ((conflictsFrom states seen.length rest).filter (·.identifier = identifier)).map
        (·.rankedIn (seen ++ rest) identifier) =
      conflictsFrom own (seen.filter (·.identifier = identifier)).length
        (rest.filter (·.identifier = identifier)) := by
  induction rest generalizing states own seen with
  | nil => rfl
  | cons clause rest ih =>
      by_cases same : clause.identifier = identifier
      · have kept : (seen ++ [clause]).filter (·.identifier = identifier) =
            seen.filter (·.identifier = identifier) ++ [clause] := by simp [same]
        have later := ih (reached.afterClause clause) (kept ▸ ownReached.afterClause clause)
        have state : own.get clause.identifier = states.get clause.identifier := by
          rw [ownReached, reached, same, Borrow.ofClauses_filter]
        have ranked : AliasConflict.rankedIn (seen ++ clause :: rest) identifier
            ⟨clause, seen.length, states.get clause.identifier⟩ =
              ⟨clause, (seen.filter (·.identifier = identifier)).length,
                states.get clause.identifier⟩ := by
          rw [AliasConflict.rankedIn, List.take_left]
        rw [kept, ← List.append_cons, List.length_append, List.length_append,
          List.length_singleton] at later
        rw [List.filter_cons_of_pos (by simpa using same), conflictsFrom, conflictsFrom, state,
          ← later, ← ranked]
        split
        · rw [List.filter_cons_of_pos (by simp [AliasConflict.identifier, same]), List.map_cons]
        · rfl
      · have dropped : (seen ++ [clause]).filter (·.identifier = identifier) =
            seen.filter (·.identifier = identifier) := by simp [same]
        have later := ih (reached.afterClause clause) (dropped.symm ▸ ownReached)
        rw [dropped, ← List.append_cons, List.length_append, List.length_singleton] at later
        rw [List.filter_cons_of_neg (by simpa using same), conflictsFrom, ← later]
        split
        · rw [List.filter_cons_of_neg (by simp [AliasConflict.identifier, same])]
        · rfl

/-- A clause and what its name is bound to form a conflict of a list when the clause aliases the
last clause before it that captures the name otherwise than by a move. -/
def HasConflict (list : CaptureList String) (conflict : AliasConflict) : Prop :=
  ∃ before later, list.clauses = before ++ conflict.clause :: later ∧
    conflict.index = before.length ∧
    ∃ earlier : Clause String, earlier.LastBinds before conflict.identifier ∧
      earlier.mode.Aliases conflict.clause.mode conflict.previous

theorem mem_conflicts_iff {list : CaptureList String} {conflict : AliasConflict} :
    conflict ∈ list.conflicts ↔ list.HasConflict conflict := by
  refine (mem_conflictsFrom_iff Borrow.States.reachedBy_nil).trans ?_
  constructor
  · rintro ⟨before, later, split, index, conflicting⟩
    exact ⟨before, later, split, index, Borrow.conflictsWith_iff.1 conflicting⟩
  · rintro ⟨before, later, split, index, aliasing⟩
    exact ⟨before, later, split, index, Borrow.conflictsWith_iff.2 aliasing⟩

/-- A conflict names a clause by its index. -/
theorem getElem?_of_mem_conflicts {list : CaptureList String} {conflict : AliasConflict}
    (member : conflict ∈ list.conflicts) :
    list.clauses[conflict.index]? = some conflict.clause := by
  obtain ⟨before, later, split, index, -⟩ := mem_conflicts_iff.1 member
  rw [split, index, List.getElem?_append_right (Nat.le_refl _), Nat.sub_self,
    List.getElem?_cons_zero]

/-- The conflicts of a list come in increasing order, each once.  They are the references that alias
the last clause before them on the same name that is no move, whether or not that clause is a
conflict itself.  The conflicts on one name depend on the clauses that capture it alone. -/
theorem conflicts_by_last_binding (list : CaptureList String) :
    list.conflicts.Pairwise (·.index < ·.index) ∧
    (∀ conflict, conflict ∈ list.conflicts ↔ list.HasConflict conflict) ∧
    ∀ identifier, (list.conflicts.filter (·.identifier = identifier)).map
        (·.rankedIn list.clauses identifier) =
      conflicts { list with clauses := list.clausesFor identifier } := by
  refine ⟨pairwise_conflictsFrom [] 0 list.clauses, fun _ => mem_conflicts_iff, ?_⟩
  intro identifier
  exact rankedIn_conflictsFrom identifier Borrow.States.reachedBy_nil Borrow.States.reachedBy_nil

end CaptureList

end ClosureCapture
