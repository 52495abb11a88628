import ClosureCapture.Alias

/-!
# Reports on capture lists

A report counts the clauses of a list by mode, lists the names and methods it uses in order of
first appearance, and collects warnings without repeating any.
-/

namespace ClosureCapture

/-- The number of clauses in each mode. -/
structure ModeCounts where
  move : Nat
  ref : Nat
  refMut : Nat
  method : Nat
  deriving DecidableEq, Repr

namespace ModeCounts

/-- Count the clauses of each mode. -/
def ofClauses (clauses : List (Clause String)) : ModeCounts :=
  let count (label : String) : Nat := clauses.countP (·.mode.label == label)
  ⟨count "move", count "ref", count "ref mut", count "method"⟩

/-- The counts with the words for their modes. -/
def toList (counts : ModeCounts) : List (String × Nat) :=
  [("move", counts.move), ("ref", counts.ref), ("ref mut", counts.refMut),
    ("method", counts.method)]

/-- The number of all clauses. -/
def total (counts : ModeCounts) : Nat :=
  counts.move + counts.ref + counts.refMut + counts.method

end ModeCounts

/-- An inventory of a capture list. -/
structure Report where
  totalClauses : Nat
  modeCounts : ModeCounts
  identifiers : List String
  shadowed : List String
  methods : List String
  conflicts : List AliasConflict
  bodyLength : Nat
  warnings : List String
  deriving DecidableEq, Repr

/-- Add a warning unless it is already there. -/
def Report.warn (report : Report) (warning : String) : Report :=
  if report.warnings.contains warning then report
  else { report with warnings := report.warnings ++ [warning] }

/-- Add several warnings in order. -/
def Report.warnAll (report : Report) (warnings : List String) : Report :=
  warnings.foldl Report.warn report

namespace CaptureList

/-- The warning about a list without clauses. -/
def emptyWarnings (list : CaptureList String) : List String :=
  if list.clauses.isEmpty then ["No capture clauses: expansion is the body unchanged"] else []

/-- The warning about names that are captured more than once. -/
def shadowWarnings (shadowed : List String) : List String :=
  if shadowed.isEmpty then []
  else ["Captured more than once: " ++ ", ".intercalate shadowed]

/-- The warnings about alias conflicts. -/
def conflictWarnings (conflicts : List AliasConflict) : List String :=
  conflicts.map fun conflict => "Alias conflict: " ++ conflict.describe

/-- The inventory of a capture list. -/
def report (list : CaptureList String) : Report :=
  let identifiers := list.identifiers.eraseDups
  let shadowed := identifiers.filter fun name => 1 < (list.clausesFor name).length
  let inventory : Report :=
    { totalClauses := list.clauses.length
      modeCounts := .ofClauses list.clauses
      identifiers := identifiers
      shadowed := shadowed
      methods := (list.clauses.filterMap (·.mode.method?)).eraseDups
      conflicts := list.conflicts
      bodyLength := list.body.length
      warnings := [] }
  inventory.warnAll
    (list.emptyWarnings ++ shadowWarnings shadowed ++ conflictWarnings list.conflicts)

end CaptureList

end ClosureCapture
