import ClosureCapture.Yaml.BlockScalar
import ClosureCapture.Yaml.Flow

/-!
# Collections by indentation

Outside brackets, the items of a sequence are announced by hyphens and the keys of a mapping are
followed by colons; items and keys of one collection start in one column. What belongs to an
item or a key stands deeper. Two things may stand in the column of the collection itself: a
sequence that is the value of a key, and a block scalar. A collection may only start where a
line starts, or after a hyphen, a question mark, or the colon of an announced key.
-/

namespace ClosureCapture.Yaml

/-- Whether a block scalar starts here. -/
def startsBlockScalar : List Char → Bool
  | first :: _ => first == '|' || first == '>'
  | [] => false

/-- The block scalar at a place. -/
def readBlockContent (floor : Nat) (properties : Properties) (cursor : Cursor) :
    Except Fault (Node × Cursor) := do
  let folded := cursor.rest.head? == some '>'
  let (text, below) ← readBlockScalar folded floor cursor.rest.tail
  return (.scalar properties false text, cursor.advance below)

/-- The place after the colon of the key between two places, if it is one. -/
def afterKey? (start finish : Cursor) : Option Cursor :=
  let colon := finish.skipSpaces
  if startsWithIndicator ':' colon.rest && isKeySpan start colon then
    some (colon.advance colon.rest.tail)
  else none

/-- The unannounced key at a place and the place after its colon, if there is a key. -/
def readKey? (fuel : Nat) (cursor : Cursor) : Except Fault (Option (Node × Cursor)) := do
  let (properties, after) ← readProperties false cursor
  let (key, finish) ← readContent false (cursor.column + 1) properties fuel
    (if properties.isEmpty then after else after.skipSpaces)
  return (afterKey? cursor finish).map fun start => (key, start)

mutual
/-- The node after an indicator or after properties. `floor` is the first column that is deep
enough for it, `beside` tells whether a sequence may stand one column before, `fresh` whether a
collection may start on the same line. -/
def readNode (floor : Nat) (beside fresh : Bool) (properties : Properties) :
    (fuel : Nat) → Cursor → Except Fault (Node × Cursor)
  | 0, _ => .error .malformed
  | fuel + 1, cursor =>
      match cursor.skip with
      | (newLine, start) =>
          if start.rest.isEmpty then .ok (.empty properties, cursor)
          else if newLine && start.column < floor then
            if start.column + 1 = floor && beside && startsWithIndicator '-' start.rest then do
              let (items, after) ← readBlockItems start.column fuel start
              return (.sequence properties items, after)
            else if start.column + 1 = floor && startsBlockScalar start.rest then
              readBlockContent floor properties start
            else .ok (.empty properties, cursor)
          else if startsWithIndicator '-' start.rest then
            if fresh || newLine then do
              let (items, after) ← readBlockItems start.column fuel start
              return (.sequence properties items, after)
            else .error .malformed
          else if startsWithIndicator '?' start.rest then
            if fresh || newLine then do
              let (entries, after) ← readBlockEntries start.column fuel start
              return (.mapping properties entries, after)
            else .error .malformed
          else if startsBlockScalar start.rest then readBlockContent floor properties start
          else do
            let (own, afterOwn) ← readProperties false start
            let content := afterOwn.skipSpaces
            if !own.isEmpty && content.endsLine then
              readNode floor beside false (← properties.merge own) fuel afterOwn
            else if !own.isEmpty && startsBlockScalar content.rest then
              readBlockContent floor (← properties.merge own) content
            else if (fresh || newLine) && (← readKey? fuel start).isSome then
              let (entries, after) ← readBlockEntries start.column fuel start
              return (.mapping properties entries, after)
            else
              let (node, after) ← readContent false floor own fuel
                (if own.isEmpty then start else content)
              return (← node.addProperties properties, after)
termination_by structural fuel => fuel

/-- The items of a sequence in a column, from the place of a hyphen on. -/
def readBlockItems (column : Nat) : (fuel : Nat) → Cursor → Except Fault (List Node × Cursor)
  | 0, _ => .error .malformed
  | fuel + 1, cursor => do
      let (item, after) ← readNode (column + 1) false true {} fuel (cursor.advance cursor.rest.tail)
      match after.skip with
      | (newLine, start) =>
          if newLine && start.column = column && startsWithIndicator '-' start.rest then
            let (items, last) ← readBlockItems column fuel start
            return (item :: items, last)
          else return ([item], after)
termination_by structural fuel => fuel

/-- The entries of a mapping in a column, from the place of a key on. -/
def readBlockEntries (column : Nat) :
    (fuel : Nat) → Cursor → Except Fault (List (Node × Node) × Cursor)
  | 0, _ => .error .malformed
  | fuel + 1, cursor => do
      let (entry, after) ← readBlockEntry column fuel cursor
      match after.skip with
      | (newLine, start) =>
          if start.rest.isEmpty || (newLine && start.column < column) then
            return ([entry], after)
          else if newLine && start.column = column then
            let (entries, last) ← readBlockEntries column fuel start
            return (entry :: entries, last)
          else .error .malformed
termination_by structural fuel => fuel

/-- The entry of a mapping at the place of its key: an announced key, whose value is announced
on a line of its own, or a key and its colon. -/
def readBlockEntry (column : Nat) :
    (fuel : Nat) → Cursor → Except Fault ((Node × Node) × Cursor)
  | 0, _ => .error .malformed
  | fuel + 1, cursor =>
      if startsWithIndicator '?' cursor.rest then do
        let (key, after) ← readNode (column + 1) true true {} fuel
          (cursor.advance cursor.rest.tail)
        match after.skip with
        | (newLine, start) =>
            if newLine && start.column = column && startsWithIndicator ':' start.rest then
              let (value, last) ← readNode (column + 1) true true {} fuel
                (start.advance start.rest.tail)
              return ((key, value), last)
            else return ((key, .empty {}), after)
      else do
        match ← readKey? fuel cursor with
        | some (key, after) =>
            let (value, last) ← readNode (column + 1) true false {} fuel after
            return ((key, value), last)
        | none => .error .malformed
termination_by structural fuel => fuel
end

/-- The steps that suffice for a text: every nested step and every further member uses up a
character, and takes at most a few calls. -/
def readingFuel (text : List Char) : Nat :=
  4 * text.length + 8

/-- The node that makes up a whole text. -/
def readWhole (cursor : Cursor) : Except Fault Node := do
  let (node, after) ← readNode 0 false false {} (readingFuel cursor.rest) cursor
  if after.next.rest.isEmpty then return node else .error .malformed

end ClosureCapture.Yaml
