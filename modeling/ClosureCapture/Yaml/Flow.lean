import ClosureCapture.Yaml.Node
import ClosureCapture.Yaml.Plain

/-!
# Scalars and collections in brackets

A sequence stands between square brackets and a mapping between curly ones; commas separate
their members, and a comma may follow the last. A member is a node, or a key with a value. A key
is announced by a question mark, or is a node on one line, not too long, with a colon after it.
A single pair may be a member of a sequence.
-/

namespace ClosureCapture.Yaml

/-- The greatest distance between the start of an unannounced key and its colon. -/
def keyLimit : Nat :=
  1024

/-- Whether what stands between two places may be an unannounced key. -/
def isKeySpan (start colon : Cursor) : Bool :=
  let span := start.textTo colon
  !span.any isBreak && span.length ≤ keyLimit

/-- Whether a collection in brackets goes on with a comma or ends here. -/
def endsMember : List Char → Bool
  | first :: _ => first == ',' || first == ']' || first == '\x7d'
  | [] => false

mutual
/-- The scalar, collection or reference at a place, with the properties before it. Only with
properties may it be missing. -/
def readContent (inFlow : Bool) (floor : Nat) (properties : Properties) :
    (fuel : Nat) → Cursor → Except Fault (Node × Cursor)
  | 0, _ => .error .malformed
  | fuel + 1, cursor =>
      match cursor.rest with
      | '*' :: rest => do
          let (name, after) ← readAnchor rest
          let node ← (Node.reference name).addProperties properties
          return (node, cursor.advance after)
      | '\'' :: rest => do
          let (text, after) ← readQuoted false rest
          return (.scalar properties false text, cursor.advance after)
      | '"' :: rest => do
          let (text, after) ← readQuoted true rest
          return (.scalar properties false text, cursor.advance after)
      | '[' :: rest => do
          let (items, after) ← readItems fuel (cursor.advance rest)
          return (.sequence properties items, after)
      | '\x7b' :: rest => do
          let (entries, after) ← readEntries fuel (cursor.advance rest)
          return (.mapping properties entries, after)
      | text =>
          if startsPlain inFlow text then
            let (content, after) := readPlain inFlow floor text
            .ok (.scalar properties true content, cursor.advance after)
          else if properties.isEmpty then .error .malformed
          else .ok (.empty properties, cursor)

/-- The node at a place inside brackets. -/
def readFlowNode : (fuel : Nat) → Cursor → Except Fault (Node × Cursor)
  | 0, _ => .error .malformed
  | fuel + 1, cursor => do
      let (properties, after) ← readProperties true cursor
      readContent true 0 properties fuel (if properties.isEmpty then after else after.next)

/-- The value after a colon inside brackets, which may be missing. -/
def readFlowValue : (fuel : Nat) → Cursor → Except Fault (Node × Cursor)
  | 0, _ => .error .malformed
  | fuel + 1, cursor =>
      if endsMember cursor.next.rest then .ok (.empty {}, cursor)
      else readFlowNode fuel cursor.next

/-- The member at a place inside brackets: a node, and its value if it is a key. -/
def readMember : (fuel : Nat) → Cursor → Except Fault (Node × Option Node × Cursor)
  | 0, _ => .error .malformed
  | fuel + 1, cursor =>
      match cursor.rest with
      | '?' :: rest => do
          let start := (cursor.advance rest).next
          let (key, after) ←
            if start.rest.head? = some ':' then .ok (.empty {}, start)
            else readFlowValue fuel (cursor.advance rest)
          match after.next.rest with
          | ':' :: rest =>
              let (value, last) ← readFlowValue fuel (after.next.advance rest)
              return (key, some value, last)
          | _ => return (key, some (.empty {}), after)
      | _ => do
          let (node, after) ← readFlowNode fuel cursor
          match after.next.rest with
          | ':' :: rest =>
              if isKeySpan cursor after.next then
                let (value, last) ← readFlowValue fuel (after.next.advance rest)
                return (node, some value, last)
              else .error .malformed
          | _ => return (node, none, after)

/-- The items of a sequence after its bracket or a comma, and the place after it. -/
def readItems : (fuel : Nat) → Cursor → Except Fault (List Node × Cursor)
  | 0, _ => .error .malformed
  | fuel + 1, cursor =>
      match cursor.next.rest with
      | ']' :: rest => .ok ([], cursor.next.advance rest)
      | _ => do
          let (node, value, after) ← readMember fuel cursor.next
          let item := match value with
            | some value => .mapping {} [(node, value)]
            | none => node
          match after.next.rest with
          | ',' :: rest =>
              let (items, last) ← readItems fuel (after.next.advance rest)
              return (item :: items, last)
          | ']' :: rest => return ([item], after.next.advance rest)
          | _ => .error .malformed

/-- The entries of a mapping after its bracket or a comma, and the place after it. -/
def readEntries : (fuel : Nat) → Cursor → Except Fault (List (Node × Node) × Cursor)
  | 0, _ => .error .malformed
  | fuel + 1, cursor =>
      match cursor.next.rest with
      | '\x7d' :: rest => .ok ([], cursor.next.advance rest)
      | _ => do
          let (key, value, after) ← readMember fuel cursor.next
          let entry := (key, value.getD (.empty {}))
          match after.next.rest with
          | ',' :: rest =>
              let (entries, last) ← readEntries fuel (after.next.advance rest)
              return (entry :: entries, last)
          | '\x7d' :: rest => return ([entry], after.next.advance rest)
          | _ => .error .malformed
end

end ClosureCapture.Yaml
