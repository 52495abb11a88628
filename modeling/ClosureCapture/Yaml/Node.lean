import ClosureCapture.Yaml.Property

/-!
# Nodes

A document is a tree of nodes: scalars, sequences and mappings, each with its properties, and
references to nodes that were anchored before. Every reference can be replaced by the node it
stands for.
-/

namespace ClosureCapture.Yaml

/-- A node of a document. -/
inductive Node where
  /-- A scalar; whether it is written without quotes decides how it is read. -/
  | scalar (properties : Properties) (plain : Bool) (text : List Char)
  | sequence (properties : Properties) (items : List Node)
  | mapping (properties : Properties) (entries : List (Node × Node))
  /-- The node with the given anchor, again. -/
  | reference (anchor : String)
  deriving Repr

namespace Node

/-- A scalar that is not written at all. -/
def empty (properties : Properties) : Node :=
  .scalar properties true []

/-- The node with further properties, which a reference cannot take. -/
def addProperties (more : Properties) : Node → Except Fault Node
  | .scalar properties plain text => do return .scalar (← more.merge properties) plain text
  | .sequence properties items => do return .sequence (← more.merge properties) items
  | .mapping properties entries => do return .mapping (← more.merge properties) entries
  | .reference anchor =>
      if more.isEmpty then .ok (.reference anchor) else .error .malformed

end Node

/-- The anchored nodes met so far. -/
abbrev Anchors := List (String × Node)

/-- Remember a node under its anchor, which must be new. -/
def Anchors.add (anchors : Anchors) (properties : Properties) (node : Node) :
    Except Fault Anchors :=
  match properties.anchor with
  | none => .ok anchors
  | some anchor =>
      if anchors.any (·.1 == anchor) then .error .malformed
      else .ok ((anchor, node) :: anchors)

mutual
/-- A node with its references replaced and its handles checked, and the anchored nodes met up to
its end. -/
def Node.resolve (handles : Handles) (anchors : Anchors) : Node → Except Fault (Node × Anchors)
  | .scalar properties plain text => do
      properties.checkHandle handles
      let node := .scalar properties plain text
      return (node, ← anchors.add properties node)
  | .sequence properties items => do
      properties.checkHandle handles
      let (items, anchors) ← resolveItems handles anchors items
      let node := .sequence properties items
      return (node, ← anchors.add properties node)
  | .mapping properties entries => do
      properties.checkHandle handles
      let (entries, anchors) ← resolveEntries handles anchors entries
      let node := .mapping properties entries
      return (node, ← anchors.add properties node)
  | .reference anchor =>
      match anchors.lookup anchor with
      | some node => .ok (node, anchors)
      | none => .error .malformed

/-- Items with their references replaced, from the first to the last. -/
def resolveItems (handles : Handles) (anchors : Anchors) :
    List Node → Except Fault (List Node × Anchors)
  | [] => .ok ([], anchors)
  | item :: items => do
      let (item, anchors) ← item.resolve handles anchors
      let (items, anchors) ← resolveItems handles anchors items
      return (item :: items, anchors)

/-- Entries with their references replaced, each key before its value. -/
def resolveEntries (handles : Handles) (anchors : Anchors) :
    List (Node × Node) → Except Fault (List (Node × Node) × Anchors)
  | [] => .ok ([], anchors)
  | (key, value) :: entries => do
      let (key, anchors) ← key.resolve handles anchors
      let (value, anchors) ← value.resolve handles anchors
      let (entries, anchors) ← resolveEntries handles anchors entries
      return ((key, value) :: entries, anchors)
end

end ClosureCapture.Yaml
