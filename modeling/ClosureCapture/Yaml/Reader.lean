import ClosureCapture.Yaml.Document
import ClosureCapture.Yaml.Kind

/-!
# Reading YAML

The value of a document is built from its tree of nodes: tags and spellings decide what the
nodes stand for, keys are scalars, and the entries of mappings named by a merge key stand before
the mapping's own, which win over them. The contents of a collection are looked at only after all
that stands beside it.
-/

namespace ClosureCapture.Yaml

/-- What a node stands for. -/
inductive Form where
  | scalar (kind : Kind)
  | list
  | map
  /-- The keys of a mapping. -/
  | set
  /-- A list of pairs, each written as a mapping with one entry. -/
  | pairs
  deriving DecidableEq, Repr

/-- The form with a tag's name. -/
def Form.ofTag? (name : String) : Option Form :=
  if name = "tag:yaml.org,2002:seq" then some .list
  else if name = "tag:yaml.org,2002:map" then some .map
  else if name = "tag:yaml.org,2002:set" then some .set
  else if name = "tag:yaml.org,2002:omap" ∨ name = "tag:yaml.org,2002:pairs" then some .pairs
  else (Kind.ofTag? name).map .scalar

/-- The form given by a tag, or else the node's own. -/
def taggedForm (handles : Handles) (properties : Properties) (own : Form) : Except Fault Form :=
  match properties.tag with
  | none => .ok own
  | some tag => do
      let name ← tag.name handles
      if name = "!" then return own
      else
        match Form.ofTag? name with
        | some form => return form
        | none => .error .malformed

/-- What a node stands for by its tag, or else by what it is. A scalar goes by its spelling if it
is not quoted, or if its tag leaves open what it is. -/
def Node.form (handles : Handles) : Node → Except Fault Form
  | .scalar properties plain text =>
      taggedForm handles properties
        (.scalar (if plain || properties.tag.isSome then kindOf text else .string))
  | .sequence properties _ => taggedForm handles properties .list
  | .mapping properties _ => taggedForm handles properties .map
  | .reference _ => .error .malformed

mutual
/-- The text of a node that is tagged as a scalar: its own, or that of its default value. -/
def Node.scalarText (handles : Handles) : Node → Except Fault (List Char)
  | .scalar _ _ text => .ok text
  | .mapping _ entries => defaultText handles entries
  | _ => .error .malformed

/-- The text of the default value among some entries. -/
def defaultText (handles : Handles) : List (Node × Node) → Except Fault (List Char)
  | [] => .error .malformed
  | (key, value) :: entries =>
      match key.form handles with
      | .ok (.scalar .defaultKey) => value.scalarText handles
      | _ => defaultText handles entries
end

/-- The scalar of a kind that a node stands for. -/
def Node.readAs (handles : Handles) (kind : Kind) (node : Node) : Except Fault Scalar := do
  let text ← node.scalarText handles
  match kind, node with
  | .moment, .mapping _ _ => .error .notScalar
  | _, _ => kind.read text

/-- The key that a node of a form is: a scalar, the default key being an ordinary text. -/
def Node.key (handles : Handles) (form : Form) (node : Node) : Except Fault Scalar :=
  match form with
  | .scalar .defaultKey => node.readAs handles .string
  | .scalar kind => node.readAs handles kind
  | _ => .error .malformed

/-- A fault, and how many collections below the node in question it lies. -/
structure Defect where
  depth : Nat
  fault : Fault
  deriving DecidableEq, Repr

/-- A result that concerns the node in question itself. -/
def Defect.here {α : Type} : Except Fault α → Except Defect α
  | .ok result => .ok result
  | .error fault => .error ⟨0, fault⟩

/-- A result that concerns the contents of the node in question. -/
def Defect.below {α : Type} : Except Defect α → Except Defect α
  | .ok result => .ok result
  | .error defect => .error ⟨defect.depth + 1, defect.fault⟩

/-- Two results found side by side. A document is valued level by level, so of two defects the
shallower one counts, and the first of two at the same depth. -/
def Defect.together {α β : Type} (first : Except Defect α) (second : Except Defect β) :
    Except Defect (α × β) :=
  match first, second with
  | .ok left, .ok right => .ok (left, right)
  | .ok _, .error defect => .error defect
  | .error defect, .ok _ => .error defect
  | .error defect, .error other => .error (if other.depth < defect.depth then other else defect)

theorem Defect.here_eq_ok_iff {α : Type} {found : Except Fault α} {result : α} :
    Defect.here found = .ok result ↔ found = .ok result := by
  cases found <;> simp [Defect.here]

/-- Two lists found side by side, one after the other. -/
def Defect.append {α : Type} (first second : Except Defect (List α)) : Except Defect (List α) :=
  (Defect.together first second).map fun (left, right) => left ++ right

/-- An element in front of a list found beside it. -/
def Defect.cons {α : Type} (first : Except Defect α) (second : Except Defect (List α)) :
    Except Defect (List α) :=
  (Defect.together first second).map fun (left, right) => left :: right

/-- The defect of a node that is tagged as a collection of another sort. It shows only when the
contents of the node are looked at. -/
def Defect.mismatch : Defect :=
  ⟨1, .malformed⟩

mutual
/-- Whether every merge key of a mapping, and of the mappings it names, names mappings. -/
def canMerge (handles : Handles) : List (Node × Node) → Bool
  | [] => true
  | (key, value) :: entries =>
      (match key.form handles with
        | .ok (.scalar .mergeKey) => value.isMergeable handles
        | _ => true) && canMerge handles entries

/-- Whether a node can be named by a merge key: a mapping, or a sequence of mappings. -/
def Node.isMergeable (handles : Handles) : Node → Bool
  | .mapping _ entries => canMerge handles entries
  | .sequence _ items => areMergeable handles items
  | _ => false

/-- Whether all nodes are mappings that can be named by a merge key. -/
def areMergeable (handles : Handles) : List Node → Bool
  | [] => true
  | .mapping _ entries :: items => canMerge handles entries && areMergeable handles items
  | _ => false
end

mutual
/-- The value of a node. -/
def Node.value (handles : Handles) : Node → Except Defect Value
  | .scalar properties plain text => do
      let node := Node.scalar properties plain text
      match ← Defect.here (node.form handles) with
      | .scalar kind => return .scalar (← Defect.here (node.readAs handles kind))
      | _ => .error Defect.mismatch
  | .sequence properties items => do
      match ← Defect.here ((Node.sequence properties items).form handles) with
      | .scalar _ => .error ⟨0, .malformed⟩
      | .list => return .list (← Defect.below (itemValues handles items))
      | .pairs => return .list (← Defect.below (pairValues handles items))
      | _ => .error Defect.mismatch
  | .mapping properties entries => do
      let node := Node.mapping properties entries
      let (merged, own) := entryValues handles entries
      let contents : Except Defect Entries :=
        if canMerge handles entries then
          Except.map Entries.ofPairs (Defect.below (Defect.append merged own))
        else .error ⟨1, .malformed⟩
      match ← Defect.here (node.form handles) with
      | .scalar kind => return .scalar (← Defect.here (node.readAs handles kind))
      | .map => return .map (← contents)
      | .set => return .set ((← contents).map (·.1))
      | _ => .error Defect.mismatch
  | .reference _ => .error ⟨0, .malformed⟩

/-- The values of the items of a sequence. -/
def itemValues (handles : Handles) : List Node → Except Defect (List Value)
  | [] => .ok []
  | item :: items => Defect.cons (item.value handles) (itemValues handles items)

/-- The pairs of a sequence of mappings with one entry each. -/
def pairValues (handles : Handles) : List Node → Except Defect (List Value)
  | [] => .ok []
  | .mapping _ [(key, value)] :: items =>
      let pair := Except.map (fun (first, second) => Value.pair first second)
        (Defect.together (key.value handles) (value.value handles))
      Defect.cons pair (pairValues handles items)
  | _ => .error ⟨0, .malformed⟩

/-- The entries that a mapping takes over from others, and its own. -/
def entryValues (handles : Handles) :
    List (Node × Node) →
      Except Defect (List (Scalar × Value)) × Except Defect (List (Scalar × Value))
  | [] => (.ok [], .ok [])
  | (key, value) :: entries =>
      let (merged, own) := entryValues handles entries
      match key.form handles with
      | .ok (.scalar .mergeKey) => (Defect.append (takenEntries handles value) merged, own)
      | .ok form =>
          let entry := Defect.together (Defect.here (key.key handles form)) (value.value handles)
          (merged, Defect.cons entry own)
      | .error fault => (merged, .error ⟨0, fault⟩)

/-- The entries taken over from the value of a merge key: a mapping, or a sequence of mappings
of which the first wins. -/
def takenEntries (handles : Handles) : Node → Except Defect (List (Scalar × Value))
  | .mapping _ entries =>
      let (merged, own) := entryValues handles entries
      Defect.append merged own
  | .sequence _ items => takenItems handles items
  | _ => .error ⟨0, .malformed⟩

/-- The entries taken over from several mappings, those of the last first. -/
def takenItems (handles : Handles) : List Node → Except Defect (List (Scalar × Value))
  | [] => .ok []
  | .mapping _ entries :: items =>
      let (merged, own) := entryValues handles entries
      Defect.append (takenItems handles items) (Defect.append merged own)
  | _ => .error ⟨0, .malformed⟩
end

/-- A text without a byte order mark at its start. -/
def dropOrderMark : List Char → List Char
  | '\ufeff' :: rest => rest
  | text => text

/-- The value of the document in a text; null when there is none. -/
def read (text : List Char) : Except Fault Value := do
  if text.all isReadable then
    match ← readDocument (dropOrderMark (unifyBreaks text)) with
    | none => return .null
    | some (handles, root) =>
        let (node, _) ← root.resolve handles []
        (node.value handles).mapError Defect.fault
  else .error .malformed

end ClosureCapture.Yaml
