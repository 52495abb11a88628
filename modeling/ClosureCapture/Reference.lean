import ClosureCapture.Value.Text

/-!
# References

A store holds cells with an identity of their own: data, lists, shared references and exclusive
references, each of which refers to another cell. A shared reference refers for ever to the cell
it was made for. An exclusive reference can be pointed at another cell, which changes nothing but
that reference. Lists grow in place, by new data or by cells that are there already, and
everything that refers to a list sees the change. Variables name cells. A step that fails changes
nothing.

Lists and maps are cells of their own whenever they are made. Anything else can turn out to be a
cell that holds it already, and null and the truth values always do.
-/

namespace ClosureCapture

/-- An item of a list: data that nothing else can name, or a cell. -/
inductive Item where
  | value (value : Value)
  | cell (index : Nat)

/-- What a cell holds. -/
inductive Cell where
  | data (value : Value)
  | list (items : List Item)
  | shared (target : Nat)
  | exclusive (target : Nat)

namespace Value

/-- Whether there is only one such value. -/
def isSingle : Value → Bool
  | .scalar .null => true
  | .scalar (.bool _) => true
  | _ => false

/-- Whether two values are one and the same, neither of them being a list or a map. -/
def isSameAtom : Value → Value → Bool
  | .scalar first, .scalar second => first == second
  | .other first, .other second => first == second
  | _, _ => false

end Value

namespace Cell

/-- A cell for a value. -/
def ofValue : Value → Cell
  | .list items => .list (items.map .value)
  | value => .data value

/-- Whether a cell holds a value that is no list and no map. -/
def holds (value : Value) : Cell → Bool
  | .data held => held.isSameAtom value
  | _ => false

end Cell

/-- Cells by their number, and the variables that name them. -/
structure Store where
  cells : List Cell
  names : List (String × Nat)

/-- What the interpreter decides: which data is equal, if it can be told, which data has a hash,
and the hashes of shared references by what they refer to. -/
structure Interpreter where
  equal : Store → Nat → Nat → Option Bool
  hash : Store → Nat → Option Int
  hashTarget : Nat → Int

/-- Where an item comes from. -/
inductive Store.Source where
  | literal (value : Value)
  | named (name : String)

/-- What can be done with a store. A value that is created can be known already as the cell with
the given number. -/
inductive Store.Step where
  | create (name : String) (value : Value) (known : Option Nat)
  | share (name source : String)
  | borrow (name source : String)
  | inspect (reference : String)
  | assign (reference property source : String)
  | replace (reference source : String)
  | append (reference : String) (item : Source)
  | compare (first second : String)
  | compareHashes (first second : String)
  | display (reference : String)

/-- Why a step fails. -/
inductive Store.Fault where
  | unknownVariable (name : String)
  | missingProperty
  | readOnly
  /-- The class of something is assigned. -/
  | notAClass
  /-- Data has a method of the same name. -/
  | otherMethod
  | unhashable
  /-- The comparison finds no end. -/
  | endless
  deriving DecidableEq, Repr

/-- What a step answers. Nothing is shown for what has no end and for numbers that are too
long. -/
inductive Store.Answer where
  | done
  | text (text : Option String)
  /-- A cell by its text and all variables that name it, in order. -/
  | cell (text : Option String) (names : List String)
  /-- The texts of all variables. -/
  | texts (texts : List (String × Option String))
  /-- Whether two cells are equal. -/
  | equal (equal : Bool)
  /-- Whether two cells have the same hash. -/
  | sameHash (same : Bool)

namespace Store

/-- A store without cells. -/
def empty : Store :=
  ⟨[], []⟩

/-- The cell named by a variable. -/
def find (store : Store) (name : String) : Except Fault Nat :=
  match store.names.lookup name with
  | some index => .ok index
  | none => .error (.unknownVariable name)

/-- Let a variable name a cell. -/
def bind (store : Store) (name : String) (index : Nat) : Store :=
  if store.names.any (·.1 == name) then
    { store with
      names := store.names.map fun (other, old) =>
        if other = name then (other, index) else (other, old) }
  else { store with names := store.names ++ [(name, index)] }

/-- Add a cell and let a variable name it. -/
def add (store : Store) (name : String) (cell : Cell) : Store :=
  (⟨store.cells ++ [cell], store.names⟩ : Store).bind name store.cells.length

/-- Put another content into a cell. -/
def put (store : Store) (index : Nat) (cell : Cell) : Store :=
  { store with cells := store.cells.set index cell }

/-- The cell that a value is already, if it is known. -/
def atom? (store : Store) (value : Value) (known : Option Nat) : Option Nat :=
  if value.isSingle then store.cells.findIdx? (·.holds value)
  else known.filter fun index => store.cells[index]?.any (·.holds value)

/-- Let a variable name a cell that holds a value. -/
def create (store : Store) (name : String) (value : Value) (known : Option Nat) : Store :=
  match store.atom? value known with
  | some index => store.bind name index
  | none => store.add name (.ofValue value)

/-- The text of a value, if it is not too long. -/
def valueText (value : Value) : Option String :=
  if value.isShowable then some value.literal else none

/-- A list in literal form. -/
def listText (items : List String) : String :=
  "[" ++ ", ".intercalate items ++ "]"

/-- The text of an item, the texts of cells being given. -/
def itemText (cellText : Nat → Option String) : Item → Option String
  | .value value => valueText value
  | .cell index => cellText index

/-- The text of a cell, inside of lists that are being shown. A list inside of itself is left out.
The depth is how often a cell leads to another one. -/
def cellText (store : Store) : (depth : Nat) → (shown : List Nat) → (index : Nat) → Option String
  | 0, _, _ => none
  | depth + 1, shown, index =>
      match store.cells[index]? with
      | some (.data value) => valueText value
      | some (.list items) =>
          if shown.contains index then some "[...]"
          else
            (items.mapM (itemText (store.cellText depth (index :: shown)))).map listText
      | some (.shared target) =>
          (store.cellText depth shown target).map fun text => "SharedRef(" ++ text ++ ")"
      | some (.exclusive target) =>
          (store.cellText depth shown target).map fun text => "MutRef(" ++ text ++ ")"
      | none => none

/-- How often a cell can lead to another one in a text with an end: every list is shown once, and
every reference at most once between two lists. -/
def depth (store : Store) : Nat :=
  store.cells.length * (store.cells.length + 2)

/-- The text of a cell. -/
def text (store : Store) (index : Nat) : Option String :=
  store.cellText (store.depth + 1) [] index

/-- The cell that a reference refers to. -/
def target (store : Store) (index : Nat) : Except Fault Nat :=
  match store.cells[index]? with
  | some (.shared target) => .ok target
  | some (.exclusive target) => .ok target
  | _ => .error .missingProperty

/-- The variables that name a cell, in order. -/
def namesOf (store : Store) (index : Nat) : List String :=
  ((store.names.filter (·.2 == index)).map (·.1)).mergeSort

/-- The answer about a cell. -/
def describe (store : Store) (index : Nat) : Answer :=
  .cell (store.text index) (store.namesOf index)

/-- Point an exclusive reference at another cell. -/
def point (store : Store) (index target : Nat) : Except Fault Store :=
  match store.cells[index]? with
  | some (.exclusive _) => .ok (store.put index (.exclusive target))
  | _ => .error .missingProperty

/-- Assign a property of a cell. Only the value of an exclusive reference can be assigned. -/
def assignProperty (store : Store) (index : Nat) (property : String) (target : Nat) :
    Except Fault Store :=
  match store.cells[index]? with
  | some (.shared _) => .error .readOnly
  | _ =>
      if property = "value" ∨ property = "_value" then store.point index target
      else if property = "__class__" then .error .notAClass
      else .error .missingProperty

/-- The cell that can be replaced in a cell: only an exclusive reference gives up its target. -/
def replaceable (store : Store) (index : Nat) : Except Fault Nat :=
  match store.cells[index]? with
  | some (.exclusive target) => .ok target
  | some (.data (.scalar (.string _))) | some (.data (.scalar (.bytes _)))
  | some (.data (.scalar (.date _))) | some (.data (.scalar (.moment _))) =>
      .error .otherMethod
  | _ => .error .missingProperty

/-- An item from where it comes from. -/
def itemOf (store : Store) : Source → Except Fault Item
  | .literal value => .ok (.value value)
  | .named name => do return .cell (← store.find name)

/-- The items of the list in a cell. -/
def itemsIn (store : Store) (index : Nat) : Except Fault (List Item) :=
  match store.cells[index]? with
  | some (.list items) => .ok items
  | _ => .error .missingProperty

/-- Whether two cells are equal: references of one kind by the cell they refer to, and data as the
interpreter decides. -/
def equalCells (interpreter : Interpreter) (store : Store) (first second : Nat) :
    Except Fault Bool :=
  match store.cells[first]?, store.cells[second]? with
  | some (.shared one), some (.shared other) => .ok (one == other)
  | some (.exclusive one), some (.exclusive other) => .ok (one == other)
  | some (.shared _), _ | some (.exclusive _), _ => .ok false
  | _, some (.shared _) | _, some (.exclusive _) => .ok false
  | _, _ =>
      match interpreter.equal store first second with
      | some equal => .ok equal
      | none => .error .endless

/-- The hash of a cell: that of a shared reference depends on the cell it refers to, exclusive
references and lists have none, and that of other data is as the interpreter decides. -/
def hashOf (interpreter : Interpreter) (store : Store) (index : Nat) : Except Fault Int :=
  match store.cells[index]? with
  | some (.shared target) => .ok (interpreter.hashTarget target)
  | some (.data _) =>
      match interpreter.hash store index with
      | some hash => .ok hash
      | none => .error .unhashable
  | _ => .error .unhashable

/-- Carry out a step. -/
def step (interpreter : Interpreter) (store : Store) : Step → Except Fault (Answer × Store)
  | .create name value known => .ok (.done, store.create name value known)
  | .share name source => do
      let changed := store.add name (.shared (← store.find source))
      return (.text (changed.text store.cells.length), changed)
  | .borrow name source => do
      let changed := store.add name (.exclusive (← store.find source))
      return (.text (changed.text store.cells.length), changed)
  | .inspect reference => do
      return (store.describe (← store.target (← store.find reference)), store)
  | .assign reference property source => do
      let index ← store.find reference
      let changed ← store.assignProperty index property (← store.find source)
      return (.text (changed.text index), changed)
  | .replace reference source => do
      let index ← store.find reference
      let old ← store.replaceable index
      let changed ← store.point index (← store.find source)
      return (changed.describe old, changed)
  | .append reference item => do
      let index ← store.target (← store.find reference)
      let items ← store.itemsIn index
      let changed := store.put index (.list (items ++ [← store.itemOf item]))
      return (.texts (changed.names.map fun (name, index) => (name, changed.text index)),
        changed)
  | .compare first second => do
      return (.equal (← store.equalCells interpreter (← store.find first) (← store.find second)),
        store)
  | .compareHashes first second => do
      let one ← store.hashOf interpreter (← store.find first)
      return (.sameHash (one == (← store.hashOf interpreter (← store.find second))), store)
  | .display reference => do return (.text (store.text (← store.find reference)), store)

/-- The store after a step; a step that fails leaves it as it is. -/
def after (interpreter : Interpreter) (store : Store) (step : Step) : Store :=
  match store.step interpreter step with
  | .ok (_, changed) => changed
  | .error _ => store

/-- The outcomes of steps one after another. -/
def run (interpreter : Interpreter) (store : Store) : List Step → List (Except Fault Answer)
  | [] => []
  | step :: rest =>
      (store.step interpreter step).map (·.1) :: run interpreter (store.after interpreter step) rest

end Store

/-! ### The standard interpreter -/

mutual
/-- How deep lists are nested in a value. -/
def Value.height : Value → Nat
  | .list items => greatestHeight items + 1
  | _ => 0

/-- The greatest height of some values. -/
def greatestHeight : List Value → Nat
  | [] => 0
  | item :: rest => max item.height (greatestHeight rest)
end

namespace Item

/-- What an item holds. -/
def content? (store : Store) : Item → Option Cell
  | .value held => some (.ofValue held)
  | .cell index => store.cells[index]?

/-- Whether two items are the same cell. -/
def isSameCell : Item → Item → Bool
  | .cell first, .cell second => first == second
  | _, _ => false

/-- How deep lists are nested in an item by itself. -/
def height : Item → Nat
  | .value held => held.height
  | .cell _ => 0

end Item

namespace Store

/-- Whether the items of all pairs are equal, up to the first that are not. The same cell is equal
to itself. -/
def equalPairs (equal : Item → Item → Option Bool) : List (Item × Item) → Option Bool
  | [] => some true
  | (first, second) :: pairs =>
      match if first.isSameCell second then some true else equal first second with
      | some true => equalPairs equal pairs
      | other => other

/-- Whether what two items hold is equal. The depth is how often a list leads to another one. -/
def equalItems (store : Store) : (depth : Nat) → Item → Item → Option Bool
  | 0, _, _ => none
  | depth + 1, first, second =>
      match first.content? store, second.content? store with
      | some (.data first), some (.data second) => some (first.same second)
      | some (.list first), some (.list second) =>
          if first.length = second.length then
            equalPairs (store.equalItems depth) (first.zip second)
          else some false
      | some (.shared first), some (.shared second) => some (first == second)
      | some (.exclusive first), some (.exclusive second) => some (first == second)
      | _, _ => some false

/-- The greatest height of the items in a store. -/
def height (store : Store) : Nat :=
  (store.cells.map fun
    | .list items => (items.map Item.height).foldl max 0
    | _ => 0).foldl max 0

/-- A depth that is enough for every comparison with an end: every two cells are compared at most
once, and then a cell with data as often as that is nested. -/
def equalDepth (store : Store) : Nat :=
  store.cells.length * store.cells.length + store.height + 2

/-- Whether what is not a number is in a cell. -/
def isUndefined (store : Store) (index : Nat) : Bool :=
  match store.cells[index]? with
  | some (.data (.scalar (.float .nan))) => true
  | _ => false

end Store

/-- The hash of a scalar: numbers are hashed by their size, other scalars by their texts. -/
def Scalar.hashCode (scalar : Scalar) : Int :=
  match scalar.quantity? with
  | some (.finite value) =>
      -- The inverse of a power of two modulo the prime is again one.
      let inverse := Nat.pow 2 ((60 * value.den.log2) % 61)
      let magnitude : Int := (value.num.natAbs * inverse) % (Nat.pow 2 61 - 1)
      let signed := if value.num < 0 then -magnitude else magnitude
      if signed = -1 then -2 else signed
  | some (.infinite negative) => if negative then -314159 else 314159
  | _ => (hash scalar.literal).toNat

/-- The interpreter that data is compared and hashed with. What is not a number is equal to
nothing, and hashed by its identity. -/
def Interpreter.standard : Interpreter where
  equal store first second :=
    if store.isUndefined first || store.isUndefined second then some false
    else store.equalItems store.equalDepth (.cell first) (.cell second)
  hash store index :=
    match store.cells[index]? with
    | some (.data (.scalar scalar)) =>
        some (if store.isUndefined index then (index : Int) else scalar.hashCode)
    | _ => none
  hashTarget index := index

end ClosureCapture
