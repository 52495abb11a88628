import ClosureCapture.Proofs.Result.Chaining
import ClosureCapture.Reference

/-!
# References over a run

A step of a store does one of five things: it changes nothing, lets a variable name a cell that is
there, adds a cell under a name, points an exclusive reference at another cell, or appends an item
to the list in a cell.  Hence it changes at most one cell, which is never a shared reference, and
lets at most one variable name another cell.  What references promise at any moment of a run
follows from this by induction, whatever the interpreter decides about data.
-/

namespace ClosureCapture

namespace Value

/-- Whether a value is neither a list nor a map. -/
def isAtom : Value → Bool
  | .scalar _ => true
  | .other _ => true
  | _ => false

theorem isSameAtom_iff {first second : Value} :
    first.isSameAtom second = true ↔ first = second ∧ second.isAtom = true := by
  cases first <;> cases second <;> simp [isSameAtom, isAtom]

theorem isAtom_of_isSingle {value : Value} (single : value.isSingle = true) :
    value.isAtom = true := by
  cases value <;> simp_all [isSingle, isAtom]

end Value

namespace Cell

/-- The cell that a reference refers to. -/
def target? : Cell → Option Nat
  | .shared target => some target
  | .exclusive target => some target
  | _ => none

/-- The cells that a cell leads to. -/
def mentions : Cell → List Nat
  | .data _ => []
  | .list items => items.filterMap fun
      | .value _ => none
      | .cell index => some index
  | .shared target => [target]
  | .exclusive target => [target]

theorem holds_iff {value : Value} {cell : Cell} :
    cell.holds value = true ↔ cell = .data value ∧ value.isAtom = true := by
  cases cell <;> simp [holds, Value.isSameAtom_iff]

theorem ofValue_of_isAtom {value : Value} (atom : value.isAtom = true) :
    ofValue value = .data value := by
  cases value <;> simp_all [ofValue, Value.isAtom]

theorem mentions_ofValue (value : Value) : (ofValue value).mentions = [] := by
  cases value <;> simp [ofValue, mentions, List.filterMap_map, Function.comp_def]

end Cell

namespace Store

/-- The variable that a step lets name a cell. -/
def Step.named? : Step → Option String
  | .create name _ _ => some name
  | .share name _ => some name
  | .borrow name _ => some name
  | _ => none

/-- The cell that a step may change: the reference that it points elsewhere, or the list that it
appends to. -/
def touched? (store : Store) : Step → Option Nat
  | .assign reference _ _ => (store.find reference).toOption
  | .replace reference _ => (store.find reference).toOption
  | .append reference _ => (store.find reference >>= store.target).toOption
  | _ => none

variable {interpreter : Interpreter}

/-- The store after steps one after another. -/
def afterAll (interpreter : Interpreter) (store : Store) (steps : List Step) : Store :=
  steps.foldl (after interpreter) store

/-- The steps of a run are carried out in the store that the steps before them have left. -/
theorem run_append (store : Store) (earlier later : List Step) :
    store.run interpreter (earlier ++ later) =
      store.run interpreter earlier ++
        (store.afterAll interpreter earlier).run interpreter later := by
  induction earlier generalizing store with
  | nil => rfl
  | cons step earlier ih =>
      rw [List.cons_append, run, run, ih]
      rfl

/-! ### Cells and variables after a change -/

theorem lookup_map_rename (names : List (String × Nat)) (name other : String) (index : Nat) :
    (names.map fun (given, old) => if given = name then (given, index) else (given, old)).lookup
        other =
      if other = name then (names.lookup other).map fun _ => index else names.lookup other := by
  induction names with
  | nil => simp
  | cons entry names ih =>
      obtain ⟨first, old⟩ := entry
      by_cases renamed : first = name
      · by_cases asked : other = first
        · simp [renamed, asked]
        · have apart : other ≠ name := renamed ▸ asked
          simp [renamed, apart, List.lookup_cons, beq_false_of_ne apart, ih]
      · by_cases asked : other = first
        · simp [renamed, asked]
        · simp [renamed, List.lookup_cons, beq_false_of_ne asked, ih]

@[simp] theorem cells_bind (store : Store) (name : String) (index : Nat) :
    (store.bind name index).cells = store.cells := by
  unfold bind
  split <;> rfl

/-- A variable that is bound names its new cell, and the others those they named before. -/
theorem lookup_bind (store : Store) (name : String) (index : Nat) (other : String) :
    (store.bind name index).names.lookup other =
      if other = name then some index else store.names.lookup other := by
  unfold bind
  split
  · next bound =>
      rw [lookup_map_rename]
      split
      · next same =>
          subst same
          obtain ⟨entry, member, named⟩ := List.any_eq_true.1 bound
          have found : (store.names.lookup other).isSome = true := by
            rw [List.lookup_isSome_iff]
            exact ⟨entry, member, BEq.symm named⟩
          obtain ⟨old, found⟩ := Option.isSome_iff_exists.1 found
          rw [found, Option.map_some]
      · rfl
  · next unbound =>
      rw [List.lookup_append]
      split
      · next same =>
          subst same
          have absent : store.names.lookup other = none := by
            rw [List.lookup_eq_none_iff]
            intro entry member
            have different := List.any_eq_false.1 (Bool.eq_false_iff.2 unbound) entry member
            exact bne_iff_ne.2 fun same => different (beq_iff_eq.2 same.symm)
          simp [absent]
      · next different => simp [List.lookup_cons, beq_false_of_ne different]

theorem find_bind (store : Store) (name : String) (index : Nat) (other : String) :
    (store.bind name index).find other = if other = name then .ok index else store.find other := by
  simp only [find, lookup_bind]
  by_cases same : other = name <;> simp [same]

theorem find_add (store : Store) (name : String) (cell : Cell) (other : String) :
    (store.add name cell).find other =
      if other = name then .ok store.cells.length else store.find other :=
  find_bind _ name _ other

@[simp] theorem cells_add (store : Store) (name : String) (cell : Cell) :
    (store.add name cell).cells = store.cells ++ [cell] := by
  simp [add]

theorem cells_put (store : Store) {index : Nat} {old : Cell} (cell : Cell)
    (held : store.cells[index]? = some old) (other : Nat) :
    (store.put index cell).cells[other]? =
      if other = index then some cell else store.cells[other]? := by
  obtain ⟨inside, -⟩ := List.getElem?_eq_some_iff.1 held
  rw [put, List.getElem?_set]
  by_cases same : index = other
  · simp [same, same ▸ inside]
  · simp [same, Ne.symm same]

theorem target_eq_ok_iff {store : Store} {index target : Nat} :
    store.target index = .ok target ↔
      ∃ cell, store.cells[index]? = some cell ∧ cell.target? = some target := by
  unfold Store.target
  cases store.cells[index]? with
  | none => simp
  | some cell => cases cell <;> simp [Cell.target?]

/-- A value that is known already is in the cell found for it. -/
theorem cells_of_atom? {store : Store} {value : Value} {known : Option Nat} {index : Nat}
    (found : store.atom? value known = some index) :
    store.cells[index]? = some (.data value) ∧ value.isAtom = true := by
  have held : ∃ cell, store.cells[index]? = some cell ∧ cell.holds value = true := by
    unfold atom? at found
    split at found
    · obtain ⟨inside, holds, -⟩ := List.findIdx?_eq_some_iff_getElem.1 found
      exact ⟨_, List.getElem?_eq_getElem inside, holds⟩
    · obtain ⟨-, holds⟩ := Option.filter_eq_some_iff.1 found
      simpa [Option.any_eq_true] using holds
  obtain ⟨cell, there, holds⟩ := held
  obtain ⟨rfl, atom⟩ := Cell.holds_iff.1 holds
  exact ⟨there, atom⟩

/-! ### What a step does -/

section Changes

variable {store changed : Store} {index target : Nat}

theorem point_eq_ok_iff :
    store.point index target = .ok changed ↔
      (∃ old, store.cells[index]? = some (.exclusive old)) ∧
        changed = store.put index (.exclusive target) := by
  unfold point
  cases store.cells[index]? with
  | none => simp
  | some cell => cases cell <;> simp [@eq_comm _ changed]

theorem assignProperty_eq_ok_iff {property : String} :
    store.assignProperty index property target = .ok changed ↔
      property ∈ ["value", "_value"] ∧ (∃ old, store.cells[index]? = some (.exclusive old)) ∧
        changed = store.put index (.exclusive target) := by
  unfold assignProperty
  split
  · next shared => simp [shared]
  · rw [← point_eq_ok_iff]
    by_cases assignable : property = "value" ∨ property = "_value"
    · simp [assignable]
    · by_cases isClass : property = "__class__" <;> simp [assignable, isClass]

theorem itemsIn_eq_ok_iff {items : List Item} :
    store.itemsIn index = .ok items ↔ store.cells[index]? = some (.list items) := by
  unfold itemsIn
  cases store.cells[index]? with
  | none => simp
  | some cell => cases cell <;> simp

/-- A cell that an item leads to is named by a variable. -/
theorem mentioned_of_itemOf {source : Source} {item : Item} (found : store.itemOf source = .ok item)
    {mentioned : Nat} (same : item = .cell mentioned) :
    ∃ name, store.find name = .ok mentioned := by
  cases source with
  | literal value =>
      obtain rfl := Except.ok.inj found
      exact nomatch same
  | named name =>
      obtain ⟨index, named, finished⟩ := bind_eq_ok_iff.1 found
      obtain rfl := Except.ok.inj finished
      obtain rfl := Item.cell.inj same
      exact ⟨name, named⟩

/-- What a step can make of a store. -/
inductive Moves (store : Store) (step : Step) : Store → Prop
  | rests : Moves store step store
  | binds {name : String} {index : Nat} (named : step.named? = some name)
      (inside : index < store.cells.length) : Moves store step (store.bind name index)
  | adds {name : String} {cell : Cell} (named : step.named? = some name)
      (grounded : ∀ mentioned ∈ cell.mentions, ∃ source, store.find source = .ok mentioned)
      (single : ∀ value, value.isSingle = true → cell = .data value →
        ∀ index : Nat, store.cells[index]? ≠ some (.data value)) :
      Moves store step (store.add name cell)
  | points {index old target : Nat} {source : String}
      (touched : store.touched? step = some index)
      (held : store.cells[index]? = some (.exclusive old))
      (found : store.find source = .ok target) :
      Moves store step (store.put index (.exclusive target))
  | appends {index : Nat} {items : List Item} {source : Source} {item : Item}
      (touched : store.touched? step = some index)
      (held : store.cells[index]? = some (.list items))
      (found : store.itemOf source = .ok item) :
      Moves store step (store.put index (.list (items ++ [item])))

theorem moves_create {step : Step} {name : String} (named : step.named? = some name)
    (value : Value) (known : Option Nat) : store.Moves step (store.create name value known) := by
  unfold create
  split
  · next index found =>
      exact .binds named (List.getElem?_eq_some_iff.1 (cells_of_atom? found).1).1
  · next absent =>
      refine .adds named (by simp [Cell.mentions_ofValue]) ?_
      intro other single same index held
      have atom := Value.isAtom_of_isSingle single
      obtain rfl : value = other := by
        cases value <;> simp_all [Cell.ofValue]
      rw [atom?, if_pos single, List.findIdx?_eq_none_iff] at absent
      have unheld := absent _ (List.mem_of_getElem? held)
      rw [Cell.holds_iff.2 ⟨rfl, atom⟩] at unheld
      exact Bool.noConfusion unheld

theorem moves_of_step {step : Step} {answer : Answer}
    (done : store.step interpreter step = .ok (answer, changed)) : store.Moves step changed := by
  cases step with
  | create name value known =>
      obtain ⟨-, rfl⟩ := Prod.mk.inj (Except.ok.inj done)
      exact moves_create rfl value known
  | share name source =>
      obtain ⟨target, found, finished⟩ := bind_eq_ok_iff.1 done
      obtain ⟨-, rfl⟩ := Prod.mk.inj (Except.ok.inj finished)
      exact .adds rfl (by simpa [Cell.mentions] using ⟨source, found⟩) (by simp)
  | borrow name source =>
      obtain ⟨target, found, finished⟩ := bind_eq_ok_iff.1 done
      obtain ⟨-, rfl⟩ := Prod.mk.inj (Except.ok.inj finished)
      exact .adds rfl (by simpa [Cell.mentions] using ⟨source, found⟩) (by simp)
  | assign reference property source =>
      obtain ⟨index, named, done⟩ := bind_eq_ok_iff.1 done
      obtain ⟨target, found, done⟩ := bind_eq_ok_iff.1 done
      obtain ⟨result, assigned, finished⟩ := bind_eq_ok_iff.1 done
      obtain ⟨-, rfl⟩ := Prod.mk.inj (Except.ok.inj finished)
      obtain ⟨-, ⟨old, held⟩, rfl⟩ := assignProperty_eq_ok_iff.1 assigned
      exact .points (by rw [touched?, named]; rfl) held found
  | replace reference source =>
      obtain ⟨index, named, done⟩ := bind_eq_ok_iff.1 done
      obtain ⟨old, -, done⟩ := bind_eq_ok_iff.1 done
      obtain ⟨target, found, done⟩ := bind_eq_ok_iff.1 done
      obtain ⟨result, pointed, finished⟩ := bind_eq_ok_iff.1 done
      obtain ⟨-, rfl⟩ := Prod.mk.inj (Except.ok.inj finished)
      obtain ⟨⟨old, held⟩, rfl⟩ := point_eq_ok_iff.1 pointed
      exact .points (by rw [touched?, named]; rfl) held found
  | append reference source =>
      obtain ⟨index, named, done⟩ := bind_eq_ok_iff.1 done
      obtain ⟨cell, refers, done⟩ := bind_eq_ok_iff.1 done
      obtain ⟨items, listed, done⟩ := bind_eq_ok_iff.1 done
      obtain ⟨item, found, finished⟩ := bind_eq_ok_iff.1 done
      obtain ⟨-, rfl⟩ := Prod.mk.inj (Except.ok.inj finished)
      have touched : store.touched? (.append reference source) = some cell := by
        rw [touched?, bind_eq_ok_iff.2 ⟨index, named, refers⟩]
        rfl
      exact .appends touched (itemsIn_eq_ok_iff.1 listed) found
  | inspect reference =>
      obtain ⟨index, -, done⟩ := bind_eq_ok_iff.1 done
      obtain ⟨target, -, finished⟩ := bind_eq_ok_iff.1 done
      obtain ⟨-, rfl⟩ := Prod.mk.inj (Except.ok.inj finished)
      exact .rests
  | compare first second =>
      obtain ⟨index, -, done⟩ := bind_eq_ok_iff.1 done
      obtain ⟨other, -, done⟩ := bind_eq_ok_iff.1 done
      obtain ⟨equal, -, finished⟩ := bind_eq_ok_iff.1 done
      obtain ⟨-, rfl⟩ := Prod.mk.inj (Except.ok.inj finished)
      exact .rests
  | compareHashes first second =>
      obtain ⟨index, -, done⟩ := bind_eq_ok_iff.1 done
      obtain ⟨one, -, done⟩ := bind_eq_ok_iff.1 done
      obtain ⟨other, -, done⟩ := bind_eq_ok_iff.1 done
      obtain ⟨two, -, finished⟩ := bind_eq_ok_iff.1 done
      obtain ⟨-, rfl⟩ := Prod.mk.inj (Except.ok.inj finished)
      exact .rests
  | display reference =>
      obtain ⟨index, -, finished⟩ := bind_eq_ok_iff.1 done
      obtain ⟨-, rfl⟩ := Prod.mk.inj (Except.ok.inj finished)
      exact .rests

theorem moves_after (interpreter : Interpreter) (store : Store) (step : Step) :
    store.Moves step (store.after interpreter step) := by
  unfold after
  split
  · next done => exact moves_of_step done
  · exact .rests

end Changes

/-! ### What a step leaves as it is -/

section Frame

variable {store changed : Store} {step : Step}

theorem Moves.cells_eq (moves : store.Moves step changed) {index : Nat}
    (inside : index < store.cells.length) (untouched : store.touched? step ≠ some index) :
    changed.cells[index]? = store.cells[index]? := by
  cases moves with
  | rests => rfl
  | binds named inside => rw [cells_bind]
  | adds named grounded single => rw [cells_add, List.getElem?_append_left inside]
  | points touched held found =>
      rw [cells_put store _ held, if_neg]
      rintro rfl
      exact untouched touched
  | appends touched held found =>
      rw [cells_put store _ held, if_neg]
      rintro rfl
      exact untouched touched

theorem Moves.find_eq (moves : store.Moves step changed) {name : String}
    (unnamed : step.named? ≠ some name) : changed.find name = store.find name := by
  cases moves with
  | rests => rfl
  | binds named inside =>
      rw [find_bind, if_neg]
      rintro rfl
      exact unnamed named
  | adds named grounded single =>
      rw [find_add, if_neg]
      rintro rfl
      exact unnamed named
  | points touched held found => rfl
  | appends touched held found => rfl

theorem Moves.eq_of_none (moves : store.Moves step changed) (unnamed : step.named? = none)
    (untouched : store.touched? step = none) : changed = store := by
  cases moves with
  | rests => rfl
  | binds named inside => exact nomatch unnamed.symm.trans named
  | adds named grounded single => exact nomatch unnamed.symm.trans named
  | points touched held found => exact nomatch untouched.symm.trans touched
  | appends touched held found => exact nomatch untouched.symm.trans touched

/-- A cell that is neither an exclusive reference nor a list stays as it is. -/
theorem Moves.fixed (moves : store.Moves step changed) {index : Nat} {cell : Cell}
    (held : store.cells[index]? = some cell) (fixed : ∀ target, cell ≠ .exclusive target)
    (unlisted : ∀ items, cell ≠ .list items) : changed.cells[index]? = some cell := by
  have kept : ∀ {other : Nat} {old new : Cell}, store.cells[other]? = some old →
      old ≠ cell → (store.put other new).cells[index]? = some cell := by
    intro other old new there unlike
    rw [cells_put store _ there, if_neg, held]
    rintro rfl
    exact unlike (Option.some.inj (there.symm.trans held))
  cases moves with
  | rests => exact held
  | binds named inside => rw [cells_bind, held]
  | adds named grounded single =>
      obtain ⟨inside, -⟩ := List.getElem?_eq_some_iff.1 held
      rw [cells_add, List.getElem?_append_left inside, held]
  | points touched there found => exact kept there fun same => fixed _ same.symm
  | appends touched there found => exact kept there fun same => unlisted _ same.symm

end Frame

/-- No run points a shared reference elsewhere. -/
theorem shared_afterAll {store : Store} {index target : Nat}
    (shared : store.cells[index]? = some (.shared target)) (steps : List Step) :
    (store.afterAll interpreter steps).cells[index]? = some (.shared target) := by
  induction steps generalizing store with
  | nil => exact shared
  | cons step steps ih =>
      exact ih ((store.moves_after interpreter step).fixed shared (by simp) (by simp))

/-! ### Nothing leads to a cell that is not there -/

/-- What a variable names and what a cell leads to is there, and null and the truth values are in
one cell each. -/
structure Coherent (store : Store) : Prop where
  names : ∀ name index, store.find name = .ok index → index < store.cells.length
  mentions : ∀ (index : Nat) cell, store.cells[index]? = some cell →
    ∀ mentioned ∈ cell.mentions, mentioned < store.cells.length
  single : ∀ (value : Value), value.isSingle = true → ∀ index other : Nat,
    store.cells[index]? = some (.data value) → store.cells[other]? = some (.data value) →
      index = other

theorem coherent_empty : empty.Coherent where
  names := by
    intro name index found
    exact nomatch found
  mentions := by
    intro index cell held
    exact nomatch held
  single := by
    intro value _ index other held
    exact nomatch held

theorem Coherent.bind {store : Store} (coherent : store.Coherent) (name : String) {index : Nat}
    (inside : index < store.cells.length) : (store.bind name index).Coherent := by
  refine ⟨?_, by simpa using coherent.mentions, by simpa using coherent.single⟩
  intro other found named
  rw [find_bind] at named
  rw [cells_bind]
  split at named
  · obtain rfl := Except.ok.inj named
    exact inside
  · exact coherent.names other found named

/-- A cell other than data can be put in the place of another one. -/
theorem Coherent.put {store : Store} (coherent : store.Coherent) {index : Nat} {old cell : Cell}
    (held : store.cells[index]? = some old) (noData : ∀ value, cell ≠ .data value)
    (mentions : ∀ mentioned ∈ cell.mentions, mentioned < store.cells.length) :
    (store.put index cell).Coherent := by
  have length : (store.put index cell).cells.length = store.cells.length := List.length_set
  have data : ∀ {other : Nat} {value : Value},
      (store.put index cell).cells[other]? = some (.data value) →
        store.cells[other]? = some (.data value) := by
    intro other value there
    rw [cells_put store cell held] at there
    split at there
    · exact absurd (Option.some.inj there) (noData value)
    · exact there
  refine ⟨fun name other found => length ▸ coherent.names name other found, ?_, ?_⟩
  · intro other found there mentioned leads
    rw [cells_put store cell held] at there
    rw [length]
    split at there
    · obtain rfl := Option.some.inj there
      exact mentions mentioned leads
    · exact coherent.mentions other found there mentioned leads
  · intro value single first second there otherThere
    exact coherent.single value single first second (data there) (data otherThere)

theorem getElem?_concat {cells : List Cell} {new cell : Cell} {index : Nat}
    (held : (cells ++ [new])[index]? = some cell) :
    cells[index]? = some cell ∨ index = cells.length ∧ new = cell := by
  rw [List.getElem?_append] at held
  split at held
  · exact .inl held
  · next outside =>
      obtain ⟨inside, same⟩ := List.getElem?_eq_some_iff.1 held
      simp only [List.length_singleton, Nat.lt_one_iff] at inside
      refine .inr ⟨by omega, by simpa [inside] using same⟩

theorem Coherent.add {store : Store} (coherent : store.Coherent) (name : String) {cell : Cell}
    (mentions : ∀ mentioned ∈ cell.mentions, mentioned < store.cells.length)
    (single : ∀ value, value.isSingle = true → cell = .data value →
      ∀ index : Nat, store.cells[index]? ≠ some (.data value)) :
    (store.add name cell).Coherent := by
  let extended : Store := ⟨store.cells ++ [cell], store.names⟩
  have length : extended.cells.length = store.cells.length + 1 := by simp [extended]
  have coherentExtended : extended.Coherent := by
    refine ⟨?_, ?_, ?_⟩
    · intro other index found
      exact length ▸ Nat.lt_succ_of_lt (coherent.names other index found)
    · intro index found held mentioned leads
      rw [length]
      apply Nat.lt_succ_of_lt
      rcases getElem?_concat held with old | ⟨-, rfl⟩
      · exact coherent.mentions index found old mentioned leads
      · exact mentions mentioned leads
    · intro value isSingle first second held otherHeld
      rcases getElem?_concat held with old | ⟨isNew, same⟩
      · rcases getElem?_concat otherHeld with otherOld | ⟨-, otherSame⟩
        · exact coherent.single value isSingle first second old otherOld
        · exact absurd old (single value isSingle otherSame first)
      · rcases getElem?_concat otherHeld with otherOld | ⟨otherIsNew, -⟩
        · exact absurd otherOld (single value isSingle same second)
        · rw [isNew, otherIsNew]
  exact coherentExtended.bind name (by simp [extended])

theorem Coherent.moves {store changed : Store} {step : Step} (coherent : store.Coherent)
    (moves : store.Moves step changed) : changed.Coherent := by
  cases moves with
  | rests => exact coherent
  | binds named inside => exact coherent.bind _ inside
  | adds named grounded single =>
      refine coherent.add _ (fun mentioned leads => ?_) single
      obtain ⟨source, found⟩ := grounded mentioned leads
      exact coherent.names source mentioned found
  | points touched held found =>
      refine coherent.put held (by simp) fun mentioned leads => ?_
      obtain rfl := List.mem_singleton.1 leads
      exact coherent.names _ _ found
  | appends touched held found =>
      refine coherent.put held (by simp) fun mentioned leads => ?_
      rw [Cell.mentions, List.filterMap_append, List.mem_append] at leads
      rcases leads with old | new
      · exact coherent.mentions _ _ held mentioned old
      · obtain ⟨item, isItem, leads⟩ := List.mem_filterMap.1 new
        obtain rfl := List.mem_singleton.1 isItem
        split at leads
        · exact nomatch leads
        · obtain rfl := Option.some.inj leads
          obtain ⟨name, named⟩ := mentioned_of_itemOf found rfl
          exact coherent.names name _ named

theorem coherent_afterAll (steps : List Step) {store : Store} (coherent : store.Coherent) :
    (store.afterAll interpreter steps).Coherent := by
  induction steps generalizing store with
  | nil => exact coherent
  | cons step steps ih => exact ih (coherent.moves (store.moves_after interpreter step))

/-! ### The laws of references -/

/-- The second store differs from the first in no more than one cell. -/
structure DiffersAt (index : Nat) (before after : Store) : Prop where
  names : after.names = before.names
  length : after.cells.length = before.cells.length
  cells : ∀ other, other ≠ index → after.cells[other]? = before.cells[other]?

theorem differsAt_put {store : Store} {index : Nat} {old : Cell} (cell : Cell)
    (held : store.cells[index]? = some old) : DiffersAt index store (store.put index cell) where
  names := rfl
  length := List.length_set
  cells := by
    intro other apart
    rw [cells_put store cell held, if_neg apart]

theorem cells_put_self {store : Store} {index : Nat} {old : Cell} (cell : Cell)
    (held : store.cells[index]? = some old) : (store.put index cell).cells[index]? = some cell := by
  rw [cells_put store cell held, if_pos rfl]

/-- The text of a list with some items in a cell. -/
def itemsText (store : Store) (index : Nat) (items : List Item) : Option String :=
  (items.mapM (itemText (store.cellText store.depth [index]))).map listText

theorem text_of_list {store : Store} {index : Nat} {items : List Item}
    (held : store.cells[index]? = some (.list items)) :
    store.text index = store.itemsText index items := by
  rw [text, cellText, held]
  rfl

/-- What references promise in a store, and in every store that a run leads to from there. -/
structure ReferenceLaws (interpreter : Interpreter) (store : Store) : Prop where
  coherent : store.Coherent
  /-- A step that fails, one that only reads, and one that touches nothing change nothing. -/
  rests : ∀ step, ((∃ fault, store.step interpreter step = .error fault) ∨
      step.named? = none ∧ store.touched? step = none) → store.after interpreter step = store
  /-- A step changes no cell but the one that it touches. -/
  cells : ∀ step index, index < store.cells.length → store.touched? step ≠ some index →
    (store.after interpreter step).cells[index]? = store.cells[index]?
  /-- A step lets no variable name another cell but the one that it names. -/
  names : ∀ step name, step.named? ≠ some name →
    (store.after interpreter step).find name = store.find name
  /-- What is created is in a cell of its own, unless it is neither a list nor a map and there is
  such a cell already. -/
  create : ∀ name value known, ∃ made index,
    store.step interpreter (.create name value known) = .ok (.done, made) ∧
      made.find name = .ok index ∧ made.cells[index]? = some (.ofValue value) ∧
      (index = store.cells.length ∨ value.isAtom = true ∧ made.cells = store.cells)
  /-- A shared reference refers for ever to the cell that it was made for. -/
  share : ∀ name source target, store.find source = .ok target →
    ∃ answer made, store.step interpreter (.share name source) = .ok (answer, made) ∧
      made.find name = .ok store.cells.length ∧
      ∀ later, (made.afterAll interpreter later).cells[store.cells.length]? = some (.shared target)
  /-- An exclusive reference refers to the cell that it was made for, until it is pointed at
  another one. -/
  borrow : ∀ name source target, store.find source = .ok target →
    ∃ answer made, store.step interpreter (.borrow name source) = .ok (answer, made) ∧
      made.find name = .ok store.cells.length ∧
      made.cells[store.cells.length]? = some (.exclusive target)
  /-- Reading gives the very cell that is referred to. -/
  inspect : ∀ reference index target, store.find reference = .ok index →
    store.target index = .ok target →
    store.step interpreter (.inspect reference) = .ok (store.describe target, store)
  /-- Assigning points one exclusive reference at another cell. -/
  assign : ∀ reference property source index old target, property ∈ ["value", "_value"] →
    store.find reference = .ok index → store.cells[index]? = some (.exclusive old) →
    store.find source = .ok target →
    ∃ answer changed,
      store.step interpreter (.assign reference property source) = .ok (answer, changed) ∧
      changed.cells[index]? = some (.exclusive target) ∧ DiffersAt index store changed
  /-- Replacing does the same, and gives the cell that was referred to before. -/
  replace : ∀ reference source index old target, store.find reference = .ok index →
    store.cells[index]? = some (.exclusive old) → store.find source = .ok target →
    ∃ changed, store.step interpreter (.replace reference source) =
        .ok (changed.describe old, changed) ∧
      changed.cells[index]? = some (.exclusive target) ∧ DiffersAt index store changed
  /-- Appending data or a cell that is there changes the one list referred to, and all that name it
  or refer to it show its new content. -/
  append : ∀ reference source index cell items item, store.find reference = .ok index →
    store.target index = .ok cell → store.cells[cell]? = some (.list items) →
    store.itemOf source = .ok item →
    ∃ answer changed,
      store.step interpreter (.append reference source) = .ok (answer, changed) ∧
      changed.cells[cell]? = some (.list (items ++ [item])) ∧
      DiffersAt cell store changed ∧
      (∀ name, store.find name = .ok cell →
        changed.step interpreter (.display name) =
          .ok (.text (changed.itemsText cell (items ++ [item])), changed)) ∧
      ∀ name other, store.find name = .ok other → store.target other = .ok cell →
        changed.step interpreter (.inspect name) =
          .ok (.cell (changed.itemsText cell (items ++ [item])) (store.namesOf cell), changed)
  /-- References are equal when they are the same, or are of one kind and refer to the same cell
  at that time. -/
  compare : ∀ first second index other one two, store.find first = .ok index →
    store.find second = .ok other → store.target index = .ok one →
    store.target other = .ok two →
    ∃ equal, store.step interpreter (.compare first second) = .ok (.equal equal, store) ∧
      (equal = true ↔ index = other ∨ ∃ target,
        (store.cells[index]? = some (.shared target) ∧
          store.cells[other]? = some (.shared target)) ∨
        (store.cells[index]? = some (.exclusive target) ∧
          store.cells[other]? = some (.exclusive target)))
  /-- Equal shared references have equal hashes. -/
  hash : ∀ first second index other one two, store.find first = .ok index →
    store.find second = .ok other → store.cells[index]? = some (.shared one) →
    store.cells[other]? = some (.shared two) →
    store.step interpreter (.compare first second) = .ok (.equal true, store) →
    store.step interpreter (.compareHashes first second) = .ok (.sameHash true, store)

section Laws

variable {store : Store}

theorem exists_step_create (name : String) (value : Value) (known : Option Nat) :
    ∃ made index, store.step interpreter (.create name value known) = .ok (.done, made) ∧
      made.find name = .ok index ∧ made.cells[index]? = some (.ofValue value) ∧
      (index = store.cells.length ∨ value.isAtom = true ∧ made.cells = store.cells) := by
  change ∃ made index, Except.ok (Answer.done, store.create name value known) = _ ∧ _
  unfold create
  split
  · next index found =>
      obtain ⟨held, atom⟩ := cells_of_atom? found
      exact ⟨_, index, rfl, by simp [find_bind], by simp [held, Cell.ofValue_of_isAtom atom],
        .inr ⟨atom, by simp⟩⟩
  · exact ⟨_, store.cells.length, rfl, by simp [find_add], by simp, .inl rfl⟩

theorem exists_equalCells {index other one two : Nat} (refers : store.target index = .ok one)
    (otherRefers : store.target other = .ok two) :
    ∃ equal, store.equalCells interpreter index other = .ok equal ∧
      (equal = true ↔ index = other ∨ ∃ target,
        (store.cells[index]? = some (.shared target) ∧
          store.cells[other]? = some (.shared target)) ∨
        (store.cells[index]? = some (.exclusive target) ∧
          store.cells[other]? = some (.exclusive target))) := by
  obtain ⟨cell, held, leads⟩ := target_eq_ok_iff.1 refers
  obtain ⟨otherCell, otherHeld, otherLeads⟩ := target_eq_ok_iff.1 otherRefers
  have same : index = other → cell = otherCell := by
    rintro rfl
    exact Option.some.inj (held.symm.trans otherHeld)
  -- Only two references of one kind are compared by their targets.
  unfold equalCells
  cases cell <;> cases otherCell <;> simp_all [Cell.target?] <;> omega

theorem step_compare {first second : String} {index other : Nat} {equal : Bool}
    (foundFirst : store.find first = .ok index) (foundSecond : store.find second = .ok other)
    (compared : store.equalCells interpreter index other = .ok equal) :
    store.step interpreter (.compare first second) = .ok (.equal equal, store) :=
  bind_eq_ok_iff.2 ⟨index, foundFirst, bind_eq_ok_iff.2 ⟨other, foundSecond,
    bind_eq_ok_iff.2 ⟨equal, compared, rfl⟩⟩⟩

theorem step_inspect {reference : String} {index target : Nat}
    (found : store.find reference = .ok index) (refers : store.target index = .ok target) :
    store.step interpreter (.inspect reference) = .ok (store.describe target, store) :=
  bind_eq_ok_iff.2 ⟨index, found, bind_eq_ok_iff.2 ⟨target, refers, rfl⟩⟩

theorem step_assign {reference property source : String} {index old target : Nat}
    (assignable : property ∈ ["value", "_value"]) (named : store.find reference = .ok index)
    (held : store.cells[index]? = some (.exclusive old))
    (found : store.find source = .ok target) :
    store.step interpreter (.assign reference property source) =
      .ok (.text ((store.put index (.exclusive target)).text index),
        store.put index (.exclusive target)) := by
  have assigned : store.assignProperty index property target =
      .ok (store.put index (.exclusive target)) :=
    assignProperty_eq_ok_iff.2 ⟨assignable, ⟨old, held⟩, rfl⟩
  exact bind_eq_ok_iff.2 ⟨index, named, bind_eq_ok_iff.2 ⟨target, found,
    bind_eq_ok_iff.2 ⟨_, assigned, rfl⟩⟩⟩

theorem step_replace {reference source : String} {index old target : Nat}
    (named : store.find reference = .ok index)
    (held : store.cells[index]? = some (.exclusive old))
    (found : store.find source = .ok target) :
    store.step interpreter (.replace reference source) =
      .ok ((store.put index (.exclusive target)).describe old,
        store.put index (.exclusive target)) := by
  have replaced : store.replaceable index = .ok old := by
    rw [replaceable, held]
  have pointed : store.point index target = .ok (store.put index (.exclusive target)) :=
    point_eq_ok_iff.2 ⟨⟨old, held⟩, rfl⟩
  exact bind_eq_ok_iff.2 ⟨index, named, bind_eq_ok_iff.2 ⟨old, replaced,
    bind_eq_ok_iff.2 ⟨target, found, bind_eq_ok_iff.2 ⟨_, pointed, rfl⟩⟩⟩⟩

theorem exists_step_append {reference : String} {source : Source} {index cell : Nat}
    {items : List Item} {item : Item} (named : store.find reference = .ok index)
    (refers : store.target index = .ok cell) (held : store.cells[cell]? = some (.list items))
    (found : store.itemOf source = .ok item) :
    ∃ answer, store.step interpreter (.append reference source) =
      .ok (answer, store.put cell (.list (items ++ [item]))) :=
  ⟨_, bind_eq_ok_iff.2 ⟨index, named, bind_eq_ok_iff.2 ⟨cell, refers,
    bind_eq_ok_iff.2 ⟨items, itemsIn_eq_ok_iff.2 held, bind_eq_ok_iff.2 ⟨item, found, rfl⟩⟩⟩⟩⟩

/-- A list is no reference, so that changing it changes no reference. -/
theorem target_put_list {cell other target : Nat} {items new : List Item}
    (held : store.cells[cell]? = some (.list items)) (refers : store.target other = .ok target) :
    (store.put cell (.list new)).target other = .ok target := by
  obtain ⟨reference, there, leads⟩ := target_eq_ok_iff.1 refers
  refine target_eq_ok_iff.2 ⟨reference, ?_, leads⟩
  rw [cells_put store _ held, if_neg, there]
  rintro rfl
  obtain rfl := Option.some.inj (held.symm.trans there)
  exact nomatch leads

theorem Coherent.referenceLaws (coherent : store.Coherent) :
    store.ReferenceLaws interpreter where
  coherent := coherent
  rests := by
    rintro step (⟨fault, failed⟩ | ⟨unnamed, untouched⟩)
    · rw [after, failed]
    · exact (store.moves_after interpreter step).eq_of_none unnamed untouched
  cells := fun step index inside untouched =>
    (store.moves_after interpreter step).cells_eq inside untouched
  names := fun step name unnamed => (store.moves_after interpreter step).find_eq unnamed
  create := exists_step_create
  share := by
    intro name source target found
    refine ⟨_, _, bind_eq_ok_iff.2 ⟨target, found, rfl⟩, by simp [find_add], ?_⟩
    exact shared_afterAll (by simp)
  borrow := by
    intro name source target found
    exact ⟨_, _, bind_eq_ok_iff.2 ⟨target, found, rfl⟩, by simp [find_add], by simp⟩
  inspect := fun reference index target found refers => step_inspect found refers
  assign := by
    intro reference property source index old target assignable named held found
    exact ⟨_, _, step_assign assignable named held found, cells_put_self _ held,
      differsAt_put _ held⟩
  replace := by
    intro reference source index old target named held found
    exact ⟨_, step_replace named held found, cells_put_self _ held, differsAt_put _ held⟩
  append := by
    intro reference source index cell items item named refers held found
    obtain ⟨answer, done⟩ := exists_step_append named refers held found
    have content := cells_put_self (.list (items ++ [item])) held
    refine ⟨answer, _, done, content, differsAt_put _ held, ?_, ?_⟩
    · intro name named
      refine bind_eq_ok_iff.2 ⟨cell, named, ?_⟩
      rw [text_of_list content]
      rfl
    · intro name other named otherRefers
      have stillNamed : (store.put cell (.list (items ++ [item]))).find name = .ok other := named
      rw [step_inspect stillNamed (target_put_list held otherRefers), describe,
        text_of_list content]
      rfl
  compare := by
    intro first second index other one two found otherFound refers otherRefers
    obtain ⟨equal, compared, meaning⟩ := exists_equalCells refers otherRefers
    exact ⟨equal, step_compare found otherFound compared, meaning⟩
  hash := by
    intro first second index other one two found otherFound held otherHeld compared
    have answer : store.equalCells interpreter index other = .ok (one == two) := by
      rw [equalCells, held, otherHeld]
    rw [step_compare found otherFound answer] at compared
    have equal : one = two := by simpa using compared
    have hashed : store.hashOf interpreter index = .ok (interpreter.hashTarget one) := by
      rw [hashOf, held]
    have otherHashed : store.hashOf interpreter other = .ok (interpreter.hashTarget two) := by
      rw [hashOf, otherHeld]
    refine bind_eq_ok_iff.2 ⟨index, found, bind_eq_ok_iff.2 ⟨_, hashed,
      bind_eq_ok_iff.2 ⟨other, otherFound, bind_eq_ok_iff.2 ⟨_, otherHashed, ?_⟩⟩⟩⟩
    simp [equal, pure, Except.pure]

/-- At every moment of every run, with every interpreter, the laws of references hold in the store
in which the rest of the run is carried out. -/
theorem run_keeps_referenceLaws (interpreter : Interpreter) (earlier : List Step) :
    (∀ later, empty.run interpreter (earlier ++ later) =
      empty.run interpreter earlier ++
        (empty.afterAll interpreter earlier).run interpreter later) ∧
      (empty.afterAll interpreter earlier).ReferenceLaws interpreter :=
  ⟨run_append empty earlier, (coherent_afterAll earlier coherent_empty).referenceLaws⟩

end Laws

end Store

end ClosureCapture
