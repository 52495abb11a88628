import ClosureCapture.Proofs.Value.Entries
import ClosureCapture.Proofs.Value.Order
import Mathlib.Data.List.Perm.Basic

/-!
# Entries written over others

Entries with different keys are a mapping, what is not a number being different from itself.
Writing named values over a mapping gives a mapping again, in which a name has the value written
for it or else the one from below, and in which the entries whose keys are no texts are those from
below.  A mapping is known up to the order of its entries from the values of all names and from the
entries whose keys are no texts.
-/

namespace ClosureCapture

namespace Scalar

def isText : Scalar → Bool
  | .string _ => true
  | _ => false

theorem same_self (scalar : Scalar) : scalar.same scalar = true := by
  unfold Scalar.same
  cases scalar.quantity? with
  | some quantity => exact Quantity.same_of_place_eq rfl
  | none =>
      simp only
      split
      · next moment other =>
          cases zoned : other.instant? <;> simp [Moment.same, zoned]
      · exact beq_self_eq_true _

theorem isText_iff {scalar : Scalar} : scalar.isText = true ↔ ∃ name, scalar = .string name := by
  cases scalar <;> simp [isText]

theorem same_string_iff {scalar : Scalar} {name : String} :
    scalar.same (.string name) = true ↔ scalar = .string name := by
  cases scalar with
  | string other => simp [same_string]
  | float value => cases value <;> simp [Scalar.same, quantity?, Binary64.toRat?]
  | null | bool | int | bytes | date | moment => simp [Scalar.same, quantity?]

end Scalar

namespace Entries

variable {Item : Type}

/-- Entries no two of which have the same key.  What is not a number is a key as often as it is
made. -/
def Distinct (entries : Entries Item) : Prop :=
  entries.Pairwise fun first second =>
    first.1.same second.1 = false ∨ first.1 = .float .nan

/-- The entries whose keys are texts. -/
def named (entries : Entries Item) : Entries Item :=
  entries.filter fun entry => entry.1.isText

/-- The entries whose keys are no texts. -/
def foreign (entries : Entries Item) : Entries Item :=
  entries.filter fun entry => !entry.1.isText

/-! ### One entry written over others -/

variable {entries : Entries Item}

theorem key_of_mem_insert {key : Scalar} {value : Item} {entry : Scalar × Item}
    (member : entry ∈ entries.insert key value) :
    entry.1 = key ∨ ∃ old ∈ entries, old.1 = entry.1 := by
  induction entries with
  | nil =>
      obtain rfl := List.mem_singleton.1 member
      exact .inl rfl
  | cons first entries ih =>
      obtain ⟨present, old⟩ := first
      rw [Entries.insert] at member
      split at member
      · rcases List.mem_cons.1 member with rfl | later
        · exact .inr ⟨(present, old), List.mem_cons_self .., rfl⟩
        · exact .inr ⟨entry, List.mem_cons_of_mem _ later, rfl⟩
      · rcases List.mem_cons.1 member with rfl | later
        · exact .inr ⟨(present, old), List.mem_cons_self .., rfl⟩
        · rcases ih later with new | ⟨other, kept, same⟩
          · exact .inl new
          · exact .inr ⟨other, List.mem_cons_of_mem _ kept, same⟩

theorem Distinct.insert (distinct : entries.Distinct) (key : Scalar) (value : Item) :
    (entries.insert key value).Distinct := by
  induction entries with
  | nil => exact List.pairwise_singleton _ _
  | cons first entries ih =>
      obtain ⟨present, old⟩ := first
      obtain ⟨apart, others⟩ := List.pairwise_cons.1 distinct
      rw [Entries.insert]
      split
      · exact List.pairwise_cons.2 ⟨apart, others⟩
      · next different =>
          refine List.pairwise_cons.2 ⟨?_, ih others⟩
          intro entry member
          rcases key_of_mem_insert member with new | ⟨other, kept, same⟩
          · rw [new]
            exact .inl (Bool.eq_false_iff.2 different)
          · rw [← same]
            exact apart other kept

theorem field?_cons (key : Scalar) (value : Item) (name : String) :
    field? ((key, value) :: entries) name =
      if key.same (.string name) then some value else entries.field? name := by
  by_cases same : key.same (.string name) = true
  · simp [field?, get?, same]
  · simp [field?, get?, same]

theorem field?_insert (name : String) (value : Item) (other : String) :
    (entries.insert (.string name) value).field? other =
      if name = other then some value else entries.field? other := by
  induction entries with
  | nil => simp [Entries.insert, Scalar.same_string, field?, get?]
  | cons first entries ih =>
      obtain ⟨present, old⟩ := first
      rw [Entries.insert]
      split
      · next same =>
          obtain rfl := Scalar.same_string_iff.1 same
          by_cases equal : name = other
          · simp [field?_cons, Scalar.same_string, equal]
          · simp [field?_cons, Scalar.same_string, equal]
      · next different =>
          rw [field?_cons, ih, field?_cons]
          by_cases equal : name = other
          · subst equal
            simp [different]
          · simp [equal]

theorem foreign_insert (name : String) (value : Item) :
    (entries.insert (.string name) value).foreign = entries.foreign := by
  induction entries with
  | nil => simp [Entries.insert, foreign, Scalar.isText]
  | cons first entries ih =>
      obtain ⟨present, old⟩ := first
      rw [Entries.insert]
      split
      · next same =>
          obtain rfl := Scalar.same_string_iff.1 same
          simp [foreign, Scalar.isText]
      · simp only [foreign, List.filter_cons] at ih ⊢
        rw [ih]

/-! ### Named values written over others -/

theorem overlay_ofFields_cons (name : String) (value : Item) (fields : List (String × Item)) :
    entries.overlay (ofFields ((name, value) :: fields)) =
      (entries.insert (.string name) value).overlay (ofFields fields) :=
  rfl

theorem Distinct.overlay (distinct : entries.Distinct) (upper : Entries Item) :
    (entries.overlay upper).Distinct := by
  induction upper generalizing entries with
  | nil => exact distinct
  | cons entry upper ih => exact ih (distinct.insert entry.1 entry.2)

theorem distinct_ofPairs (pairs : Entries Item) : (ofPairs pairs).Distinct :=
  @Distinct.overlay _ [] List.Pairwise.nil pairs

theorem foreign_overlay_ofFields (fields : List (String × Item)) :
    (entries.overlay (ofFields fields)).foreign = entries.foreign := by
  induction fields generalizing entries with
  | nil => rfl
  | cons field fields ih => rw [overlay_ofFields_cons, ih, foreign_insert]

theorem lookup_eq_none_of_notMem {fields : List (String × Item)} {name : String}
    (absent : name ∉ fields.map Prod.fst) : fields.lookup name = none := by
  rw [List.lookup_eq_none_iff]
  intro field member
  rw [bne_iff_ne]
  rintro rfl
  exact absent (List.mem_map_of_mem member)

/-- A name has the value written for it, or else the one from below. -/
theorem field?_overlay_ofFields {fields : List (String × Item)}
    (names : (fields.map Prod.fst).Nodup) (name : String) :
    (entries.overlay (ofFields fields)).field? name =
      (fields.lookup name).or (entries.field? name) := by
  induction fields generalizing entries with
  | nil => rfl
  | cons field fields ih =>
      obtain ⟨other, value⟩ := field
      rw [List.map_cons, List.nodup_cons] at names
      rw [overlay_ofFields_cons, ih names.2, field?_insert]
      by_cases equal : other = name
      · subst equal
        simp [lookup_eq_none_of_notMem names.1]
      · have different : (name == other) = false := beq_false_of_ne (Ne.symm equal)
        simp [equal, List.lookup_cons, different]

/-! ### Mappings with the same values -/

theorem mem_iff_field? (distinct : entries.Distinct) {name : String} {value : Item} :
    (Scalar.string name, value) ∈ entries ↔ entries.field? name = some value := by
  induction entries with
  | nil => simp [field?, get?]
  | cons first entries ih =>
      obtain ⟨key, stored⟩ := first
      obtain ⟨apart, others⟩ := List.pairwise_cons.1 distinct
      rw [List.mem_cons, ih others, field?_cons]
      split
      · next same =>
          obtain rfl := Scalar.same_string_iff.1 same
          have absent : field? entries name ≠ some value := by
            intro found
            have different := apart _ ((ih others).2 found)
            simp [Scalar.same_string] at different
          simp [absent, @eq_comm _ value]
      · next different =>
          have other : (Scalar.string name, value) ≠ (key, stored) := by
            intro equal
            obtain ⟨rfl, rfl⟩ := Prod.mk.inj equal
            simp [Scalar.same_string] at different
          simp only [other, false_or]

theorem Distinct.nodup_named (distinct : entries.Distinct) : entries.named.Nodup := by
  refine List.Pairwise.imp_of_mem ?_ (distinct.filter _)
  rintro first second member - different rfl
  have text := (List.mem_filter.1 member).2
  rcases different with unlike | undefined
  · rw [Scalar.same_self] at unlike
    exact Bool.noConfusion unlike
  · simp [undefined, Scalar.isText] at text

/-- Mappings with the same named values and the same other entries are equal up to order. -/
theorem perm_of_field? {others : Entries Item} (distinct : entries.Distinct)
    (otherDistinct : others.Distinct) (fields : ∀ name, entries.field? name = others.field? name)
    (foreigns : entries.foreign.Perm others.foreign) : entries.Perm others := by
  have texts : entries.named.Perm others.named := by
    refine (List.perm_ext_iff_of_nodup distinct.nodup_named otherDistinct.nodup_named).2 ?_
    rintro ⟨key, value⟩
    simp only [named, List.mem_filter]
    refine and_congr_left fun text => ?_
    obtain ⟨name, rfl⟩ := Scalar.isText_iff.1 text
    rw [mem_iff_field? distinct, mem_iff_field? otherDistinct, fields name]
  calc entries.Perm (entries.named ++ entries.foreign) := (List.filter_append_perm ..).symm
    List.Perm _ (others.named ++ others.foreign) := texts.append foreigns
    List.Perm _ others := List.filter_append_perm ..

end Entries

end ClosureCapture
