import ClosureCapture.Value.Basic

/-!
# Entries with different keys

Where all keys are different, collecting entries changes nothing, and the value of a key is that of
its only entry, in whatever order the entries stand.
-/

namespace ClosureCapture

theorem Scalar.same_string (first second : String) :
    (Scalar.string first).same (.string second) = decide (first = second) := by
  by_cases equal : first = second
  · simp [Scalar.same, Scalar.quantity?, equal]
  · simp [Scalar.same, Scalar.quantity?, equal]

namespace Entries

variable {Item : Type}

theorem insert_of_absent {entries : Entries Item} {key : Scalar}
    (absent : ∀ entry ∈ entries, entry.1.same key = false) (value : Item) :
    entries.insert key value = entries ++ [(key, value)] := by
  induction entries with
  | nil => rfl
  | cons entry entries ih =>
      have different : entry.1.same key = false := absent entry (by simp)
      have later := ih fun other member => absent other (List.mem_cons_of_mem _ member)
      simp [Entries.insert, different, later]

theorem foldl_insert_of_pairwise {entries pairs : Entries Item}
    (distinct : (entries ++ pairs).Pairwise fun first second => first.1.same second.1 = false) :
    pairs.foldl (fun entries (key, value) => entries.insert key value) entries =
      entries ++ pairs := by
  induction pairs generalizing entries with
  | nil => simp
  | cons pair pairs ih =>
      obtain ⟨key, value⟩ := pair
      have absent : ∀ entry ∈ entries, entry.1.same key = false := fun entry member =>
        (List.pairwise_append.1 distinct).2.2 entry member (key, value) (by simp)
      have regrouped : entries ++ (key, value) :: pairs = entries ++ [(key, value)] ++ pairs := by
        simp
      rw [regrouped] at distinct
      simp only [List.foldl_cons, insert_of_absent absent, ih distinct, regrouped]

theorem ofPairs_eq_self {pairs : Entries Item}
    (distinct : pairs.Pairwise fun first second => first.1.same second.1 = false) :
    ofPairs pairs = pairs :=
  @foldl_insert_of_pairwise _ [] pairs distinct

/-- The entries of a record. -/
def ofFields (fields : List (String × Item)) : Entries Item :=
  fields.map fun (name, value) => (.string name, value)

theorem pairwise_ofFields {fields : List (String × Item)}
    (distinct : (fields.map Prod.fst).Nodup) :
    (ofFields fields).Pairwise fun first second => first.1.same second.1 = false := by
  rw [ofFields, List.pairwise_map]
  rw [List.Nodup, List.pairwise_map] at distinct
  refine distinct.imp ?_
  intro first second different
  simpa [Scalar.same_string] using different

theorem field?_ofFields {fields : List (String × Item)} (distinct : (fields.map Prod.fst).Nodup)
    {name : String} {value : Item} (member : (name, value) ∈ fields) :
    (ofFields fields).field? name = some value := by
  induction fields with
  | nil => simp at member
  | cons field fields ih =>
      obtain ⟨other, stored⟩ := field
      rw [List.map_cons, List.nodup_cons] at distinct
      rcases List.mem_cons.1 member with same | later
      · obtain ⟨rfl, rfl⟩ := Prod.mk.inj same
        simp [ofFields, field?, get?, Scalar.same_string]
      · have different : other ≠ name := by
          rintro rfl
          exact distinct.1 (List.mem_map.2 ⟨_, later, rfl⟩)
        have found := ih distinct.2 later
        simpa [ofFields, field?, get?, Scalar.same_string, different] using found

end Entries

end ClosureCapture
