import ClosureCapture.Value.Order
import Mathlib.Algebra.Order.Ring.Rat
import Mathlib.Data.List.Chain
import Mathlib.Data.List.Lex
import Mathlib.Data.List.Pairwise
import Mathlib.Data.Prod.Lex
import Mathlib.Data.String.Basic

/-!
# When sorting does not depend on the order before

Scalars that have an order belong to one family: texts, bytes, dates, moments without a place in
universal time, moments with one, or numbers.  But for what is not a number, each family is ordered
by a linear order, in which two scalars have the same place only if they are equal as values.  Hence
different scalars are sorted in one way only, whatever order they stood in before, unless one of
them is not a number.  With that one among them, a list is what sorting can make of its scalars
exactly when no scalar in it stands right behind one that it comes before.
-/

namespace ClosureCapture

/-! ### Places of quantities and moments -/

/-- The place of a quantity: negative infinity, then the numbers, then positive infinity.  What is
not a number has a place of its own, by which it is not ordered. -/
def Quantity.place : Quantity → ℤ ×ₗ ℚ
  | .finite value => toLex (0, value)
  | .infinite negative => toLex (if negative then -1 else 1, 0)
  | .undefined => toLex (2, 0)

theorem Quantity.less_eq {first second : Quantity} (defined : first ≠ .undefined)
    (otherDefined : second ≠ .undefined) :
    first.less second = decide (first.place < second.place) := by
  cases first with
  | finite value =>
      cases second with
      | finite other => simp [less, place, Prod.Lex.toLex_lt_toLex]
      | infinite negative => cases negative <;> simp [less, place, Prod.Lex.toLex_lt_toLex]
      | undefined => exact absurd rfl otherDefined
  | infinite negative =>
      cases second with
      | finite other => cases negative <;> simp [less, place, Prod.Lex.toLex_lt_toLex]
      | infinite other =>
          cases negative <;> cases other <;> simp [less, place, Prod.Lex.toLex_lt_toLex]
      | undefined => exact absurd rfl otherDefined
  | undefined => exact absurd rfl defined

theorem Quantity.undefined_less (quantity : Quantity) : undefined.less quantity = false := by
  cases quantity <;> rfl

theorem Quantity.less_undefined (quantity : Quantity) : quantity.less undefined = false := by
  cases quantity <;> rfl

theorem Quantity.same_of_place_eq {first second : Quantity} (same : first.place = second.place) :
    first.same second = true := by
  cases first with
  | finite value =>
      cases second with
      | finite other => simpa [Quantity.same, place] using same
      | infinite negative => cases negative <;> simp [place] at same
      | undefined => simp [place] at same
  | infinite negative =>
      cases second with
      | finite other => cases negative <;> simp [place] at same
      | infinite other => cases negative <;> cases other <;> simp_all [Quantity.same, place]
      | undefined => cases negative <;> simp [place] at same
  | undefined =>
      cases second with
      | finite other => simp [place] at same
      | infinite other => cases other <;> simp [place] at same
      | undefined => rfl

theorem lex_blt_eq (first second : List Nat) :
    first.lex second Nat.blt = decide (first < second) := by
  rw [List.lex_eq_decide_lex]
  simp

theorem Date.eq_of_parts_eq {first second : Date} (same : first.parts = second.parts) :
    first = second := by
  obtain ⟨year, month, day⟩ := first
  obtain ⟨otherYear, otherMonth, otherDay⟩ := second
  simpa [parts] using same

theorem Moment.eq_of_parts_eq {first second : Moment} (same : first.parts = second.parts)
    (zones : first.zone = second.zone) : first = second := by
  obtain ⟨dates, times⟩ := List.append_inj same rfl
  have sameDate := Date.eq_of_parts_eq dates
  cases first
  cases second
  simp_all

/-! ### Scalars that have an order -/

namespace Scalar

/-- Two scalars of one sort. -/
inductive Comparable : Scalar → Scalar → Prop
  | texts {first second : String} : Comparable (.string first) (.string second)
  | bytes {first second : List UInt8} : Comparable (.bytes first) (.bytes second)
  | dates {first second : Date} : Comparable (.date first) (.date second)
  | localMoments {first second : Moment} : first.instant? = none → second.instant? = none →
      Comparable (.moment first) (.moment second)
  | universalMoments {first second : Moment} {instant other : Int} :
      first.instant? = some instant → second.instant? = some other →
      Comparable (.moment first) (.moment second)
  | numbers {first second : Scalar} {quantity other : Quantity} :
      first.quantity? = some quantity → second.quantity? = some other → Comparable first second

theorem Comparable.symm {first second : Scalar} (comparable : Comparable first second) :
    Comparable second first := by
  cases comparable with
  | texts => exact .texts
  | bytes => exact .bytes
  | dates => exact .dates
  | localMoments one two => exact .localMoments two one
  | universalMoments one two => exact .universalMoments two one
  | numbers one two => exact .numbers two one

theorem less?_of_quantity? {first second : Scalar} {quantity other : Quantity}
    (isNumber : first.quantity? = some quantity) (otherIs : second.quantity? = some other) :
    less? first second = some (quantity.less other) := by
  cases first with
  | null | string | bytes | date | moment => simp [quantity?] at isNumber
  | bool | int | float => simp [less?, isNumber, otherIs]

theorem less?_isSome_iff {first second : Scalar} :
    (less? first second).isSome = true ↔ Comparable first second := by
  constructor
  · intro ordered
    unfold less? at ordered
    split at ordered
    · exact .texts
    · exact .bytes
    · exact .dates
    · split at ordered
      · next one two => exact .universalMoments one two
      · next one two => exact .localMoments one two
      · simp at ordered
    · split at ordered
      · next one two => exact .numbers one two
      · simp at ordered
  · intro comparable
    cases comparable with
    | texts | bytes | dates => simp [less?]
    | localMoments one two | universalMoments one two => simp [less?, one, two]
    | numbers one two => simp [less?_of_quantity? one two]

/-- The place of a scalar among those of its sort.  Each sort has a component of its own. -/
def place : Scalar → String ×ₗ List Nat ×ₗ ℤ ×ₗ ℤ ×ₗ ℚ
  | .string value => toLex (value, toLex ([], toLex (0, Quantity.undefined.place)))
  | .bytes value =>
      toLex ("", toLex (value.map UInt8.toNat, toLex (0, Quantity.undefined.place)))
  | .date value => toLex ("", toLex (value.parts, toLex (0, Quantity.undefined.place)))
  | .moment value =>
      match value.instant? with
      | some instant => toLex ("", toLex ([], toLex (instant, Quantity.undefined.place)))
      | none => toLex ("", toLex (value.parts, toLex (0, Quantity.undefined.place)))
  | scalar => toLex ("", toLex ([], toLex (0, (scalar.quantity?.getD .undefined).place)))

theorem place_of_quantity? {scalar : Scalar} {quantity : Quantity}
    (isNumber : scalar.quantity? = some quantity) :
    scalar.place = toLex ("", toLex ([], toLex (0, quantity.place))) := by
  cases scalar with
  | null | string | bytes | date | moment => simp [quantity?] at isNumber
  | bool | int | float => simp [place, isNumber]

theorem eq_nan_of_quantity? {scalar : Scalar} (undefined : scalar.quantity? = some .undefined) :
    scalar = .float .nan := by
  cases scalar with
  | float value => cases value <;> simp_all [quantity?, Binary64.toRat?]
  | null | bool | int | string | bytes | date | moment => simp [quantity?] at undefined

/-- Scalars of one sort are ordered by their places, unless one of them is not a number. -/
theorem Comparable.isLess_eq {first second : Scalar} (comparable : Comparable first second)
    (defined : first ≠ .float .nan) (otherDefined : second ≠ .float .nan) :
    isLess first second = decide (first.place < second.place) := by
  rw [isLess]
  cases comparable with
  | texts => simp [less?, place, Prod.Lex.toLex_lt_toLex]
  | bytes => simp [less?, place, Prod.Lex.toLex_lt_toLex, lex_blt_eq]
  | dates => simp [less?, place, Prod.Lex.toLex_lt_toLex, lex_blt_eq]
  | localMoments one two => simp [less?, place, one, two, Prod.Lex.toLex_lt_toLex, lex_blt_eq]
  | universalMoments one two => simp [less?, place, one, two, Prod.Lex.toLex_lt_toLex]
  | @numbers _ _ quantity other one two =>
      have number : quantity ≠ .undefined := fun same => defined (eq_nan_of_quantity? (same ▸ one))
      have otherNumber : other ≠ .undefined := fun same =>
        otherDefined (eq_nan_of_quantity? (same ▸ two))
      rw [less?_of_quantity? one two, place_of_quantity? one, place_of_quantity? two,
        Option.getD_some, Quantity.less_eq number otherNumber]
      simp [Prod.Lex.toLex_lt_toLex]

theorem quantity?_nan : quantity? (.float .nan) = some .undefined :=
  rfl

/-- What is not a number comes before nothing. -/
theorem nan_isLess (scalar : Scalar) : isLess (.float .nan) scalar = false := by
  cases other : scalar.quantity? with
  | none => cases scalar <;> simp_all [isLess, less?, quantity?]
  | some quantity =>
      rw [isLess, less?_of_quantity? quantity?_nan other]
      exact Quantity.undefined_less quantity

/-- What is not a number comes after nothing. -/
theorem isLess_nan (scalar : Scalar) : isLess scalar (.float .nan) = false := by
  cases other : scalar.quantity? with
  | none => cases scalar <;> simp_all [isLess, less?, quantity?]
  | some quantity =>
      rw [isLess, less?_of_quantity? other quantity?_nan]
      exact Quantity.less_undefined quantity

/-- Scalars of one sort with the same place are equal as values. -/
theorem Comparable.same_of_place_eq {first second : Scalar} (comparable : Comparable first second)
    (samePlace : first.place = second.place) : first.same second = true := by
  cases comparable with
  | @texts first second =>
      obtain rfl : first = second := by simpa [place] using samePlace
      simp [Scalar.same, quantity?]
  | @bytes first second =>
      have codes : first.map UInt8.toNat = second.map UInt8.toNat := by
        simpa [place] using samePlace
      obtain rfl := List.map_injective_iff.2 (fun _ _ => UInt8.toNat_inj.1) codes
      simp [Scalar.same, quantity?]
  | @dates first second =>
      have parts : first.parts = second.parts := by simpa [place] using samePlace
      obtain rfl := Date.eq_of_parts_eq parts
      simp [Scalar.same, quantity?]
  | @localMoments first second one two =>
      have parts : first.parts = second.parts := by simpa [place, one, two] using samePlace
      have zones : first.zone = second.zone := by
        rw [Option.map_eq_none_iff.1 one, Option.map_eq_none_iff.1 two]
      obtain rfl := Moment.eq_of_parts_eq parts zones
      simp [Scalar.same, quantity?, Moment.same, one]
  | @universalMoments _ _ instant other one two =>
      have instants : instant = other := by simpa [place, one, two] using samePlace
      simp [Scalar.same, quantity?, Moment.same, one, two, instants]
  | @numbers _ _ quantity other one two =>
      rw [place_of_quantity? one, place_of_quantity? two] at samePlace
      have places : quantity.place = other.place := by simpa using samePlace
      simp [Scalar.same, one, two, Quantity.same_of_place_eq places]

theorem comparable_iff {scalars : List Scalar} :
    comparable scalars = true ↔ scalars.Pairwise Comparable := by
  induction scalars with
  | nil => simp [comparable]
  | cons first scalars ih => simp [comparable, ih, less?_isSome_iff]

instance : Std.Symm Comparable := ⟨fun _ _ => Comparable.symm⟩

/-- Of two scalars at most one comes before the other. -/
theorem isLess_asymm {first second : Scalar} (less : isLess first second = true) :
    isLess second first = false := by
  have comparable : Comparable first second := by
    rw [← less?_isSome_iff]
    cases ordered : less? first second with
    | none => simp [isLess, ordered] at less
    | some answer => rfl
  have defined : first ≠ .float .nan := by
    rintro rfl
    simp [nan_isLess] at less
  have otherDefined : second ≠ .float .nan := by
    rintro rfl
    simp [isLess_nan] at less
  rw [comparable.isLess_eq defined otherDefined, decide_eq_true_eq] at less
  rw [comparable.symm.isLess_eq otherDefined defined]
  exact decide_eq_false less.not_gt

/-! ### Sorting -/

/-- A list in which no scalar stands right behind one that it comes before. -/
def Unbroken (scalars : List Scalar) : Prop :=
  scalars.IsChain fun first second => isLess second first = false

instance : DecidablePred Unbroken := fun scalars =>
  inferInstanceAs (Decidable (scalars.IsChain fun first second => isLess second first = false))

theorem insert_perm (scalar : Scalar) (scalars : List Scalar) :
    (insert scalar scalars).Perm (scalar :: scalars) := by
  fun_induction insert scalar scalars with
  | case1 => exact .refl _
  | case2 first rest _ ih => exact (ih.cons first).trans (.swap ..)
  | case3 => exact .refl _

theorem sort_perm (scalars : List Scalar) : (sort scalars).Perm scalars := by
  induction scalars with
  | nil => exact .refl _
  | cons scalar scalars ih => exact (insert_perm scalar _).trans (ih.cons scalar)

theorem Unbroken.insert {scalars : List Scalar} (unbroken : Unbroken scalars) (scalar : Scalar) :
    Unbroken (insert scalar scalars) := by
  fun_induction Scalar.insert scalar scalars with
  | case1 => exact .singleton _
  | case2 first rest less ih =>
      have later := ih unbroken.tail
      -- The next one is the scalar or the old neighbour, neither of which comes before the first.
      cases rest with
      | nil => exact .cons_cons (isLess_asymm less) (.singleton _)
      | cons second rest =>
          have neighbour : isLess second first = false := unbroken.rel
          rw [Scalar.insert] at later ⊢
          split
          · next inside =>
              rw [if_pos inside] at later
              exact .cons_cons neighbour later
          · next inside =>
              rw [if_neg inside] at later
              exact .cons_cons (isLess_asymm less) later
  | case3 first rest notLess => exact .cons_cons (Bool.eq_false_iff.2 notLess) unbroken

theorem unbroken_sort (scalars : List Scalar) : Unbroken (sort scalars) := by
  induction scalars with
  | nil => exact .nil
  | cons scalar scalars ih => exact Unbroken.insert ih scalar

/-- Sorting leaves a list in which nothing is out of place as it is. -/
theorem Unbroken.sort_eq {scalars : List Scalar} (unbroken : Unbroken scalars) :
    sort scalars = scalars := by
  induction scalars with
  | nil => rfl
  | cons scalar scalars ih =>
      have sorted : sort (scalar :: scalars) = Scalar.insert scalar (sort scalars) := rfl
      rw [sorted, ih unbroken.tail]
      cases scalars with
      | nil => rfl
      | cons next scalars =>
          have inPlace : isLess next scalar = false := unbroken.rel
          rw [Scalar.insert, if_neg (by simp [inPlace])]

theorem same_comm (first second : Scalar) : first.same second = second.same first := by
  have quantities : ∀ one two : Quantity, one.same two = two.same one := by
    intro one two
    cases one <;> cases two <;> simp [Quantity.same, BEq.comm]
  have moments : ∀ one two : Moment, one.same two = two.same one := by
    intro one two
    cases first : one.instant? <;> cases second : two.instant? <;>
      simp [Moment.same, first, second, BEq.comm]
  unfold Scalar.same
  cases first.quantity? with
  | some quantity =>
      cases second.quantity? with
      | some other => exact quantities quantity other
      | none => rfl
  | none =>
      cases second.quantity? with
      | some other => rfl
      | none =>
          simp only
          split
          · exact moments _ _
          · next apart =>
              split
              · exact (apart _ _ rfl rfl).elim
              · exact BEq.comm

instance : Std.Symm fun first second : Scalar => first.same second = false :=
  ⟨fun first second different => (same_comm second first).trans different⟩

/-- Without what is not a number, scalars of one sort stand by their places if nothing is out of
place. -/
theorem Unbroken.pairwise_place {scalars : List Scalar} (unbroken : Unbroken scalars)
    (sortable : scalars.Pairwise Comparable) (defined : .float .nan ∉ scalars) :
    scalars.Pairwise fun first second => first.place ≤ second.place := by
  have places : scalars.IsChain fun first second => first.place ≤ second.place := by
    refine List.IsChain.imp_of_mem_imp ?_ unbroken
    intro first second member otherMember inPlace
    have number : first ≠ .float .nan := fun same => defined (same ▸ member)
    have otherNumber : second ≠ .float .nan := fun same => defined (same ▸ otherMember)
    by_cases equal : second = first
    · exact equal ▸ le_rfl
    · rw [(sortable.forall otherMember member equal).isLess_eq otherNumber number,
        decide_eq_false_iff_not, not_lt] at inPlace
      exact inPlace
  have sorted : (scalars.map place).IsChain (· ≤ ·) := (List.isChain_map place).2 places
  exact List.pairwise_map.1 sorted.pairwise

/-- Different scalars are sorted in one way only, unless one of them is not a number. -/
theorem Unbroken.eq_of_perm {scalars others : List Scalar} (unbroken : Unbroken scalars)
    (otherUnbroken : Unbroken others) (perm : scalars.Perm others)
    (sortable : scalars.Pairwise Comparable)
    (different : scalars.Pairwise fun first second => first.same second = false)
    (defined : .float .nan ∉ scalars) : scalars = others := by
  have otherSortable := (perm.pairwise_iff Comparable.symm).1 sortable
  have otherDefined : .float .nan ∉ others := mt perm.mem_iff.2 defined
  apply List.Perm.eq_of_pairwise _ (unbroken.pairwise_place sortable defined)
    (otherUnbroken.pairwise_place otherSortable otherDefined) perm
  intro first second member otherMember before after
  have inside := perm.mem_iff.2 otherMember
  by_contra unequal
  have equal := (sortable.forall member inside unequal).same_of_place_eq (le_antisymm before after)
  simp [different.forall member inside unequal] at equal

/-- What is not a number can stand at either end. -/
theorem Unbroken.append_undefined {scalars undefined : List Scalar} (unbroken : Unbroken scalars)
    (all : ∀ scalar ∈ undefined, scalar = .float .nan) :
    Unbroken (scalars ++ undefined) ∧ Unbroken (undefined ++ scalars) := by
  have among : Unbroken undefined := by
    refine List.Pairwise.isChain (List.pairwise_of_forall_mem_list ?_)
    intro first _ second member
    rw [all second member]
    exact nan_isLess first
  constructor
  · refine List.isChain_append.2 ⟨unbroken, among, ?_⟩
    intro last _ first isFirst
    rw [all first (List.mem_of_mem_head? isFirst)]
    exact nan_isLess last
  · refine List.isChain_append.2 ⟨among, unbroken, ?_⟩
    intro last isLast first _
    rw [all last (List.mem_of_mem_getLast? isLast)]
    exact isLess_nan first

/-- With something that is not a number beside something else, sorting leaves the order open. -/
theorem exists_ne_unbroken {scalars : List Scalar} (undefined : .float .nan ∈ scalars)
    {other : Scalar} (member : other ∈ scalars) (defined : other ≠ .float .nan)
    (listed : List Scalar) :
    ∃ arranged, arranged.Perm scalars ∧ Unbroken arranged ∧ arranged ≠ listed := by
  have perm := List.filter_append_perm (· == .float .nan) scalars
  have inFront : .float .nan ∈ scalars.filter (· == .float .nan) := by simp [undefined]
  have inBack : other ∈ sort (scalars.filter (!· == .float .nan)) := by
    rw [(sort_perm _).mem_iff]
    simp [member, defined]
  have allFront : ∀ scalar ∈ scalars.filter (· == .float .nan), scalar = .float .nan := by simp
  have allBack : ∀ scalar ∈ sort (scalars.filter (!· == .float .nan)), scalar ≠ .float .nan := by
    intro scalar
    rw [(sort_perm _).mem_iff]
    simp
  have permSorted := ((sort_perm _).append_left _).trans perm
  obtain ⟨backFirst, frontFirst⟩ :=
    (unbroken_sort (scalars.filter (!· == .float .nan))).append_undefined allFront
  -- The two ends give lists that begin differently, so that one of them is not the given one.
  generalize scalars.filter (· == .float .nan) = front at *
  generalize sort (scalars.filter (!· == .float .nan)) = back at *
  have different : front ++ back ≠ back ++ front := by
    obtain ⟨head, rest, rfl⟩ := List.exists_cons_of_ne_nil (List.ne_nil_of_mem inFront)
    obtain ⟨first, later, rfl⟩ := List.exists_cons_of_ne_nil (List.ne_nil_of_mem inBack)
    intro same
    refine allBack first (List.mem_cons_self ..) ?_
    rw [← (List.cons.inj same).1]
    exact allFront head (List.mem_cons_self ..)
  by_cases same : front ++ back = listed
  · exact ⟨back ++ front, List.perm_append_comm.trans permSorted, backFirst,
      fun equal => different (same.trans equal.symm)⟩
  · exact ⟨front ++ back, permSorted, frontFirst, same⟩

end Scalar

end ClosureCapture
