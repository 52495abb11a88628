import ClosureCapture.Json.Reader
import ClosureCapture.Proofs.Result.Chaining

/-!
# Numbers with too many digits

A document with a whole number that is too long is neither read nor refused.  This file proves that
such a number is a run of digits in the text: every reader goes on with an end of its text, so what
it meets later stands in the text as well.
-/

namespace ClosureCapture.Json

variable {First Second : Type} {text rest : List Char}

/-- A text with more digits in a row than a whole number may have. -/
def HasLongRun (text : List Char) : Prop :=
  ∃ digits, digits <:+: text ∧ (∀ digit ∈ digits, digit.isDigit = true) ∧
    digitLimit < digits.length

theorem HasLongRun.of_suffix (long : HasLongRun rest) (suffix : rest <:+ text) :
    HasLongRun text := by
  obtain ⟨digits, inside, areDigits, many⟩ := long
  exact ⟨digits, inside.trans suffix.isInfix, areDigits, many⟩

/-- What a reader does with a text: it goes on with an end of the text, and if it meets a number
that is too long, then the text has it. -/
structure Consumes (text : List Char) (outcome : Except Fault (First × List Char)) : Prop where
  suffix : ∀ found rest, outcome = .ok (found, rest) → rest <:+ text
  long : outcome = .error .longNumber → HasLongRun text

theorem consumes_ok {found : First} (suffix : rest <:+ text) :
    Consumes text (.ok (found, rest)) where
  suffix other later same := by
    obtain ⟨rfl, rfl⟩ := Prod.mk.inj (Except.ok.inj same)
    exact suffix
  long failed := by cases failed

theorem consumes_malformed :
    Consumes text (.error .malformed : Except Fault (First × List Char)) where
  suffix _ _ same := by cases same
  long failed := by cases failed

theorem Consumes.of_suffix {outcome : Except Fault (First × List Char)}
    (consumes : Consumes rest outcome) (suffix : rest <:+ text) : Consumes text outcome where
  suffix found later same := (consumes.suffix found later same).trans suffix
  long failed := (consumes.long failed).of_suffix suffix

theorem Consumes.bind {outcome : Except Fault (First × List Char)}
    {next : First × List Char → Except Fault (Second × List Char)}
    (consumes : Consumes text outcome)
    (later : ∀ found rest, rest <:+ text → Consumes text (next (found, rest))) :
    Consumes text (outcome >>= next) := by
  cases outcome with
  | ok result => exact later result.1 result.2 (consumes.suffix _ _ rfl)
  | error fault =>
      refine ⟨?_, ?_⟩
      · intro found rest same
        cases same
      · intro failed
        obtain rfl := Except.error.inj failed
        exact consumes.long rfl

theorem skipSpace_suffix (text : List Char) : skipSpace text <:+ text :=
  List.dropWhile_suffix isSpace

theorem suffix_of_skipSpace {first : Char} (found : skipSpace text = first :: rest) :
    rest <:+ text :=
  (List.suffix_cons first rest).trans (found ▸ skipSpace_suffix text)

/-! ### Strings and numbers -/

theorem readCodes_suffix {codes : List Nat} (read : readCodes text = some (codes, rest)) :
    rest <:+ text := by
  fun_induction readCodes text generalizing codes with
  | case1 => cases read
  | case2 later =>
      obtain ⟨-, rfl⟩ := Prod.mk.inj (Option.some.inj read)
      exact List.suffix_cons _ _
  | case3 a b c d later ih =>
      obtain ⟨code, -, read⟩ := Option.bind_eq_some_iff.1 read
      obtain ⟨⟨others, after⟩, found, same⟩ := Option.bind_eq_some_iff.1 read
      obtain ⟨-, rfl⟩ := Prod.mk.inj (Option.some.inj same)
      exact (ih found).trans ⟨['\\', 'u', a, b, c, d], rfl⟩
  | case4 letter later _ ih =>
      obtain ⟨character, -, read⟩ := Option.bind_eq_some_iff.1 read
      obtain ⟨⟨others, after⟩, found, same⟩ := Option.bind_eq_some_iff.1 read
      obtain ⟨-, rfl⟩ := Prod.mk.inj (Option.some.inj same)
      exact (ih found).trans ⟨['\\', letter], rfl⟩
  | case5 => cases read
  | case6 character later _ _ _ _ ih =>
      obtain ⟨⟨others, after⟩, found, same⟩ := Option.bind_eq_some_iff.1 read
      obtain ⟨-, rfl⟩ := Prod.mk.inj (Option.some.inj same)
      exact (ih found).trans (List.suffix_cons _ _)

theorem consumes_readString (text : List Char) :
    Consumes text (Fault.require (readString text)) := by
  cases read : readCodes text with
  | none => simpa [readString, read, Fault.require] using consumes_malformed
  | some found =>
      simpa [readString, read, Fault.require] using
        consumes_ok (readCodes_suffix read)

theorem suffix_of_spanDigits {digits : List Char} (taken : Text.spanDigits text = (digits, rest)) :
    rest <:+ text := by
  obtain ⟨-, rfl⟩ := Prod.mk.inj taken
  exact List.dropWhile_suffix _

theorem takeFraction_suffix (text : List Char) : (takeFraction text).2 <:+ text := by
  unfold takeFraction
  split
  · split
    · exact List.suffix_refl _
    · next rest _ digits after _ taken =>
        exact (suffix_of_spanDigits taken).trans (List.suffix_cons _ _)
  · exact List.suffix_refl _

theorem takeExponent_suffix (text : List Char) : (takeExponent text).2 <:+ text := by
  unfold takeExponent
  dsimp only
  split
  · split
    · split
      · split
        · exact List.suffix_refl _
        · next taken => exact (suffix_of_spanDigits taken).trans ⟨[_, _], rfl⟩
      · split
        · exact List.suffix_refl _
        · next taken => exact (suffix_of_spanDigits taken).trans ⟨[_, _], rfl⟩
      · split
        · exact List.suffix_refl _
        · next taken => exact (suffix_of_spanDigits taken).trans (List.suffix_cons _ _)
    · exact List.suffix_refl _
  · exact List.suffix_refl _

theorem takeWhole_eq (text : List Char) :
    (takeWhole text).1 ++ (takeWhole text).2 = text ∧
      ∀ digit ∈ (takeWhole text).1, digit.isDigit = true := by
  unfold takeWhole
  split
  · exact ⟨rfl, by simp⟩
  · exact ⟨List.takeWhile_append_dropWhile, List.all_eq_true.1 List.all_takeWhile⟩

theorem consumes_readUnsigned (negative : Bool) (text : List Char) :
    Consumes text (readUnsigned negative text) := by
  obtain ⟨split, areDigits⟩ := takeWhole_eq text
  unfold readUnsigned
  split
  · exact consumes_malformed
  · next whole afterWhole _ taken =>
      rw [taken] at split areDigits
      have suffix : afterWhole <:+ text := ⟨whole, split⟩
      have after := ((takeExponent_suffix _).trans (takeFraction_suffix afterWhole)).trans suffix
      dsimp only
      split
      · split
        · next long =>
            have inside : whole <:+: text := ⟨[], afterWhole, split⟩
            exact ⟨by simp, fun _ => ⟨whole, inside, areDigits, long⟩⟩
        · exact consumes_ok after
      · exact consumes_ok after

theorem consumes_readAtom (text : List Char) : Consumes text (readAtom text) := by
  unfold readAtom
  split
  · exact consumes_ok (List.drop_suffix _ _)
  · unfold readNumber
    split
    · exact (consumes_readUnsigned _ _).of_suffix (List.suffix_cons _ _)
    · exact consumes_readUnsigned _ _

/-! ### Collections -/

/-- With some fuel, the readers of collections consume their texts. -/
structure AllConsume (fuel : Nat) : Prop where
  value : ∀ text, Consumes text (readValue fuel text)
  items : ∀ text, Consumes text (readItems fuel text)
  members : ∀ text, Consumes text (readMembers fuel text)

namespace AllConsume

variable {fuel : Nat} (all : AllConsume fuel)

include all

theorem value_succ (text : List Char) : Consumes text (readValue (fuel + 1) text) := by
  unfold readValue
  split
  · exact consumes_malformed
  · next rest _ =>
      refine Consumes.bind ((consumes_readString rest).of_suffix (List.suffix_cons _ _)) ?_
      exact fun content after suffix => consumes_ok suffix
  · next rest same =>
      obtain rfl := Nat.succ.inj same
      have inside := (skipSpace_suffix rest).trans (List.suffix_cons '[' rest)
      split
      · next found => exact consumes_ok ((suffix_of_skipSpace found).trans (List.suffix_cons _ _))
      · refine Consumes.bind ((all.items _).of_suffix inside) ?_
        exact fun items after suffix => consumes_ok suffix
  · next rest same =>
      obtain rfl := Nat.succ.inj same
      have inside := (skipSpace_suffix rest).trans (List.suffix_cons '\x7b' rest)
      split
      · next found => exact consumes_ok ((suffix_of_skipSpace found).trans (List.suffix_cons _ _))
      · refine Consumes.bind ((all.members _).of_suffix inside) ?_
        exact fun members after suffix => consumes_ok suffix
  · refine (consumes_readAtom _).bind ?_
    exact fun scalar after suffix => consumes_ok suffix

theorem items_succ (text : List Char) : Consumes text (readItems (fuel + 1) text) := by
  unfold readItems
  refine (all.value text).bind fun item after suffix => ?_
  dsimp only
  split
  · next rest found => exact consumes_ok ((suffix_of_skipSpace found).trans suffix)
  · next rest found =>
      have later := (suffix_of_skipSpace found).trans suffix
      refine Consumes.bind ((all.items _).of_suffix ((skipSpace_suffix rest).trans later)) ?_
      exact fun items last suffix => consumes_ok suffix
  · exact consumes_malformed

theorem members_succ (text : List Char) : Consumes text (readMembers (fuel + 1) text) := by
  unfold readMembers
  split
  · exact consumes_malformed
  · next rest same =>
      obtain rfl := Nat.succ.inj same
      refine Consumes.bind ((consumes_readString rest).of_suffix (List.suffix_cons _ _)) ?_
      intro name afterName suffix
      dsimp only
      split
      · next afterColon found =>
          have colon := (suffix_of_skipSpace found).trans suffix
          have start := (skipSpace_suffix afterColon).trans colon
          refine Consumes.bind ((all.value _).of_suffix start) fun value after suffix => ?_
          dsimp only
          split
          · next last => exact consumes_ok ((suffix_of_skipSpace last).trans suffix)
          · next later found =>
              have comma := (suffix_of_skipSpace found).trans suffix
              have start := (skipSpace_suffix later).trans comma
              refine Consumes.bind ((all.members _).of_suffix start) ?_
              exact fun members last suffix => consumes_ok suffix
          · exact consumes_malformed
      · exact consumes_malformed
  · exact consumes_malformed

end AllConsume

theorem allConsume (fuel : Nat) : AllConsume fuel := by
  induction fuel with
  | zero =>
      constructor <;> intro text <;> simpa [readValue, readItems, readMembers] using
        consumes_malformed
  | succ fuel ih => exact ⟨ih.value_succ, ih.items_succ, ih.members_succ⟩

/-- A document with a number that is too long has its digits in its text. -/
theorem hasLongRun_of_read {text : List Char} (failed : read text = .error .longNumber) :
    HasLongRun text := by
  rcases bind_eq_error_iff.1 failed with unread | ⟨⟨value, rest⟩, -, unfinished⟩
  · exact (((allConsume _).value _).long unread).of_suffix (skipSpace_suffix text)
  · dsimp only at unfinished
    split at unfinished
    · cases unfinished
    · cases unfinished

end ClosureCapture.Json
