import ClosureCapture.Yaml.Number

/-!
# Whole numbers without a value

A text can be spelled as a whole number and still have no value: the mark of a base with no digit
behind it, or more decimal digits than are read.  This file proves that nothing else is missing.
The marks between digits are dropped before a number is read, and what is left of its parts are
digits of its base.
-/

namespace ClosureCapture.Yaml

/-! ### Digits -/

/-- A text of digits of a base up to sixteen. -/
def AreDigits (base : Nat) (text : List Char) : Prop :=
  ∀ digit ∈ text, ∃ value < base, Text.hexValue? digit = some value

theorem toNat_lt_of_hexValue? {digit : Char} {value : Nat}
    (isDigit : Text.hexValue? digit = some value) : digit.toNat < 128 := by
  unfold Text.hexValue? at isDigit
  dsimp only at isDigit
  repeat' split at isDigit
  all_goals first | omega | cases isDigit

/-- A digit is no blank, and it is not replaced. -/
theorem hexDigit_fixed {digit : Char} {value : Nat} (isDigit : Text.hexValue? digit = some value) :
    isNumberBlank digit = false ∧ numberText [digit] = [digit] := by
  have all : ∀ code < 128, (Text.hexValue? (Char.ofNat code)).isSome = true →
      isNumberBlank (Char.ofNat code) = false ∧
        numberText [Char.ofNat code] = [Char.ofNat code] := by
    decide +kernel
  have fixed := all digit.toNat (toNat_lt_of_hexValue? isDigit)
  rw [Char.ofNat_toNat, isDigit] at fixed
  exact fixed rfl

/-- A digit is not taken for the mark of its base. -/
theorem hexDigit_unmarked {digit : Char} {value : Nat}
    (isDigit : Text.hexValue? digit = some value) :
    digit.toLower ≠ 'x' ∧ digit.toLower ≠ 'o' ∧ (digit.toLower = 'b' → 2 ≤ value) := by
  have all : ∀ code < 128, (Text.hexValue? (Char.ofNat code)).all (fun value =>
      (Char.ofNat code).toLower ≠ 'x' ∧ (Char.ofNat code).toLower ≠ 'o' ∧
        ((Char.ofNat code).toLower = 'b' → 2 ≤ value)) = true := by
    decide +kernel
  have fixed := all digit.toNat (toNat_lt_of_hexValue? isDigit)
  rw [Char.ofNat_toNat, isDigit, Option.all_some] at fixed
  exact of_decide_eq_true fixed

theorem dropWhile_isNumberBlank {text : List Char}
    (visible : ∀ character ∈ text, isNumberBlank character = false) :
    text.dropWhile isNumberBlank = text := by
  cases text with
  | nil => rfl
  | cons first rest => simp [visible first (by simp)]

theorem numberText_of_fixed {text : List Char}
    (fixed : ∀ character ∈ text,
      isNumberBlank character = false ∧ numberText [character] = [character]) :
    numberText text = text := by
  have visible : ∀ character ∈ text, isNumberBlank character = false :=
    fun character member => (fixed character member).1
  have trimmed := dropWhile_isNumberBlank fun character member =>
    visible character (List.mem_reverse.1 member)
  dsimp only [numberText]
  rw [dropWhile_isNumberBlank visible, trimmed, List.reverse_reverse]
  refine (List.map_congr_left fun character member => ?_).trans (List.map_id text)
  obtain ⟨blank, same⟩ := fixed character member
  simpa [numberText, blank] using same

variable {base : Nat} {digits : List Char}

theorem AreDigits.numberText_eq (areDigits : AreDigits base digits) :
    numberText digits = digits := by
  apply numberText_of_fixed
  intro digit member
  obtain ⟨value, -, isDigit⟩ := areDigits digit member
  exact hexDigit_fixed isDigit

theorem AreDigits.splitSign_eq (areDigits : AreDigits base digits) :
    splitSign digits = (false, digits) := by
  unfold splitSign
  split
  · obtain ⟨value, -, isDigit⟩ := areDigits '-' (by simp)
    cases isDigit
  · obtain ⟨value, -, isDigit⟩ := areDigits '+' (by simp)
    cases isDigit
  · rfl

theorem AreDigits.readDigits?_eq_none_iff (areDigits : AreDigits base digits) :
    readDigits? base digits = none ↔ digits = [] := by
  have read : ∀ start : Nat, (digits.foldlM (fun value digit =>
      (Text.hexValue? digit).bind fun next =>
        if next < base then some (value * base + next) else none) start).isSome = true := by
    induction digits with
    | nil => simp
    | cons digit digits ih =>
        intro start
        obtain ⟨first, later⟩ := List.forall_mem_cons.1 areDigits
        obtain ⟨value, small, isDigit⟩ := first
        simpa [isDigit, small] using ih later _
  rw [readDigits?]
  split
  · next empty => simpa using empty
  · next nonempty =>
      have found := Option.isSome_iff_ne_none.1 (read 0)
      simp_all

theorem AreDigits.readSigned?_eq_none_iff (areDigits : AreDigits base digits) {mark : Char}
    (unmarked : dropBaseMark mark digits = digits) :
    readSigned? (readDigits? base) mark digits = none ↔ digits = [] := by
  simp [readSigned?, areDigits.numberText_eq, areDigits.splitSign_eq, unmarked,
    areDigits.readDigits?_eq_none_iff]

theorem AreDigits.readDecimalInteger?_eq_none_iff (areDigits : AreDigits 10 digits) :
    readDecimalInteger? digits = none ↔ digits = [] ∨ digitLimit < digits.length := by
  simp only [readDecimalInteger?, areDigits.numberText_eq, areDigits.splitSign_eq, readDecimal?,
    Option.map_eq_none_iff]
  split
  · next short =>
      rw [areDigits.readDigits?_eq_none_iff]
      simp [Nat.not_lt.2 short]
  · next long => simp [Nat.not_le.1 long]

/-! ### Parts between colons -/

theorem splitColons_ne_nil (text : List Char) : splitColons text ≠ [] := by
  fun_induction splitColons text <;> simp_all

theorem splitColons_filter (text : List Char) :
    splitColons (text.filter (· != '_')) = (splitColons text).map (·.filter (· != '_')) := by
  fun_induction splitColons text with
  | case1 => rfl
  | case2 rest ih => simpa [splitColons] using ih
  | case3 first rest notColon nothing ih => exact absurd nothing (splitColons_ne_nil rest)
  | case4 first rest notColon part parts found ih =>
      by_cases mark : first = '_'
      · simpa [mark, found] using ih
      · rw [List.filter_cons_of_pos (by simpa using mark), splitColons, ih, found]
        · simp [mark]
        · exact notColon

theorem head?_splitColons (text : List Char) :
    (splitColons text).head? = some (text.takeWhile (· != ':')) := by
  fun_induction splitColons text with
  | case1 => rfl
  | case2 rest ih => simp
  | case3 first rest notColon nothing ih => exact absurd nothing (splitColons_ne_nil rest)
  | case4 first rest notColon part parts found ih => simp_all

theorem takeWhile_of_splitColons {text whole : List Char} {parts : List (List Char)}
    (split : splitColons text = whole :: parts) : text.takeWhile (· != ':') = whole := by
  have head := head?_splitColons text
  rw [split, List.head?_cons] at head
  exact (Option.some.inj head).symm

theorem foldlM_parts_eq_none_iff {parts : List (List Char)} {start : Int} :
    parts.foldlM (fun value part => (readDecimalInteger? part).map (value * 60 + ·)) start = none ↔
      ∃ part ∈ parts, readDecimalInteger? part = none := by
  induction parts generalizing start with
  | nil => simp
  | cons part parts ih =>
      rw [List.foldlM_cons]
      cases found : readDecimalInteger? part with
      | none => simp [found]
      | some value => simpa [found] using ih

/-! ### Whole numbers -/

theorem hexValue?_of_isDigit {digit : Char} (isDigit : digit.isDigit = true) :
    ∃ value < 10, Text.hexValue? digit = some value := by
  have all : ∀ code < 128, (Char.ofNat code).isDigit = true →
      ∃ value < 10, Text.hexValue? (Char.ofNat code) = some value := by
    decide +kernel
  have small : digit.toNat < 128 := by
    simp only [Char.isDigit, Bool.and_eq_true, decide_eq_true_eq] at isDigit
    have := isDigit.2
    rw [UInt32.le_iff_toNat_le] at this
    exact Nat.lt_of_le_of_lt this (by decide)
  have found := all digit.toNat small
  rw [Char.ofNat_toNat] at found
  exact found isDigit

theorem areDigits_filter {text : List Char} {spelling : Char → Bool}
    (digitOrMark : ∀ character, spelling character = true →
      character = '_' ∨ ∃ value < base, Text.hexValue? character = some value)
    (spelled : text.all spelling = true) : AreDigits base (text.filter (· != '_')) := by
  intro digit member
  obtain ⟨inside, notMark⟩ := List.mem_filter.1 member
  refine (digitOrMark digit (List.all_eq_true.1 spelled digit inside)).resolve_left ?_
  rintro rfl
  cases notMark

theorem binary_digitOrMark (character : Char) (spelled : "01_".contains character = true) :
    character = '_' ∨ ∃ value < 2, Text.hexValue? character = some value := by
  simp only [String.contains_char_eq, String.reduceToList, List.mem_cons, List.not_mem_nil,
    or_false, decide_eq_true_eq] at spelled
  rcases spelled with rfl | rfl | rfl <;> decide

theorem octal_digitOrMark (character : Char) (spelled : "01234567_".contains character = true) :
    character = '_' ∨ ∃ value < 8, Text.hexValue? character = some value := by
  simp only [String.contains_char_eq, String.reduceToList, List.mem_cons, List.not_mem_nil,
    or_false, decide_eq_true_eq] at spelled
  rcases spelled with rfl | rfl | rfl | rfl | rfl | rfl | rfl | rfl | rfl <;> decide

theorem decimal_digitOrMark (character : Char) (spelled : isDigitOrMark character = true) :
    character = '_' ∨ ∃ value < 10, Text.hexValue? character = some value := by
  simp only [isDigitOrMark, Bool.or_eq_true, beq_iff_eq] at spelled
  exact spelled.symm.imp_right hexValue?_of_isDigit

theorem hexadecimal_digitOrMark (character : Char)
    (spelled : (character == '_' || (Text.hexValue? character).isSome) = true) :
    character = '_' ∨ ∃ value < 16, Text.hexValue? character = some value := by
  simp only [Bool.or_eq_true, beq_iff_eq, Option.isSome_iff_exists] at spelled
  refine spelled.imp_right fun ⟨value, found⟩ => ⟨value, ?_, found⟩
  unfold Text.hexValue? at found
  dsimp only at found
  repeat' split at found
  all_goals cases found
  all_goals omega

/-- A whole number without its sign that cannot be read: it has the mark of a base but no digit, or
too many digits before its first colon. -/
inductive Unreadable : List Char → Prop
  | digitless {mark : Char} {marks : List Char} : mark = 'b' ∨ mark = 'x' →
      (∀ other ∈ marks, other = '_') → Unreadable ('0' :: mark :: marks)
  | long {text : List Char} : text.head? ≠ some '0' →
      digitLimit < ((text.takeWhile (· != ':')).filter (· != '_')).length → Unreadable text

theorem digits_of_isSixtieth {part : List Char} (sixtieth : isSixtieth part = true) :
    (∀ digit ∈ part, digit.isDigit = true) ∧ part ≠ [] ∧ part.length ≤ digitLimit := by
  unfold isSixtieth at sixtieth
  split at sixtieth
  · next last => exact ⟨by simpa using sixtieth, by simp, by simp [digitLimit]⟩
  · next first last =>
      simp only [Bool.and_eq_true, decide_eq_true_eq] at sixtieth
      obtain ⟨⟨above, below⟩, lastIs⟩ := sixtieth
      have firstIs : first.isDigit = true := by
        simp only [Char.isDigit, Bool.and_eq_true, decide_eq_true_eq]
        exact ⟨above, UInt32.le_trans below (by decide)⟩
      exact ⟨by simp [firstIs, lastIs], by simp, by simp [digitLimit]⟩
  · cases sixtieth

/-- A part below sixty can be read. -/
theorem readDecimalInteger?_sixtieth {part : List Char} (sixtieth : isSixtieth part = true) :
    readDecimalInteger? (part.filter (· != '_')) ≠ none := by
  obtain ⟨areDigits, nonempty, short⟩ := digits_of_isSixtieth sixtieth
  have kept : part.filter (· != '_') = part := by
    rw [List.filter_eq_self]
    intro digit member
    rw [bne_iff_ne]
    rintro rfl
    cases areDigits _ member
  have read : AreDigits 10 part := fun digit member => hexValue?_of_isDigit (areDigits digit member)
  rw [kept, Ne, read.readDecimalInteger?_eq_none_iff]
  simp [nonempty, short]

theorem filter_mark_eq_nil_iff {text : List Char} :
    text.filter (· != '_') = [] ↔ ∀ other ∈ text, other = '_' := by
  simp

theorem dropBaseMark_of_head {mark : Char} {digits : List Char}
    (unmarked : ∀ digit ∈ digits, digit.toLower ≠ mark) : dropBaseMark mark digits = digits := by
  unfold dropBaseMark
  split
  · next given rest => rw [if_neg (unmarked given (by simp))]
  · rfl

theorem Unreadable.of_base {mark : Char} {marks : List Char} (isMark : mark = 'b' ∨ mark = 'x') :
    Unreadable ('0' :: mark :: marks) ↔ marks.filter (· != '_') = [] := by
  rw [filter_mark_eq_nil_iff]
  constructor
  · intro unreadable
    cases unreadable with
    | digitless _ only => exact only
    | long other => simp at other
  · exact .digitless isMark

/-- A number in base ten or sixty is read unless its first part is too long. -/
theorem readUnsignedInteger?_decimal_eq_none_iff {first : Char} {rest whole : List Char}
    {parts : List (List Char)} (notZero : first ≠ '0') (firstIs : first.isDigit = true)
    (split : splitColons (first :: rest) = whole :: parts)
    (wholeIs : whole.all isDigitOrMark = true) (partsAre : parts.all isSixtieth = true) :
    readUnsignedInteger? ((first :: rest).filter (· != '_')) = none ↔
      digitLimit < (whole.filter (· != '_')).length := by
  have visible : first ≠ '_' ∧ first ≠ ':' := by
    constructor <;> (rintro rfl; cases firstIs)
  have kept : (first :: rest).filter (· != '_') = first :: rest.filter (· != '_') := by
    simp [visible.1]
  have decimal : readUnsignedInteger? (first :: rest.filter (· != '_')) =
      (splitColons (first :: rest.filter (· != '_'))).foldlM
        (fun value part => (readDecimalInteger? part).map (value * 60 + ·)) 0 := by
    unfold readUnsignedInteger?
    split <;> simp_all
  have areDigits : AreDigits 10 (whole.filter (· != '_')) :=
    areDigits_filter decimal_digitOrMark wholeIs
  have nonempty : whole.filter (· != '_') ≠ [] := by
    rw [← takeWhile_of_splitColons split]
    simp [visible]
  rw [kept, decimal, ← kept, splitColons_filter, split, foldlM_parts_eq_none_iff]
  constructor
  · rintro ⟨part, member, unread⟩
    obtain ⟨original, listed, rfl⟩ := List.mem_map.1 member
    rcases List.mem_cons.1 listed with rfl | later
    · exact (areDigits.readDecimalInteger?_eq_none_iff.1 unread).resolve_left nonempty
    · have sixtieth := List.all_eq_true.1 partsAre original later
      exact absurd unread (readDecimalInteger?_sixtieth sixtieth)
  · intro long
    exact ⟨_, by simp, areDigits.readDecimalInteger?_eq_none_iff.2 (.inr long)⟩

theorem AreDigits.readUnsignedInteger?_octal {digits : List Char} (areDigits : AreDigits 8 digits) :
    readUnsignedInteger? ('0' :: digits) ≠ none := by
  have octal : AreDigits 8 ('0' :: digits) :=
    List.forall_mem_cons.2 ⟨⟨0, by decide, by decide⟩, areDigits⟩
  unfold readUnsignedInteger?
  split
  · simp
  · next later same =>
      obtain ⟨value, small, isDigit⟩ := octal 'b' (by simp [same])
      obtain rfl : 11 = value := Option.some.inj isDigit
      omega
  · next later same =>
      obtain ⟨value, -, isDigit⟩ := octal 'x' (by simp [same])
      cases isDigit
  · next later _ _ _ same =>
      rw [same] at octal
      rw [Ne, octal.readSigned?_eq_none_iff (dropBaseMark_of_head fun digit member => ?_)]
      · simp
      · obtain ⟨value, -, isDigit⟩ := octal digit member
        exact (hexDigit_unmarked isDigit).2.1
  · next other => exact absurd rfl (other _)

theorem readUnsignedInteger?_eq_none_iff {text : List Char}
    (spelled : isUnsignedInteger text = true) :
    readUnsignedInteger? (text.filter (· != '_')) = none ↔ Unreadable text := by
  -- The cases are those of the spelling: nothing, zero, and base two, sixteen, eight and ten.
  unfold isUnsignedInteger at spelled
  split at spelled
  · cases spelled
  · refine iff_of_false (by decide) fun unreadable => ?_
    cases unreadable with
    | long other => simp at other
  · next digits =>
      have areDigits := areDigits_filter binary_digitOrMark (Bool.and_eq_true_iff.1 spelled).2
      rw [Unreadable.of_base (.inl rfl)]
      refine areDigits.readSigned?_eq_none_iff (dropBaseMark_of_head fun digit member same => ?_)
      obtain ⟨value, small, isDigit⟩ := areDigits digit member
      have := (hexDigit_unmarked isDigit).2.2 same
      omega
  · next digits =>
      have areDigits := areDigits_filter hexadecimal_digitOrMark (Bool.and_eq_true_iff.1 spelled).2
      rw [Unreadable.of_base (.inr rfl)]
      refine areDigits.readSigned?_eq_none_iff (dropBaseMark_of_head fun digit member => ?_)
      obtain ⟨value, -, isDigit⟩ := areDigits digit member
      exact (hexDigit_unmarked isDigit).1
  · next digits noDigits notBinary notHexadecimal =>
      -- The zero in front is a digit itself, so there is always one to read.
      have kept : List.filter (· != '_') ('0' :: digits) = '0' :: digits.filter (· != '_') := by
        simp
      rw [kept]
      refine iff_of_false (areDigits_filter octal_digitOrMark spelled).readUnsignedInteger?_octal ?_
      intro unreadable
      cases unreadable with
      | digitless isMark =>
          rcases isMark with rfl | rfl
          · exact notBinary _ rfl
          · exact notHexadecimal _ rfl
      | long other => simp at other
  · next first rest _ _ _ notZero =>
      split at spelled
      · cases spelled
      · next whole parts split =>
          simp only [Bool.and_eq_true] at spelled
          obtain ⟨⟨firstIs, wholeIs⟩, partsAre⟩ := spelled
          rw [readUnsignedInteger?_decimal_eq_none_iff notZero firstIs split wholeIs partsAre]
          constructor
          · intro long
            refine .long (by simpa using notZero) ?_
            rwa [← takeWhile_of_splitColons split] at long
          · intro unreadable
            cases unreadable with
            | digitless => exact absurd rfl notZero
            | long _ long => rwa [takeWhile_of_splitColons split] at long

theorem exists_digit_of_isUnsignedInteger {text : List Char}
    (spelled : isUnsignedInteger text = true) :
    ∃ first rest, text = first :: rest ∧ first.isDigit = true := by
  unfold isUnsignedInteger at spelled
  split at spelled
  · cases spelled
  · exact ⟨_, _, rfl, by decide⟩
  · exact ⟨_, _, rfl, by decide⟩
  · exact ⟨_, _, rfl, by decide⟩
  · exact ⟨_, _, rfl, by decide⟩
  · split at spelled
    · cases spelled
    · simp only [Bool.and_eq_true] at spelled
      exact ⟨_, _, rfl, spelled.1.1⟩

theorem splitSign_of_isDigit {first : Char} (isDigit : first.isDigit = true) (rest : List Char) :
    splitSign (first :: rest) = (false, first :: rest) := by
  unfold splitSign
  split
  · next same =>
      obtain ⟨rfl, -⟩ := List.cons.inj same
      cases isDigit
  · next same =>
      obtain ⟨rfl, -⟩ := List.cons.inj same
      cases isDigit
  · rfl

theorem splitSign_filter {text : List Char} (spelled : isInteger text = true) :
    (splitSign (text.filter (· != '_'))).2 = (splitSign text).2.filter (· != '_') := by
  unfold isInteger at spelled
  fun_cases splitSign text with
  | case1 rest => rfl
  | case2 rest => rfl
  | case3 text notMinus notPlus =>
      rw [splitSign.eq_3 _ notMinus notPlus] at spelled
      obtain ⟨first, rest, rfl, isDigit⟩ := exists_digit_of_isUnsignedInteger spelled
      have visible : first ≠ '_' := by
        rintro rfl
        cases isDigit
      simp [visible, splitSign_of_isDigit isDigit]

/-- A text that is spelled as a whole number has no value if its digits are missing or too many. -/
theorem readInteger_eq_error_iff {text : List Char} (spelled : isInteger text = true)
    {fault : Fault} :
    readInteger text = .error fault ↔ fault = .outOfRange ∧ Unreadable (splitSign text).2 := by
  obtain ⟨first, rest, body, isDigit⟩ := exists_digit_of_isUnsignedInteger spelled
  have nonempty : (splitSign (text.filter (· != '_'))).2.isEmpty = false := by
    rw [splitSign_filter spelled, body, List.isEmpty_eq_false_iff, Ne, filter_mark_eq_nil_iff]
    intro only
    rw [only first (by simp)] at isDigit
    cases isDigit
  rw [← readUnsignedInteger?_eq_none_iff spelled, ← splitSign_filter spelled]
  simp only [readInteger, nonempty]
  cases readUnsignedInteger? (splitSign (text.filter (· != '_'))).2 with
  | none => simp [eq_comm]
  | some value => simp

end ClosureCapture.Yaml
