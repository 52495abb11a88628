import ClosureCapture.Proofs.Yaml.Integer

/-!
# Floating point numbers without a value

A text that is spelled as a floating point number has a value, unless it has so many digits of base
sixty that the power of sixty for the first of them is beyond all numbers.  The parts between its
colons are each digits around a point, whatever marks and capitals they are written with.
-/

namespace ClosureCapture.Yaml

/-! ### Digits around a point -/

/-- A text of decimal digits. -/
def AllDigits (text : List Char) : Prop :=
  ∀ digit ∈ text, digit.isDigit = true

/-- An exponent with its sign, or nothing. -/
inductive IsPower : List Char → Prop
  | nothing : IsPower []
  | signed {sign : Char} {digits : List Char} : sign = '-' ∨ sign = '+' → AllDigits digits →
      digits ≠ [] → IsPower ('e' :: sign :: digits)

/-- Digits, or digits around a point with an exponent behind them. -/
inductive IsFraction : List Char → Prop
  | whole {digits : List Char} : AllDigits digits → digits ≠ [] → IsFraction digits
  | pointed {whole fraction exponent : List Char} : AllDigits whole → AllDigits fraction →
      whole ++ fraction ≠ [] → IsPower exponent →
      IsFraction (whole ++ '.' :: (fraction ++ exponent))

theorem AllDigits.areDigits {text : List Char} (digits : AllDigits text) : AreDigits 10 text :=
  fun digit member => hexValue?_of_isDigit (digits digit member)

theorem AllDigits.append {first second : List Char} (digits : AllDigits first)
    (others : AllDigits second) : AllDigits (first ++ second) := by
  intro digit member
  rcases List.mem_append.1 member with front | back
  · exact digits digit front
  · exact others digit back

theorem AllDigits.readDigits?_isSome {text : List Char} (digits : AllDigits text)
    (nonempty : text ≠ []) : (readDigits? 10 text).isSome = true := by
  rw [Option.isSome_iff_ne_none, Ne, digits.areDigits.readDigits?_eq_none_iff]
  exact nonempty

theorem AllDigits.notMem {text : List Char} {mark : Char} (digits : AllDigits text)
    (other : mark.isDigit = false) : mark ∉ text := by
  intro member
  simp [digits mark member] at other

/-- A text is cut where a mark stands that it does not have before. -/
theorem cut_at_mark {text rest : List Char} {mark : Char} (absent : mark ∉ text)
    (stops : ∀ first ∈ rest.head?, first = mark) :
    (text ++ rest).takeWhile (· != mark) = text ∧ (text ++ rest).dropWhile (· != mark) = rest := by
  have passes : ∀ character ∈ text, (character != mark) = true := by
    intro character member
    rw [bne_iff_ne]
    rintro rfl
    exact absent member
  rw [List.takeWhile_append_of_pos passes, List.dropWhile_append_of_pos passes]
  cases rest with
  | nil => simp
  | cons first rest => simp [stops first rfl]

theorem IsPower.head? {exponent : List Char} (power : IsPower exponent) :
    ∀ first ∈ exponent.head?, first = 'e' := by
  cases power <;> simp

theorem IsFraction.readFraction?_isSome {text : List Char} (fraction : IsFraction text) :
    (readFraction? text).isSome = true := by
  cases fraction with
  | whole digits nonempty =>
      obtain ⟨mantissa, exponent⟩ :=
        @cut_at_mark text [] 'e' (digits.notMem (by decide)) (by simp)
      obtain ⟨whole, point⟩ := @cut_at_mark text [] '.' (digits.notMem (by decide)) (by simp)
      rw [List.append_nil] at mantissa exponent whole point
      obtain ⟨value, read⟩ := Option.isSome_iff_exists.1 (digits.readDigits?_isSome nonempty)
      simp [readFraction?, mantissa, exponent, whole, point, read]
  | @pointed before behind power digits others nonempty isPower =>
      have plain : 'e' ∉ before ++ '.' :: behind := by
        have letter : 'e'.isDigit = false := by decide
        simp [digits.notMem letter, others.notMem letter]
      obtain ⟨mantissa, exponent⟩ := cut_at_mark plain isPower.head?
      rw [List.append_assoc, List.cons_append] at mantissa exponent
      obtain ⟨whole, point⟩ :=
        @cut_at_mark before ('.' :: behind) '.' (digits.notMem (by decide)) (by simp)
      obtain ⟨value, read⟩ :=
        Option.isSome_iff_exists.1 ((digits.append others).readDigits?_isSome nonempty)
      cases isPower with
      | nothing =>
          rw [List.append_nil] at mantissa exponent ⊢
          simp [readFraction?, mantissa, exponent, whole, point, read]
      | signed sign powerDigits something =>
          obtain ⟨size, readPower⟩ :=
            Option.isSome_iff_exists.1 (powerDigits.readDigits?_isSome something)
          rcases sign with rfl | rfl <;>
            simp [readFraction?, mantissa, exponent, whole, point, read, readExponent?, splitSign,
              readPower]

/-- A character of a number that stands for itself. -/
theorem fixed_of_isDigit {digit : Char} (isDigit : digit.isDigit = true) :
    isNumberBlank digit = false ∧ numberText [digit] = [digit] := by
  obtain ⟨value, -, found⟩ := hexValue?_of_isDigit isDigit
  exact hexDigit_fixed found

theorem IsPower.fixed {exponent : List Char} (power : IsPower exponent) :
    ∀ character ∈ exponent,
      isNumberBlank character = false ∧ numberText [character] = [character] := by
  cases power with
  | nothing => simp
  | signed sign digits nonempty =>
      refine List.forall_mem_cons.2 ⟨by decide, List.forall_mem_cons.2 ⟨?_, ?_⟩⟩
      · rcases sign with rfl | rfl <;> decide
      · exact fun digit member => fixed_of_isDigit (digits digit member)

theorem IsFraction.numberText_eq {text : List Char} (fraction : IsFraction text) :
    numberText text = text := by
  apply numberText_of_fixed
  cases fraction with
  | whole digits => exact fun digit member => fixed_of_isDigit (digits digit member)
  | pointed digits others nonempty power =>
      refine List.forall_mem_append.2 ⟨?_, List.forall_mem_cons.2 ⟨by decide, ?_⟩⟩
      · exact fun digit member => fixed_of_isDigit (digits digit member)
      · refine List.forall_mem_append.2 ⟨?_, power.fixed⟩
        exact fun digit member => fixed_of_isDigit (others digit member)

theorem IsFraction.splitSign_eq {text : List Char} (fraction : IsFraction text) :
    splitSign text = (false, text) := by
  cases fraction with
  | @whole digits areDigits nonempty => exact areDigits.areDigits.splitSign_eq
  | @pointed before behind power areDigits _ _ _ =>
      cases before with
      | nil => rfl
      | cons first rest => exact splitSign_of_isDigit (areDigits first (by simp)) _

theorem IsFraction.readUnsignedFloat?_isSome {text : List Char} (fraction : IsFraction text) :
    (readUnsignedFloat? text).isSome = true := by
  simp only [readUnsignedFloat?, fraction.numberText_eq, fraction.splitSign_eq, Option.isSome_map]
  split
  · rfl
  · split
    · rfl
    · exact fraction.readFraction?_isSome

/-! ### Powers of sixty -/

/-- The number of digits of base sixty whose powers of sixty are all numbers. -/
def sixtiethLimit : Nat :=
  174

/-- Whether a number is beyond all others. -/
def isInfinite : Binary64 → Bool
  | .infinity _ => true
  | _ => false

theorem powers_finite :
    ∀ place < sixtiethLimit,
      isInfinite (Binary64.ofQuotient false (Nat.pow 60 place) 1) = false := by
  decide +kernel

theorem sumSixtieths_isSome {digits : List Binary64} {sum : Binary64} {place : Nat}
    (finite : place + digits.length ≤ sixtiethLimit) :
    (sumSixtieths sum (Nat.pow 60 place) digits).isSome = true := by
  induction digits generalizing sum place with
  | nil => rfl
  | cons digit digits ih =>
      rw [List.length_cons] at finite
      have number := powers_finite place (by omega)
      unfold sumSixtieths
      split
      · next negative infinite =>
          rw [infinite] at number
          cases number
      · exact @ih _ (place + 1) (by omega)

theorem power_infinite :
    isInfinite (Binary64.ofQuotient false (Nat.pow 60 sixtiethLimit) 1) = true := by
  decide +kernel

theorem sumSixtieths_eq_none {digits : List Binary64} {sum : Binary64} {place : Nat}
    (reached : place ≤ sixtiethLimit) (beyond : sixtiethLimit < place + digits.length) :
    sumSixtieths sum (Nat.pow 60 place) digits = none := by
  induction digits generalizing sum place with
  | nil => exact absurd reached (Nat.not_le.2 beyond)
  | cons digit digits ih =>
      rw [List.length_cons] at beyond
      unfold sumSixtieths
      split
      · rfl
      · next finite =>
          rcases Nat.lt_or_eq_of_le reached with below | rfl
          · exact @ih _ (place + 1) below (by omega)
          · have infinite := power_infinite
            unfold isInfinite at infinite
            split at infinite
            · next negative found => exact absurd found (finite negative)
            · cases infinite

theorem sumSixtieths_eq_none_iff {digits : List Binary64} {sum : Binary64} :
    sumSixtieths sum 1 digits = none ↔ sixtiethLimit < digits.length := by
  constructor
  · intro missing
    refine Nat.lt_of_not_le fun few => ?_
    have found : (sumSixtieths sum 1 digits).isSome = true :=
      @sumSixtieths_isSome digits sum 0 (by omega)
    simp [missing] at found
  · intro many
    exact @sumSixtieths_eq_none digits sum 0 (Nat.zero_le _) (by omega)

/-! ### Spellings -/

/-- A number as it is read: without marks and in lower case. -/
def plainSpelling (text : List Char) : List Char :=
  (text.filter (· != '_')).map Char.toLower

theorem plainSpelling_append (first second : List Char) :
    plainSpelling (first ++ second) = plainSpelling first ++ plainSpelling second := by
  simp [plainSpelling]

theorem plainSpelling_cons {first : Char} (visible : first ≠ '_') (rest : List Char) :
    plainSpelling (first :: rest) = first.toLower :: plainSpelling rest := by
  simp [plainSpelling, visible]

theorem toLower_of_isDigit {digit : Char} (isDigit : digit.isDigit = true) :
    digit.toLower = digit := by
  simp only [Char.isDigit, Bool.and_eq_true, decide_eq_true_eq] at isDigit
  unfold Char.toLower
  split
  · next upper =>
      have above := UInt32.le_trans upper.1 isDigit.2
      exact absurd above (by decide)
  · rfl

theorem plainSpelling_digit {digit : Char} (isDigit : digit.isDigit = true) (rest : List Char) :
    plainSpelling (digit :: rest) = digit :: plainSpelling rest := by
  have visible : digit ≠ '_' := by
    rintro rfl
    cases isDigit
  rw [plainSpelling_cons visible, toLower_of_isDigit isDigit]

theorem plainSpelling_takeWhile_ne_nil {digit : Char} (isDigit : digit.isDigit = true)
    (rest : List Char) : plainSpelling ((digit :: rest).takeWhile isDigitOrMark) ≠ [] := by
  rw [List.takeWhile_cons_of_pos (by simp [isDigitOrMark, isDigit]), plainSpelling_digit isDigit]
  exact List.cons_ne_nil _ _

theorem toLower_eq_colon_iff {character : Char} : character.toLower = ':' ↔ character = ':' := by
  unfold Char.toLower
  split
  · next upper =>
      refine iff_of_false (fun same => ?_) ?_
      · obtain ⟨above, below⟩ := upper
        have code : character.val + 32 = 58 := congrArg Char.val same
        have sum : (character.val.toNat + 32) % 4294967296 = 58 := congrArg UInt32.toNat code
        have least : 65 ≤ character.val.toNat := UInt32.le_iff_toNat_le.1 above
        have most : character.val.toNat ≤ 90 := UInt32.le_iff_toNat_le.1 below
        omega
      · rintro rfl
        exact absurd upper.1 (by decide)
  · rfl

theorem splitColons_cons {first : Char} (notColon : first ≠ ':') {rest part : List Char}
    {parts : List (List Char)} (split : splitColons rest = part :: parts) :
    splitColons (first :: rest) = (first :: part) :: parts := by
  rw [splitColons, split]
  exact notColon

theorem splitColons_toLower (text : List Char) :
    splitColons (text.map Char.toLower) = (splitColons text).map (·.map Char.toLower) := by
  fun_induction splitColons text with
  | case1 => rfl
  | case2 rest ih => simpa [splitColons] using ih
  | case3 first rest notColon nothing ih => exact absurd nothing (splitColons_ne_nil rest)
  | case4 first rest notColon part parts found ih =>
      rw [found] at ih
      exact splitColons_cons (mt toLower_eq_colon_iff.1 notColon) ih

theorem splitColons_plainSpelling (text : List Char) :
    splitColons (plainSpelling text) = (splitColons text).map plainSpelling := by
  rw [plainSpelling, splitColons_toLower, splitColons_filter, List.map_map]
  rfl

theorem splitColons_of_notMem {text : List Char} (plain : ':' ∉ text) :
    splitColons text = [text] := by
  induction text with
  | nil => rfl
  | cons first rest ih =>
      rw [List.mem_cons, not_or] at plain
      exact splitColons_cons (Ne.symm plain.1) (ih plain.2)

theorem splitColons_append {front rest : List Char} (plain : ':' ∉ front) :
    splitColons (front ++ ':' :: rest) = front :: splitColons rest := by
  induction front with
  | nil => rfl
  | cons first front ih =>
      rw [List.mem_cons, not_or] at plain
      exact splitColons_cons (Ne.symm plain.1) (ih plain.2)

/-- What stands behind the last colon is in the last part. -/
theorem exists_splitColons_append {suffix : List Char} (plain : ':' ∉ suffix) (front : List Char) :
    ∃ parts last, splitColons front = parts ++ [last] ∧
      splitColons (front ++ suffix) = parts ++ [last ++ suffix] := by
  induction front with
  | nil => exact ⟨[], [], rfl, splitColons_of_notMem plain⟩
  | cons first front ih =>
      obtain ⟨parts, last, split, joined⟩ := ih
      by_cases colon : first = ':'
      · subst colon
        exact ⟨[] :: parts, last, by rw [splitColons, split]; rfl,
          by rw [List.cons_append, splitColons, joined]; rfl⟩
      · cases parts with
        | nil =>
            exact ⟨[], first :: last, splitColons_cons colon split, splitColons_cons colon joined⟩
        | cons part parts =>
            exact ⟨(first :: part) :: parts, last, splitColons_cons colon split,
              splitColons_cons colon joined⟩

theorem AllDigits.plainSpelling_eq {text : List Char} (digits : AllDigits text) :
    plainSpelling text = text := by
  induction text with
  | nil => rfl
  | cons first rest ih =>
      obtain ⟨isDigit, later⟩ := List.forall_mem_cons.1 digits
      rw [plainSpelling_digit isDigit, ih later]

theorem allDigits_plainSpelling {text : List Char} (spelled : text.all isDigitOrMark = true) :
    AllDigits (plainSpelling text) := by
  intro digit member
  obtain ⟨character, kept, rfl⟩ := List.mem_map.1 member
  obtain ⟨inside, notMark⟩ := List.mem_filter.1 kept
  have digitOrMark := List.all_eq_true.1 spelled character inside
  simp only [isDigitOrMark, Bool.or_eq_true, beq_iff_eq] at digitOrMark
  rcases digitOrMark with isDigit | rfl
  · rwa [toLower_of_isDigit isDigit]
  · cases notMark

theorem isPower_plainSpelling {text : List Char} (exponent : isExponent text = true) :
    IsPower (plainSpelling text) := by
  unfold isExponent at exponent
  split at exponent
  · exact .nothing
  · next mark sign digits =>
      simp only [Bool.and_eq_true, Bool.or_eq_true, beq_iff_eq, Bool.not_eq_true',
        List.isEmpty_eq_false_iff] at exponent
      obtain ⟨⟨⟨isMark, isSign⟩, nonempty⟩, areDigits⟩ := exponent
      have digitsAre : AllDigits digits := List.all_eq_true.1 areDigits
      have spelled : plainSpelling (mark :: sign :: digits) = 'e' :: sign :: digits := by
        rcases isMark with rfl | rfl <;> rcases isSign with rfl | rfl <;>
          rw [plainSpelling_cons (by decide), plainSpelling_cons (by decide),
            digitsAre.plainSpelling_eq] <;> rfl
      rw [spelled]
      exact .signed isSign digitsAre nonempty
  · cases exponent

theorem notMem_of_isExponent {text : List Char} (exponent : isExponent text = true) :
    ':' ∉ text := by
  unfold isExponent at exponent
  split at exponent
  · simp
  · next mark sign digits =>
      simp only [Bool.and_eq_true, Bool.or_eq_true, beq_iff_eq] at exponent
      obtain ⟨⟨⟨isMark, isSign⟩, -⟩, areDigits⟩ := exponent
      have digitsAre : AllDigits digits := List.all_eq_true.1 areDigits
      rcases isMark with rfl | rfl <;> rcases isSign with rfl | rfl <;>
        simp [digitsAre.notMem (show ':'.isDigit = false by decide)]
  · cases exponent

theorem notMem_of_marks {text : List Char} (spelled : text.all isDigitOrMark = true) :
    ':' ∉ text := by
  intro member
  have digitOrMark := List.all_eq_true.1 spelled ':' member
  cases digitOrMark

/-- Digits around a point that may have marks between them. -/
theorem isFraction_pointed {whole fraction exponent : List Char}
    (wholeIs : whole.all isDigitOrMark = true) (fractionIs : fraction.all isDigitOrMark = true)
    (digit : plainSpelling (whole ++ fraction) ≠ []) (exponentIs : isExponent exponent = true) :
    IsFraction (plainSpelling (whole ++ '.' :: (fraction ++ exponent))) := by
  rw [plainSpelling_append, plainSpelling_cons (by decide), plainSpelling_append]
  rw [plainSpelling_append] at digit
  exact .pointed (allDigits_plainSpelling wholeIs) (allDigits_plainSpelling fractionIs) digit
    (isPower_plainSpelling exponentIs)

theorem isFraction_sixtieth {part : List Char} (sixtieth : isSixtieth part = true) :
    IsFraction (plainSpelling part) := by
  obtain ⟨digits, nonempty, -⟩ := digits_of_isSixtieth sixtieth
  rw [AllDigits.plainSpelling_eq digits]
  exact .whole digits nonempty

/-! ### Parts of a number -/

/-- Every part of a text between its colons is a number. -/
def PartsAreFractions (text : List Char) : Prop :=
  ∀ part ∈ splitColons text, IsFraction (plainSpelling part)

theorem partsAreFractions_pointed {whole rest : List Char}
    (wholeIs : whole.all isDigitOrMark = true)
    (digit : plainSpelling (whole ++ rest.takeWhile isDigitOrMark) ≠ [])
    (exponentIs : isExponent (rest.dropWhile isDigitOrMark) = true) :
    PartsAreFractions (whole ++ '.' :: rest) := by
  have fractionIs : (rest.takeWhile isDigitOrMark).all isDigitOrMark = true := List.all_takeWhile
  have cut : rest.takeWhile isDigitOrMark ++ rest.dropWhile isDigitOrMark = rest :=
    List.takeWhile_append_dropWhile
  have plainRest : ':' ∉ rest := by
    rw [← cut, List.mem_append, not_or]
    exact ⟨notMem_of_marks fractionIs, notMem_of_isExponent exponentIs⟩
  have plain : ':' ∉ whole ++ '.' :: rest := by
    simp [notMem_of_marks wholeIs, plainRest]
  have fraction := isFraction_pointed wholeIs fractionIs digit exponentIs
  rw [cut] at fraction
  simpa [PartsAreFractions, splitColons_of_notMem plain] using fraction

theorem partsAreFractions_sixtieths {whole front fraction : List Char}
    (wholeIs : whole.all isDigitOrMark = true) (digit : plainSpelling whole ≠ [])
    (sixtieths : (splitColons front).all isSixtieth = true)
    (fractionIs : fraction.all isDigitOrMark = true) :
    PartsAreFractions (whole ++ ':' :: (front ++ '.' :: fraction)) := by
  have plain : ':' ∉ '.' :: fraction := by
    simp [notMem_of_marks fractionIs]
  obtain ⟨parts, last, split, joined⟩ := exists_splitColons_append plain front
  rw [split, List.all_append, Bool.and_eq_true] at sixtieths
  obtain ⟨earlier, final⟩ := sixtieths
  have lastIs : isSixtieth last = true := by
    simpa using final
  rw [PartsAreFractions, splitColons_append (notMem_of_marks wholeIs), joined]
  refine List.forall_mem_cons.2 ⟨?_, List.forall_mem_append.2 ⟨?_, ?_⟩⟩
  · exact .whole (allDigits_plainSpelling wholeIs) digit
  · exact fun part member => isFraction_sixtieth (List.all_eq_true.1 earlier part member)
  · rw [List.forall_mem_singleton]
    obtain ⟨lastDigits, nonempty, -⟩ := digits_of_isSixtieth lastIs
    have marks : last.all isDigitOrMark = true := by
      rw [List.all_eq_true]
      intro digit member
      simp [isDigitOrMark, lastDigits digit member]
    have visible : plainSpelling (last ++ fraction) ≠ [] := by
      rw [plainSpelling_append, AllDigits.plainSpelling_eq lastDigits]
      simp [nonempty]
    have pointed := @isFraction_pointed last fraction [] marks fractionIs visible rfl
    rwa [List.append_nil] at pointed

theorem partsAreFractions_of_isWholeAndFraction {text : List Char}
    (spelled : isWholeAndFraction text = true) : PartsAreFractions text := by
  rw [isWholeAndFraction, Bool.and_eq_true] at spelled
  obtain ⟨head, shape⟩ := spelled
  have wholeIs : (text.takeWhile isDigitOrMark).all isDigitOrMark = true := List.all_takeWhile
  have cut : text.takeWhile isDigitOrMark ++ text.dropWhile isDigitOrMark = text :=
    List.takeWhile_append_dropWhile
  have digit : plainSpelling (text.takeWhile isDigitOrMark) ≠ [] := by
    cases text with
    | nil => cases head
    | cons first rest =>
        exact plainSpelling_takeWhile_ne_nil (by simpa using head) rest
  split at shape
  · next rest found =>
      rw [found] at cut
      rw [← cut]
      refine partsAreFractions_pointed wholeIs ?_ shape
      rw [plainSpelling_append]
      simp [digit]
  · next rest found =>
      rw [found] at cut
      simp only [Bool.and_eq_true] at shape
      obtain ⟨sixtieths, last⟩ := shape
      split at last
      · next fraction behind =>
          have inner : rest.takeWhile (· != '.') ++ rest.dropWhile (· != '.') = rest :=
            List.takeWhile_append_dropWhile
          rw [behind] at inner
          rw [← cut, ← inner]
          exact partsAreFractions_sixtieths wholeIs digit sixtieths last
      · cases last
  · cases shape

/-- What a floating point number is without its sign. -/
inductive IsMagnitude : List Char → Prop
  | word {text : List Char} : plainSpelling text = ".inf".toList ∨
      plainSpelling text = ".nan".toList → IsMagnitude text
  | parts {text : List Char} : PartsAreFractions text → IsMagnitude text

theorem isMagnitude_of_isFloat {text : List Char} (spelled : isFloat text = true) :
    IsMagnitude (splitSign text).2 := by
  simp only [isFloat, Bool.or_eq_true, List.contains_iff_mem] at spelled
  rcases spelled with ((infinite | missing) | whole) | pointed
  · have all : ∀ word ∈ infinityWords, plainSpelling word = ".inf".toList := by decide
    exact .word (.inl (all _ infinite))
  · have all : ∀ word ∈ nanWords, plainSpelling (splitSign word).2 = ".nan".toList := by decide
    exact .word (.inr (all _ missing))
  · exact .parts (partsAreFractions_of_isWholeAndFraction whole)
  · split at pointed
    · next first rest =>
        rw [Bool.and_eq_true] at pointed
        obtain ⟨isDigit, exponentIs⟩ := pointed
        refine .parts (@partsAreFractions_pointed [] (first :: rest) rfl ?_ ?_)
        · exact plainSpelling_takeWhile_ne_nil isDigit rest
        · rwa [List.dropWhile_cons_of_pos (by simp [isDigitOrMark, isDigit])]
    · cases pointed

/-- A number without a sign starts with a digit or a point. -/
theorem head_of_isFloat {first : Char} {rest : List Char}
    (unsigned : (splitSign (first :: rest)).2 = first :: rest)
    (spelled : isFloat (first :: rest) = true) : first.isDigit = true ∨ first = '.' := by
  simp only [isFloat, unsigned, Bool.or_eq_true, List.contains_iff_mem] at spelled
  rcases spelled with ((infinite | missing) | whole) | pointed
  · have all : ∀ word ∈ infinityWords, word.head? = some '.' := by decide
    exact .inr (Option.some.inj (all _ infinite))
  · have all : ∀ word ∈ nanWords, word.head? = some '.' := by decide
    exact .inr (Option.some.inj (all _ missing))
  · rw [isWholeAndFraction, Bool.and_eq_true] at whole
    exact .inl (by simpa using whole.1)
  · split at pointed
    · next same => exact .inr (List.cons.inj same).1
    · cases pointed

/-- A number keeps its sign when it is spelled plainly. -/
theorem splitSign_plainSpelling {text : List Char} (spelled : isFloat text = true) :
    (splitSign (plainSpelling text)).2 = plainSpelling (splitSign text).2 := by
  cases text with
  | nil => rfl
  | cons first rest =>
      by_cases signed : first = '-' ∨ first = '+'
      · rcases signed with rfl | rfl <;> rw [plainSpelling_cons (by decide)] <;> rfl
      · rw [not_or] at signed
        have unsigned : (splitSign (first :: rest)).2 = first :: rest := by
          simp [splitSign, signed]
        rw [unsigned]
        rcases head_of_isFloat unsigned spelled with isDigit | rfl
        · rw [plainSpelling_digit isDigit, splitSign_of_isDigit isDigit]
        · rw [plainSpelling_cons (by decide)]
          rfl

/-- A sign stands in the first part. -/
theorem length_splitColons_splitSign (text : List Char) :
    (splitColons (splitSign text).2).length = (splitColons text).length := by
  have signed : ∀ sign rest, sign ≠ ':' →
      (splitColons rest).length = (splitColons (sign :: rest)).length := by
    intro sign rest notColon
    obtain ⟨part, parts, split⟩ := List.exists_cons_of_ne_nil (splitColons_ne_nil rest)
    rw [splitColons_cons notColon split, split]
    rfl
  unfold splitSign
  split
  · exact signed _ _ (by decide)
  · exact signed _ _ (by decide)
  · rfl

theorem eq_of_splitColons {text part : List Char} (single : splitColons text = [part]) :
    part = text := by
  induction text generalizing part with
  | nil => exact (List.singleton_inj.1 single).symm
  | cons first rest ih =>
      obtain ⟨next, parts, split⟩ := List.exists_cons_of_ne_nil (splitColons_ne_nil rest)
      by_cases colon : first = ':'
      · subst colon
        rw [splitColons, split] at single
        cases single
      · rw [splitColons_cons colon split, List.cons.injEq] at single
        obtain ⟨rfl, rfl⟩ := single
        rw [ih split]

/-! ### Reading -/

theorem exists_mapM {Given Read : Type} {read : Given → Option Read} {given : List Given}
    (reads : ∀ item ∈ given, (read item).isSome = true) :
    ∃ values, given.mapM read = some values ∧ values.length = given.length := by
  induction given with
  | nil => exact ⟨[], rfl, rfl⟩
  | cons item given ih =>
      obtain ⟨first, later⟩ := List.forall_mem_cons.1 reads
      obtain ⟨value, found⟩ := Option.isSome_iff_exists.1 first
      obtain ⟨values, others, sameLength⟩ := ih later
      exact ⟨value :: values, by simp [List.mapM_cons, found, others], by simp [sameLength]⟩

/-- The value of a number in lower case without its sign and without marks. -/
def readMagnitude? (body : List Char) : Option Binary64 :=
  if body = ".inf".toList then some (.infinity false)
  else if body = ".nan".toList then some .nan
  else
    match splitColons body with
    | [_] => readUnsignedFloat? body
    | parts => (parts.reverse.mapM readUnsignedFloat?).bind (sumSixtieths (.zero false) 1)

theorem readFloat_eq_error_iff_readMagnitude? {text : List Char} {fault : Fault}
    (visible : plainSpelling text ≠ []) :
    readFloat text = .error fault ↔
      fault = .outOfRange ∧ readMagnitude? (splitSign (plainSpelling text)).2 = none := by
  unfold readFloat
  rw [← plainSpelling]
  dsimp only
  rw [if_neg (by simpa using visible)]
  split
  · next value found =>
      have read : readMagnitude? (splitSign (plainSpelling text)).2 = some value := found
      simp [read]
  · next missing =>
      have read : readMagnitude? (splitSign (plainSpelling text)).2 = none := missing
      simp [read, eq_comm]

theorem PartsAreFractions.sum_eq_none_iff {text : List Char} (parts : PartsAreFractions text) :
    ((splitColons (plainSpelling text)).reverse.mapM readUnsignedFloat?).bind
      (sumSixtieths (.zero false) 1) = none ↔ sixtiethLimit < (splitColons text).length := by
  have reads : ∀ part ∈ (splitColons (plainSpelling text)).reverse,
      (readUnsignedFloat? part).isSome = true := by
    intro part member
    rw [List.mem_reverse, splitColons_plainSpelling] at member
    obtain ⟨spelled, inside, rfl⟩ := List.mem_map.1 member
    exact (parts spelled inside).readUnsignedFloat?_isSome
  obtain ⟨values, found, sameLength⟩ := exists_mapM reads
  rw [List.length_reverse, splitColons_plainSpelling, List.length_map] at sameLength
  rw [found, Option.bind_some, sumSixtieths_eq_none_iff, sameLength]

theorem PartsAreFractions.single_isSome {text part : List Char} (parts : PartsAreFractions text)
    (single : splitColons (plainSpelling text) = [part]) :
    (readUnsignedFloat? (plainSpelling text)).isSome = true := by
  rw [splitColons_plainSpelling, List.map_eq_singleton_iff] at single
  obtain ⟨whole, split, -⟩ := single
  have same := eq_of_splitColons split
  subst same
  exact (parts whole (by simp [split])).readUnsignedFloat?_isSome

theorem IsMagnitude.readMagnitude?_eq_none_iff {text : List Char} (magnitude : IsMagnitude text) :
    readMagnitude? (plainSpelling text) = none ↔ sixtiethLimit < (splitColons text).length := by
  have sameLength : (splitColons (plainSpelling text)).length = (splitColons text).length := by
    rw [splitColons_plainSpelling, List.length_map]
  rw [← sameLength]
  by_cases infinite : plainSpelling text = ".inf".toList
  · rw [infinite]
    decide
  · by_cases missing : plainSpelling text = ".nan".toList
    · rw [missing]
      decide
    · cases magnitude with
      | word words => exact absurd words (not_or.2 ⟨infinite, missing⟩)
      | parts parts =>
          rw [readMagnitude?, if_neg infinite, if_neg missing]
          split
          · next single =>
              have found := Option.isSome_iff_ne_none.1 (parts.single_isSome single)
              exact iff_of_false found (by simp [single, sixtiethLimit])
          · rw [sameLength]
            exact parts.sum_eq_none_iff

/-- A text of nothing but marks is no number. -/
theorem plainSpelling_ne_nil {text : List Char} (spelled : isFloat text = true) :
    plainSpelling text ≠ [] := by
  intro empty
  have marks : ∀ character ∈ text, character = '_' := by
    simpa [plainSpelling] using empty
  cases text with
  | nil => cases spelled
  | cons first rest =>
      obtain rfl := marks first (by simp)
      simp [isFloat, splitSign, infinityWords, nanWords, isWholeAndFraction] at spelled

/-- A floating point number has a value unless it has too many digits of base sixty. -/
theorem readFloat_eq_error_iff {text : List Char} {fault : Fault} (spelled : isFloat text = true) :
    readFloat text = .error fault ↔
      fault = .outOfRange ∧ sixtiethLimit < (splitColons text).length := by
  rw [readFloat_eq_error_iff_readMagnitude? (plainSpelling_ne_nil spelled),
    splitSign_plainSpelling spelled, (isMagnitude_of_isFloat spelled).readMagnitude?_eq_none_iff,
    length_splitColons_splitSign]

end ClosureCapture.Yaml
