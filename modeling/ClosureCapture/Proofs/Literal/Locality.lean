import ClosureCapture.Literal

/-!
# Comments and literals are recognised locally

A scanner returns the text after what it passed over.  When a text is cut at a place that the
scanner does not pass, the scanner does the same on the front part alone: what it skips there,
and whether it skips at all, is decided by the characters before the cut.  This holds of
comments and literals, although an open comment or string runs to the end of its text.
-/

namespace ClosureCapture

/-- A scanner that is not disturbed by a cut behind the text it passes over. -/
structure LocalScanner (scanner : List Char → Option (List Char)) : Prop where
  /-- What a text starts with, every longer text starts with. -/
  none_of_append : ∀ {text more : List Char}, scanner (text ++ more) = none → scanner text = none
  /-- A scan that ends before the cut ends at the same place in the front part. -/
  some_of_append_cons : ∀ {text rest more : List Char} {next : Char},
    scanner (text ++ next :: more) = some (rest ++ next :: more) → scanner text = some rest

theorem LocalScanner.some_of_append {scanner : List Char → Option (List Char)}
    (isLocal : LocalScanner scanner) {text rest more : List Char}
    (found : scanner (text ++ more) = some (rest ++ more)) : scanner text = some rest := by
  cases more with
  | nil => simpa using found
  | cons next more => exact isLocal.some_of_append_cons found

/-- A scanner is local when the texts that it passes over are known by themselves. -/
theorem LocalScanner.of_eq_some_iff {scanner : List Char → Option (List Char)}
    {Passed : List Char → Prop}
    (spec : ∀ {text rest}, scanner text = some rest ↔ ∃ front, Passed front ∧ text = front ++ rest) :
    LocalScanner scanner where
  none_of_append := by
    intro text more missing
    cases found : scanner text with
    | none => rfl
    | some rest =>
        obtain ⟨front, passed, rfl⟩ := spec.1 found
        have longer := spec.2 ⟨front, passed, List.append_assoc front rest more⟩
        rw [missing] at longer
        simp at longer
  some_of_append_cons := by
    intro text rest more next found
    obtain ⟨front, passed, same⟩ := spec.1 found
    rw [← List.append_assoc] at same
    exact spec.2 ⟨front, passed, List.append_cancel_right same⟩

private theorem ne_append_of_length_lt {text rest more : List Char}
    (shorter : text.length < more.length) : text ≠ rest ++ more := by
  intro same
  have := congrArg List.length same
  simp only [List.length_append] at this
  omega

/-- Of two ways to cut a text, the later cut lies in the second part of the other one. -/
theorem exists_append_of_append_eq_append {text more front rest : List Char}
    (same : text ++ more = front ++ rest) (bounded : more.length ≤ rest.length) :
    ∃ middle, rest = middle ++ more ∧ text = front ++ middle := by
  rcases List.append_eq_append_iff.1 same with ⟨middle, rfl, rfl⟩ | ⟨middle, rfl, rfl⟩
  · have : middle = [] := by
      simp only [List.length_append] at bounded
      exact List.length_eq_zero_iff.1 (by omega)
    exact ⟨[], by simp [this], by simp [this]⟩
  · exact ⟨middle, rfl, rfl⟩

namespace Comment

theorem afterLine_length_lt (first : Char) (rest : List Char) :
    (afterLine (first :: rest)).length < (first :: rest).length := by
  have inside : afterLine (first :: rest) <:+ rest := by
    unfold afterLine
    split
    · next same => simp at same
    · next same => simp_all
    · next same => simp only [List.cons.injEq] at same; exact same.2 ▸ afterLine_suffix _
  exact Nat.lt_succ_of_le inside.length_le

theorem afterLine_of_append {text rest more : List Char} {next : Char}
    (found : afterLine (text ++ next :: more) = rest ++ next :: more) :
    afterLine text = rest := by
  induction text with
  | nil => exact absurd found (ne_append_of_length_lt (afterLine_length_lt next more))
  | cons first text ih =>
      by_cases newline : first = '\n'
      · subst newline
        exact List.append_cancel_right found
      · rw [List.cons_append, afterLine] at found
        · rw [afterLine]
          · exact ih found
          · exact newline
        · exact newline

theorem afterBlock_length_lt (depth : Nat) (first : Char) (rest : List Char) :
    (afterBlock (depth + 1) (first :: rest)).length < (first :: rest).length := by
  have inside : ∀ {levels : Nat} {tail : List Char}, tail.length ≤ rest.length →
      (afterBlock levels tail).length < (first :: rest).length := by
    intro levels tail bounded
    have shorter := (afterBlock_suffix levels tail).length_le
    simp only [List.length_cons]
    omega
  unfold afterBlock
  split
  · next same => simp at same
  · next same => simp at same
  · next same =>
      obtain ⟨_, rfl⟩ := List.cons.inj same
      exact inside (by simp)
  · next same =>
      obtain ⟨_, rfl⟩ := List.cons.inj same
      exact inside (by simp)
  · next same =>
      obtain ⟨_, rfl⟩ := List.cons.inj same
      exact inside (Nat.le_refl _)

/-- The mark that a character begins takes the next character with it, if it is one. -/
theorem afterBlock_cons_length_lt (depth : Nat) (first next : Char) (more : List Char) :
    (afterBlock (depth + 1) (first :: next :: more)).length < (next :: more).length := by
  unfold afterBlock
  split
  · next same => simp at same
  · next same => simp at same
  · next same =>
      obtain ⟨_, _, rfl⟩ := by simpa only [List.cons.injEq] using same
      exact Nat.lt_succ_of_le (afterBlock_suffix _ _).length_le
  · next same =>
      obtain ⟨_, _, rfl⟩ := by simpa only [List.cons.injEq] using same
      exact Nat.lt_succ_of_le (afterBlock_suffix _ _).length_le
  · next same =>
      obtain ⟨_, rfl⟩ := List.cons.inj same
      exact afterBlock_length_lt _ next more

theorem afterBlock_of_append {depth : Nat} {text rest more : List Char} {next : Char}
    (found : afterBlock depth (text ++ next :: more) = rest ++ next :: more) :
    afterBlock depth text = rest := by
  fun_induction afterBlock depth text with
  | case1 text =>
      rw [afterBlock] at found
      exact List.append_cancel_right found
  | case2 depth => exact absurd found (ne_append_of_length_lt (afterBlock_length_lt depth next more))
  | case3 depth text ih => exact ih found
  | case4 depth text ih => exact ih found
  | case5 depth first text notOpening notClosing ih =>
      cases text with
      | nil =>
          -- A mark across the cut would let the comment end behind the cut.
          exact absurd found
            (ne_append_of_length_lt (afterBlock_cons_length_lt depth first next more))
      | cons second text =>
          rw [List.cons_append, List.cons_append, afterBlock] at found
          · exact ih found
          · rintro _ rfl same
            exact notOpening text rfl (by rw [(List.cons.inj same).1])
          · rintro _ rfl same
            exact notClosing text rfl (by rw [(List.cons.inj same).1])

/-- Both marks that start a comment have two characters. -/
theorem after?_cons_length_lt {first next : Char} {rest more : List Char}
    (found : after? (first :: next :: more) = some rest) :
    rest.length < (next :: more).length := by
  unfold after? at found
  split at found
  · next inner same =>
      obtain ⟨_, _, rfl⟩ := by simpa only [List.cons.injEq] using same
      obtain rfl := Option.some.inj found
      exact Nat.lt_succ_of_le (afterLine_suffix _).length_le
  · next inner same =>
      obtain ⟨_, _, rfl⟩ := by simpa only [List.cons.injEq] using same
      obtain rfl := Option.some.inj found
      exact Nat.lt_succ_of_le (afterBlock_suffix _ _).length_le
  · simp at found

theorem after?_isLocal : LocalScanner after? where
  none_of_append := by
    intro text more missing
    unfold after?
    split
    · simp [after?] at missing
    · simp [after?] at missing
    · rfl
  some_of_append_cons := by
    intro text rest more next found
    match text with
    | [] => exact absurd rfl (ne_append_of_length_lt (after?_length_lt found))
    | [first] => exact absurd rfl (ne_append_of_length_lt (after?_cons_length_lt found))
    | first :: second :: text =>
        unfold after? at found ⊢
        split at found
        · next inner same =>
            obtain ⟨rfl, rfl, rfl⟩ := by simpa only [List.cons_append, List.cons.injEq] using same
            exact congrArg some (afterLine_of_append (Option.some.inj found))
        · next inner same =>
            obtain ⟨rfl, rfl, rfl⟩ := by simpa only [List.cons_append, List.cons.injEq] using same
            exact congrArg some (afterBlock_of_append (Option.some.inj found))
        · simp at found

end Comment

namespace Literal

theorem afterString?_length_lt {text rest : List Char} (found : afterString? text = some rest) :
    rest.length < text.length := by
  cases text with
  | nil => simp [afterString?] at found
  | cons first text =>
      unfold afterString? at found
      split at found
      · next same => simp at same
      · next same =>
          obtain rfl := Option.some.inj found
          obtain ⟨_, rfl⟩ := List.cons.inj same
          simp
      · simp at found
      · next same =>
          obtain ⟨_, rfl⟩ := List.cons.inj same
          have shorter := (afterString?_suffix found).length_le
          simp only [List.length_cons]
          omega
      · next same =>
          obtain ⟨_, rfl⟩ := List.cons.inj same
          exact Nat.lt_succ_of_le (afterString?_suffix found).length_le

theorem afterString?_cons {first : Char} (notQuote : first ≠ '"') (notEscape : first ≠ '\\')
    (rest : List Char) : afterString? (first :: rest) = afterString? rest := by
  rw [afterString?] <;> simp_all

theorem afterString?_isLocal : LocalScanner afterString? where
  none_of_append := by
    intro text more missing
    fun_induction afterString? text with
    | case1 => rfl
    | case2 text => simp [afterString?] at missing
    | case3 => rfl
    | case4 escaped text ih => exact ih missing
    | case5 first text notQuote notLast notEscape ih =>
        have plain : first ≠ '\\' := by
          rintro rfl
          cases text with
          | nil => exact notLast rfl rfl
          | cons head tail => exact notEscape head tail rfl rfl
        rw [List.cons_append, afterString?_cons notQuote plain] at missing
        exact ih missing
  some_of_append_cons := by
    intro text rest more next found
    fun_induction afterString? text with
    | case1 => exact absurd rfl (ne_append_of_length_lt (afterString?_length_lt found))
    | case2 text => exact congrArg some (List.append_cancel_right (Option.some.inj found))
    | case3 =>
        have inside : rest ++ next :: more <:+ more := afterString?_suffix found
        exact absurd rfl (ne_append_of_length_lt (Nat.lt_succ_of_le inside.length_le))
    | case4 escaped text ih => exact ih found
    | case5 first text notQuote notLast notEscape ih =>
        have plain : first ≠ '\\' := by
          rintro rfl
          cases text with
          | nil => exact notLast rfl rfl
          | cons head tail => exact notEscape head tail rfl rfl
        rw [List.cons_append, afterString?_cons notQuote plain] at found
        exact ih found

theorem afterPattern_length_lt {pattern : List Char} (nonempty : pattern ≠ []) (first : Char)
    (rest : List Char) : (afterPattern pattern (first :: rest)).length < (first :: rest).length := by
  have positive : 0 < pattern.length := List.length_pos_iff.2 nonempty
  unfold afterPattern
  split
  · simp only [List.length_drop, List.length_cons]
    omega
  · exact Nat.lt_succ_of_le (afterPattern_suffix pattern rest).length_le

theorem afterPattern_of_append {pattern text rest more : List Char} {next : Char}
    (nonempty : pattern ≠ [])
    (found : afterPattern pattern (text ++ next :: more) = rest ++ next :: more) :
    afterPattern pattern text = rest := by
  induction text with
  | nil => exact absurd found (ne_append_of_length_lt (afterPattern_length_lt nonempty next more))
  | cons first text ih =>
      rw [List.cons_append, afterPattern, ← List.cons_append] at found
      rw [afterPattern]
      by_cases here : pattern.isPrefixOf (first :: text ++ next :: more)
      · rw [if_pos here] at found
        have bounded : pattern.length ≤ (first :: text).length := by
          have same := congrArg List.length found
          simp only [List.length_drop, List.length_append, List.length_cons] at same ⊢
          omega
        have front : pattern <+: first :: text :=
          List.prefix_of_prefix_length_le (List.isPrefixOf_iff_prefix.1 here)
            (List.prefix_append _ _) bounded
        rw [if_pos (List.isPrefixOf_iff_prefix.2 front)]
        rw [List.drop_append_of_le_length bounded] at found
        exact List.append_cancel_right found
      · have elsewhere : ¬ pattern.isPrefixOf (first :: text) := by
          intro front
          exact here (List.isPrefixOf_iff_prefix.2
            ((List.isPrefixOf_iff_prefix.1 front).trans (List.prefix_append _ _)))
        rw [if_neg here] at found
        rw [if_neg elsewhere]
        exact ih found

theorem afterRaw?_eq_some_iff {text rest : List Char} :
    afterRaw? text = some rest ↔
      ∃ hashes inner, (∀ mark ∈ hashes, mark = '#') ∧ text = hashes ++ '"' :: inner ∧
        rest = afterPattern ('"' :: hashes) inner := by
  constructor
  · intro found
    simp only [afterRaw?] at found
    split at found
    · next inner quoted =>
        refine ⟨text.takeWhile (· == '#'), inner, ?_, ?_, (Option.some.inj found).symm⟩
        · intro mark member
          simpa using List.all_eq_true.1 List.all_takeWhile mark member
        · rw [← quoted, List.takeWhile_append_dropWhile]
    · simp at found
  · rintro ⟨hashes, inner, marks, rfl, rfl⟩
    have taken : (hashes ++ '"' :: inner).takeWhile (· == '#') = hashes := by
      rw [List.takeWhile_append_of_pos (by simpa using marks)]
      simp
    have dropped : (hashes ++ '"' :: inner).dropWhile (· == '#') = '"' :: inner := by
      rw [List.dropWhile_append_of_pos (by simpa using marks)]
      simp
    simp only [afterRaw?, taken, dropped]

theorem afterRaw?_isLocal : LocalScanner afterRaw? where
  none_of_append := by
    intro text more missing
    cases found : afterRaw? text with
    | none => rfl
    | some rest =>
        obtain ⟨hashes, inner, marks, rfl, _⟩ := afterRaw?_eq_some_iff.1 found
        have longer := afterRaw?_eq_some_iff.2 ⟨hashes, inner ++ more, marks, rfl, rfl⟩
        rw [List.append_assoc, List.cons_append, longer] at missing
        simp at missing
  some_of_append_cons := by
    intro text rest more next found
    obtain ⟨hashes, inner, marks, same, ended⟩ := afterRaw?_eq_some_iff.1 found
    have bounded : (next :: more).length ≤ inner.length := by
      have inside := (afterPattern_suffix ('"' :: hashes) inner).length_le
      rw [← ended, List.length_append] at inside
      omega
    rw [List.append_cons hashes '"' inner] at same
    obtain ⟨middle, rfl, rfl⟩ := exists_append_of_append_eq_append same bounded
    have closed := afterPattern_of_append (by simp) ended.symm
    exact afterRaw?_eq_some_iff.2 ⟨hashes, middle, marks, by simp, closed.symm⟩

/-! ### Character literals -/

/-- The escapes of a character literal, without the backslash. -/
def IsEscape (escape : List Char) : Prop :=
  (∃ digits, digits ≠ [] ∧ (∀ digit ∈ digits, (Text.hexValue? digit).isSome = true) ∧
      escape = 'u' :: '\x7b' :: digits ++ ['\x7d']) ∨
    (∃ first second, (Text.hexValue? first).isSome = true ∧
      (Text.hexValue? second).isSome = true ∧ escape = ['x', first, second]) ∨
    ∃ character, character ≠ '\n' ∧ escape = [character]

theorem mem_afterEscape_iff {text rest : List Char} :
    rest ∈ afterEscape text ↔ ∃ escape, IsEscape escape ∧ text = escape ++ rest := by
  constructor
  · intro member
    simp only [afterEscape, List.mem_append] at member
    rcases member with code | single
    · split at code
      · next inner =>
          split at code
          · next after nonempty closed =>
              obtain rfl := List.mem_singleton.1 code
              refine ⟨_, .inl ⟨inner.takeWhile (Text.hexValue? · |>.isSome), ?_, ?_, rfl⟩, ?_⟩
              · simpa using nonempty
              · intro digit inside
                exact List.all_eq_true.1 List.all_takeWhile digit inside
              · simp [← closed, List.takeWhile_append_dropWhile]
          · simp at code
      · next first second inner =>
          split at code
          · next digits =>
              obtain rfl := List.mem_singleton.1 code
              simp only [Bool.and_eq_true] at digits
              exact ⟨_, .inr (.inl ⟨first, second, digits.1, digits.2, rfl⟩), rfl⟩
          · simp at code
      · simp at code
    · split at single
      · next character inner =>
          split at single
          · simp at single
          · next other =>
              obtain rfl := List.mem_singleton.1 single
              exact ⟨_, .inr (.inr ⟨character, by simpa using other, rfl⟩), rfl⟩
      · simp at single
  · rintro ⟨escape, form, rfl⟩
    simp only [afterEscape, List.mem_append]
    rcases form with ⟨digits, nonempty, hexadecimal, rfl⟩ | ⟨first, second, high, low, rfl⟩ |
      ⟨character, other, rfl⟩
    · left
      have ended : (Text.hexValue? '\x7d').isSome = false := by decide
      have taken : (digits ++ '\x7d' :: rest).takeWhile (Text.hexValue? · |>.isSome) = digits := by
        rw [List.takeWhile_append_of_pos hexadecimal]
        simp [ended]
      have dropped : (digits ++ '\x7d' :: rest).dropWhile (Text.hexValue? · |>.isSome) =
          '\x7d' :: rest := by
        rw [List.dropWhile_append_of_pos hexadecimal]
        simp [ended]
      have present : digits.isEmpty = false := by simpa using nonempty
      simp [taken, dropped, present]
    · left
      simp [high, low]
    · right
      simp [other]

private theorem hexRun_unique {digits others first second : List Char}
    (hexadecimal : ∀ digit ∈ digits, (Text.hexValue? digit).isSome = true)
    (otherHexadecimal : ∀ digit ∈ others, (Text.hexValue? digit).isSome = true)
    (same : digits ++ '\x7d' :: first = others ++ '\x7d' :: second) : first = second := by
  have ended : (Text.hexValue? '\x7d').isSome = false := by decide
  have dropped := congrArg (List.dropWhile (Text.hexValue? · |>.isSome)) same
  rw [List.dropWhile_append_of_pos hexadecimal,
    List.dropWhile_append_of_pos otherHexadecimal] at dropped
  simpa [ended] using dropped

/-- At most one escape of a text is followed by the closing quote. -/
theorem afterEscape_quote_unique {text first second : List Char}
    (here : '\'' :: first ∈ afterEscape text) (there : '\'' :: second ∈ afterEscape text) :
    first = second := by
  have quoteNotHexadecimal : (Text.hexValue? '\'').isSome = false := by decide
  obtain ⟨escape, form, rfl⟩ := mem_afterEscape_iff.1 here
  obtain ⟨other, otherForm, same⟩ := mem_afterEscape_iff.1 there
  rcases form with ⟨digits, _, hexadecimal, rfl⟩ | ⟨high, low, isHigh, _, rfl⟩ |
    ⟨character, _, rfl⟩
  · rcases otherForm with ⟨others, _, otherHexadecimal, rfl⟩ | ⟨_, _, _, _, rfl⟩ | ⟨_, _, rfl⟩
    · simp only [List.cons_append, List.append_assoc, List.cons.injEq, true_and] at same
      exact (List.cons.inj (hexRun_unique hexadecimal otherHexadecimal same)).2
    · simp at same
    · simp at same
  · rcases otherForm with ⟨_, _, _, rfl⟩ | ⟨_, _, _, _, rfl⟩ | ⟨_, _, rfl⟩
    · simp at same
    · simpa using (List.append_inj same (by simp)).2
    · simp only [List.cons_append, List.nil_append, List.cons.injEq] at same
      simp [same.2.1, quoteNotHexadecimal] at isHigh
  · rcases otherForm with ⟨_, _, _, rfl⟩ | ⟨_, _, isHigh, _, rfl⟩ | ⟨_, _, rfl⟩
    · simp at same
    · simp only [List.cons_append, List.nil_append, List.cons.injEq] at same
      simp [← same.2.1, quoteNotHexadecimal] at isHigh
    · simpa using (List.append_inj same (by simp)).2

theorem mem_afterEscape_of_afterCharacter? {text rest : List Char}
    (found : afterCharacter? ('\\' :: text) = some rest) : '\'' :: rest ∈ afterEscape text := by
  simp only [afterCharacter?] at found
  obtain ⟨ending, member, closed⟩ := List.exists_of_findSome?_eq_some found
  split at closed
  · obtain rfl := Option.some.inj closed
    exact member
  · simp at closed

theorem afterCharacter?_escape_eq_some_iff {text rest : List Char} :
    afterCharacter? ('\\' :: text) = some rest ↔ '\'' :: rest ∈ afterEscape text := by
  constructor
  · exact mem_afterEscape_of_afterCharacter?
  · intro member
    cases found : afterCharacter? ('\\' :: text) with
    | none =>
        simp only [afterCharacter?] at found
        have missing := List.findSome?_eq_none_iff.1 found _ member
        simp at missing
    | some other =>
        have otherMember := mem_afterEscape_of_afterCharacter? found
        rw [afterEscape_quote_unique otherMember member]

/-- What stands between the quotes of a character literal. -/
def IsCharacter (content : List Char) : Prop :=
  (∃ escape, IsEscape escape ∧ content = '\\' :: escape) ∨
    ∃ character, character ≠ '\'' ∧ character ≠ '\\' ∧ character ≠ '\n' ∧ content = [character]

theorem afterCharacter?_eq_some_iff {text rest : List Char} :
    afterCharacter? text = some rest ↔
      ∃ front, (∃ content, IsCharacter content ∧ front = content ++ ['\'']) ∧
        text = front ++ rest := by
  constructor
  · intro found
    unfold afterCharacter? at found
    split at found
    · next inner =>
        have member := afterCharacter?_escape_eq_some_iff.1 found
        obtain ⟨escape, form, rfl⟩ := mem_afterEscape_iff.1 member
        exact ⟨_, ⟨_, .inl ⟨escape, form, rfl⟩, rfl⟩, by simp⟩
    · next character inner plain =>
        split at found
        · simp at found
        · next other =>
            obtain rfl := Option.some.inj found
            simp only [Bool.or_eq_true, beq_iff_eq, not_or] at other
            exact ⟨_, ⟨_, .inr ⟨character, other.1, by simpa using plain, other.2, rfl⟩, rfl⟩, rfl⟩
    · simp at found
  · rintro ⟨_, ⟨content, form, rfl⟩, rfl⟩
    rcases form with ⟨escape, form, rfl⟩ | ⟨character, notQuote, notEscape, notNewline, rfl⟩
    · simp only [List.cons_append, List.append_assoc]
      exact afterCharacter?_escape_eq_some_iff.2 (mem_afterEscape_iff.2 ⟨escape, form, rfl⟩)
    · simp only [List.cons_append, List.nil_append]
      rw [afterCharacter?]
      · simp [notQuote, notNewline]
      · simpa using notEscape

theorem afterCharacter?_isLocal : LocalScanner afterCharacter? :=
  .of_eq_some_iff afterCharacter?_eq_some_iff

/-! ### Literals -/

theorem afterQuoted?_isLocal : LocalScanner afterQuoted? where
  none_of_append := by
    intro text more missing
    unfold afterQuoted?
    split
    · exact afterString?_isLocal.none_of_append missing
    · exact afterCharacter?_isLocal.none_of_append missing
    · rfl
  some_of_append_cons := by
    intro text rest more next found
    cases text with
    | nil => exact absurd rfl (ne_append_of_length_lt (afterQuoted?_length_lt found))
    | cons first text =>
        rw [List.cons_append] at found
        unfold afterQuoted? at found ⊢
        split at found
        · next inner same =>
            obtain ⟨rfl, rfl⟩ := List.cons.inj same
            exact afterString?_isLocal.some_of_append found
        · next inner same =>
            obtain ⟨rfl, rfl⟩ := List.cons.inj same
            exact afterCharacter?_isLocal.some_of_append found
        · simp at found

theorem afterLiteral?_byte {first : Char} (notRaw : first ≠ 'r') (rest : List Char) :
    afterLiteral? ('b' :: first :: rest) = afterQuoted? (first :: rest) := by
  rw [afterLiteral?]
  simpa using notRaw

theorem afterLiteral?_other {first : Char} (notByte : first ≠ 'b') (notRaw : first ≠ 'r')
    (notQuote : first ≠ '"') (rest : List Char) :
    afterLiteral? (first :: rest) = afterQuoted? (first :: rest) := by
  rw [afterLiteral?] <;> simp_all

theorem afterLiteral?_isLocal : LocalScanner afterLiteral? where
  none_of_append := by
    intro text more missing
    unfold afterLiteral?
    split
    · exact afterRaw?_isLocal.none_of_append missing
    · next inner notRaw =>
        cases inner with
        | nil => rfl
        | cons first inner =>
            rw [List.cons_append, List.cons_append, afterLiteral?_byte (by simpa using notRaw)]
              at missing
            exact afterQuoted?_isLocal.none_of_append missing
    · exact afterRaw?_isLocal.none_of_append missing
    · simp [afterLiteral?] at missing
    · next notRawByte notByte notRaw notQuote =>
        cases text with
        | nil => rfl
        | cons first text =>
            rw [List.cons_append, afterLiteral?_other (by simpa using notByte)
              (by simpa using notRaw) (by simpa using notQuote)] at missing
            exact afterQuoted?_isLocal.none_of_append missing
  some_of_append_cons := by
    intro text rest more next found
    cases text with
    | nil => exact absurd rfl (ne_append_of_length_lt (afterLiteral?_length_lt found))
    | cons first text =>
    by_cases byte : first = 'b'
    · subst byte
      cases text with
      | nil =>
          -- The marker stands right before the cut, so that the literal would end behind it.
          exfalso
          by_cases raw : next = 'r'
          · subst raw
            have inside : rest ++ 'r' :: more <:+ more := afterRaw?_suffix found
            exact ne_append_of_length_lt (Nat.lt_succ_of_le inside.length_le) rfl
          · rw [List.cons_append, List.nil_append, afterLiteral?_byte raw] at found
            exact ne_append_of_length_lt (afterQuoted?_length_lt found) rfl
      | cons second text =>
          by_cases raw : second = 'r'
          · subst raw
            exact afterRaw?_isLocal.some_of_append found
          · rw [List.cons_append, List.cons_append, afterLiteral?_byte raw] at found
            rw [afterLiteral?_byte raw]
            exact afterQuoted?_isLocal.some_of_append found
    by_cases raw : first = 'r'
    · subst raw
      exact afterRaw?_isLocal.some_of_append found
    by_cases quote : first = '"'
    · subst quote
      cases closed : afterString? (text ++ next :: more) with
      | none => simp [afterLiteral?, closed] at found
      | some after =>
          simp only [List.cons_append, afterLiteral?, closed, Option.getD_some,
            Option.some.injEq] at found
          subst found
          simp [afterLiteral?, afterString?_isLocal.some_of_append closed]
    · rw [List.cons_append, afterLiteral?_other byte raw quote] at found
      rw [afterLiteral?_other byte raw quote]
      exact afterQuoted?_isLocal.some_of_append found

theorem after?_isLocal (previous : Option Char) : LocalScanner (after? previous) where
  none_of_append := by
    intro text more missing
    unfold after? at missing ⊢
    split at missing
    · simp at missing
    · next uncommented =>
        rw [Comment.after?_isLocal.none_of_append uncommented]
        split at missing
        · next word => simp [word]
        · next free => simpa [free] using afterLiteral?_isLocal.none_of_append missing
  some_of_append_cons := by
    intro text rest more next found
    unfold after? at found ⊢
    split at found
    · next passed comment =>
        obtain rfl := Option.some.inj found
        rw [Comment.after?_isLocal.some_of_append comment]
    · next uncommented =>
        rw [Comment.after?_isLocal.none_of_append uncommented]
        split at found
        · simp at found
        · next free => simpa [free] using afterLiteral?_isLocal.some_of_append found

theorem after?_congr {previous other : Option Char}
    (same : other.any Text.isWord = previous.any Text.isWord) (text : List Char) :
    after? other text = after? previous text := by
  simp only [after?, same]

/-! ### What remains is a suffix -/

theorem afterQuoted?_suffix {text rest : List Char} (found : afterQuoted? text = some rest) :
    rest <:+ text := by
  unfold afterQuoted? at found
  split at found
  · exact (afterString?_suffix found).trans (List.suffix_cons _ _)
  · exact (afterCharacter?_suffix found).trans (List.suffix_cons _ _)
  · simp at found

theorem afterLiteral?_suffix {text rest : List Char} (found : afterLiteral? text = some rest) :
    rest <:+ text := by
  unfold afterLiteral? at found
  split at found
  · next inner => exact (afterRaw?_suffix found).trans (List.suffix_append ['b', 'r'] inner)
  · exact (afterQuoted?_suffix found).trans (List.suffix_cons _ _)
  · exact (afterRaw?_suffix found).trans (List.suffix_cons _ _)
  · next inner =>
      obtain rfl := Option.some.inj found
      cases closed : afterString? inner with
      | none => exact List.nil_suffix
      | some after => exact (afterString?_suffix closed).trans (List.suffix_cons _ _)
  · exact afterQuoted?_suffix found

theorem after?_suffix {previous : Option Char} {text rest : List Char}
    (found : after? previous text = some rest) : rest <:+ text := by
  unfold after? at found
  split at found
  · next inner comment =>
      obtain rfl := Option.some.inj found
      exact Comment.after?_suffix comment
  · split at found
    · simp at found
    · exact afterLiteral?_suffix found

/-! ### Texts without marks -/

/-- The characters that comments and literals start with, after their markers. -/
def marks : List Char :=
  ['"', '\'', '#', '/']

theorem afterRaw?_eq_none {first : Char} {rest : List Char} (quiet : first ∉ marks) :
    afterRaw? (first :: rest) = none := by
  simp only [marks, List.mem_cons, List.not_mem_nil, or_false, not_or] at quiet
  simp [afterRaw?, quiet]

theorem afterQuoted?_eq_none {first : Char} {rest : List Char} (quiet : first ∉ marks) :
    afterQuoted? (first :: rest) = none := by
  simp only [marks, List.mem_cons, List.not_mem_nil, or_false, not_or] at quiet
  rw [afterQuoted?] <;> simp [quiet]

theorem afterLiteral?_eq_none {first next : Char} {front rest : List Char}
    (quiet : ∀ character ∈ first :: front, character ∉ marks) (quietNext : next ∉ marks)
    (unmarked : next ≠ 'r') : afterLiteral? (first :: front ++ next :: rest) = none := by
  -- The character that follows a marker decides; it stands in the front or is the next one.
  by_cases byte : first = 'b'
  · subst byte
    cases front with
    | nil =>
        rw [List.cons_append, List.nil_append, afterLiteral?_byte unmarked]
        exact afterQuoted?_eq_none quietNext
    | cons second front =>
        by_cases raw : second = 'r'
        · subst raw
          cases front with
          | nil => exact afterRaw?_eq_none quietNext
          | cons third front => exact afterRaw?_eq_none (quiet third (by simp))
        · rw [List.cons_append, List.cons_append, afterLiteral?_byte raw]
          exact afterQuoted?_eq_none (quiet second (by simp))
  by_cases raw : first = 'r'
  · subst raw
    cases front with
    | nil => exact afterRaw?_eq_none quietNext
    | cons second front => exact afterRaw?_eq_none (quiet second (by simp))
  · have quietFirst := quiet first (by simp)
    have unquoted : first ≠ '"' := by
      rintro rfl
      simp [marks] at quietFirst
    rw [List.cons_append, afterLiteral?_other byte raw unquoted]
    exact afterQuoted?_eq_none quietFirst

/-- No comment and no literal starts in a text without marks, even if it ends in a marker. -/
theorem after?_eq_none {previous : Option Char} {first next : Char} {front rest : List Char}
    (quiet : ∀ character ∈ first :: front, character ∉ marks) (quietNext : next ∉ marks)
    (unmarked : next ≠ 'r') : after? previous (first :: front ++ next :: rest) = none := by
  have uncommented : Comment.after? (first :: front ++ next :: rest) = none := by
    have quietFirst := quiet first (by simp)
    simp only [marks, List.mem_cons, List.not_mem_nil, or_false, not_or] at quietFirst
    rw [List.cons_append, Comment.after?] <;> simp [quietFirst]
  simp only [after?, uncommented, afterLiteral?_eq_none quiet quietNext unmarked, ite_self]

end Literal

end ClosureCapture
