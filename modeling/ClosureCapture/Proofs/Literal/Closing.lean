import ClosureCapture.Proofs.Comment.Spacing

/-!
# Closed comments and literals

A comment or literal that is passed over before more text is closed: it carries its own end, so
that it is passed over in the same way whatever follows it.  Its last character is a quote, a hash
or a slash, or the line feed of a line comment.
-/

namespace ClosureCapture

theorem Comment.Levels.getLast?_eq {depth : Nat} {inside : List Char}
    (closes : Levels depth inside 0) (inComment : depth ≠ 0) : inside.getLast? = some '/' := by
  generalize reached : 0 = after at closes
  induction closes with
  | done depth => exact absurd reached.symm inComment
  | enter _ ih =>
      rw [List.getLast?_cons_cons, List.getLast?_cons, ih (by omega) reached]
      rfl
  | @leave depth after rest later ih =>
      rw [List.getLast?_cons_cons, List.getLast?_cons]
      by_cases outermost : depth = 0
      · subst outermost
        cases later
        rfl
      · rw [ih outermost reached]
        rfl
  | pass _ _ _ ih =>
      rw [List.getLast?_cons, ih (by omega) reached]
      rfl

namespace Literal

theorem afterString?_closed {text rest : List Char} (found : afterString? text = some rest) :
    ∃ inside, text = inside ++ '"' :: rest ∧
      ∀ other, afterString? (inside ++ '"' :: other) = some other := by
  fun_induction afterString? text with
  | case1 => simp at found
  | case2 text =>
      obtain rfl := Option.some.inj found
      exact ⟨[], rfl, fun other => rfl⟩
  | case3 => simp at found
  | case4 escaped text ih =>
      obtain ⟨inside, rfl, closed⟩ := ih found
      exact ⟨'\\' :: escaped :: inside, rfl, closed⟩
  | case5 first text notQuote notLast notEscape ih =>
      obtain ⟨inside, rfl, closed⟩ := ih found
      have plain : first ≠ '\\' := by
        rintro rfl
        cases inside with
        | nil => exact notEscape _ _ rfl rfl
        | cons head tail => exact notEscape _ _ rfl rfl
      refine ⟨first :: inside, rfl, ?_⟩
      intro other
      rw [List.cons_append, afterString?_cons notQuote plain]
      exact closed other

/-- The first occurrence of a pattern stays the first one when the text behind it changes. -/
theorem afterPattern_closed {pattern text : List Char} (nonempty : pattern ≠ [])
    (more : afterPattern pattern text ≠ []) :
    ∃ front, text = front ++ (pattern ++ afterPattern pattern text) ∧
      ∀ other, afterPattern pattern (front ++ (pattern ++ other)) = other := by
  induction text with
  | nil => exact absurd rfl more
  | cons first text ih =>
      rw [afterPattern] at more ⊢
      split at more
      · next here =>
          obtain ⟨rest, split⟩ := List.isPrefixOf_iff_prefix.1 here
          obtain ⟨mark, pattern, rfl⟩ := List.exists_cons_of_ne_nil nonempty
          refine ⟨[], ?_, ?_⟩
          · rw [if_pos here, ← split, List.drop_left, List.nil_append]
          · intro other
            have starts : (mark :: pattern).isPrefixOf (mark :: (pattern ++ other)) := by
              rw [List.isPrefixOf_iff_prefix, ← List.cons_append]
              exact List.prefix_append _ _
            rw [List.nil_append, List.cons_append, afterPattern, if_pos starts,
              ← List.cons_append, List.drop_left]
      · next elsewhere =>
          obtain ⟨front, split, closed⟩ := ih more
          refine ⟨first :: front, ?_, ?_⟩
          · rw [if_neg elsewhere, List.cons_append, ← split]
          · intro other
            -- An earlier occurrence would lie before the end of this one.
            have missing : ¬ pattern.isPrefixOf (first :: (front ++ (pattern ++ other))) := by
              intro early
              apply elsewhere
              rw [List.isPrefixOf_iff_prefix] at early ⊢
              rw [split, ← List.append_assoc, ← List.cons_append]
              rw [← List.append_assoc, ← List.cons_append] at early
              have short : pattern.length ≤ (first :: (front ++ pattern)).length := by
                simp only [List.length_cons, List.length_append]
                omega
              have inside := List.prefix_of_prefix_length_le early (List.prefix_append _ _) short
              exact inside.trans (List.prefix_append _ _)
            rw [List.cons_append, afterPattern, if_neg missing]
            exact closed other

/-- A text that a scanner passes over, whatever follows, and that ends in a mark. -/
def EndsInMark (scanner : List Char → Option (List Char)) (passed : List Char) : Prop :=
  (∃ last ∈ marks, passed.getLast? = some last) ∧
    ∀ other, scanner (passed ++ other) = some other

theorem EndsInMark.concat {scanner : List Char → Option (List Char)} {inside : List Char}
    {last : Char} (mark : last ∈ marks)
    (closed : ∀ other, scanner (inside ++ last :: other) = some other) :
    EndsInMark scanner (inside ++ [last]) := by
  refine ⟨⟨last, mark, List.getLast?_concat⟩, ?_⟩
  intro other
  rw [List.append_assoc, List.singleton_append]
  exact closed other

/-- A marker before a text leaves its end as it is. -/
theorem EndsInMark.cons {scanner outer : List Char → Option (List Char)} {first : Char}
    {passed : List Char} (ends : EndsInMark scanner passed)
    (same : ∀ other, outer (first :: (passed ++ other)) = scanner (passed ++ other)) :
    EndsInMark outer (first :: passed) := by
  obtain ⟨⟨last, mark, isLast⟩, closed⟩ := ends
  refine ⟨⟨last, mark, ?_⟩, ?_⟩
  · rw [List.getLast?_cons, isLast]
    rfl
  · intro other
    rw [List.cons_append, same, closed]

theorem afterRaw?_closed {text rest : List Char} (found : afterRaw? text = some rest)
    (more : rest ≠ []) : ∃ passed, text = passed ++ rest ∧ EndsInMark afterRaw? passed := by
  obtain ⟨hashes, inner, onlyHashes, rfl, rfl⟩ := afterRaw?_eq_some_iff.1 found
  obtain ⟨front, split, closed⟩ := afterPattern_closed (by simp) more
  refine ⟨hashes ++ '"' :: (front ++ '"' :: hashes), ?_, ?_, ?_⟩
  · calc
      hashes ++ '"' :: inner =
          hashes ++ '"' :: (front ++ ('"' :: hashes ++ afterPattern ('"' :: hashes) inner)) :=
        congrArg (hashes ++ '"' :: ·) split
      _ = _ := by simp
  · have isLast : (hashes ++ '"' :: (front ++ '"' :: hashes)).getLast? =
        hashes.getLast?.or (some '"') := by
      rw [List.getLast?_append, List.getLast?_cons, List.getLast?_append, List.getLast?_cons]
      cases hashes.getLast? <;> rfl
    rw [isLast]
    cases final : hashes.getLast? with
    | none => exact ⟨'"', by decide, rfl⟩
    | some last =>
        have hash := onlyHashes last (List.mem_of_getLast? final)
        exact ⟨last, by rw [hash]; decide, rfl⟩
  · intro other
    apply afterRaw?_eq_some_iff.2
    refine ⟨hashes, front ++ ('"' :: hashes ++ other), onlyHashes, by simp, ?_⟩
    exact (closed other).symm

theorem afterQuoted?_closed {text rest : List Char} (found : afterQuoted? text = some rest) :
    ∃ passed, text = passed ++ rest ∧ EndsInMark afterQuoted? passed := by
  unfold afterQuoted? at found
  split at found
  · obtain ⟨inside, rfl, closed⟩ := afterString?_closed found
    exact ⟨'"' :: (inside ++ ['"']), by simp,
      @EndsInMark.concat _ ('"' :: inside) '"' (by decide) closed⟩
  · obtain ⟨front, ⟨content, character, rfl⟩, rfl⟩ := afterCharacter?_eq_some_iff.1 found
    refine ⟨'\'' :: (content ++ ['\'']), by simp, ?_⟩
    refine @EndsInMark.concat _ ('\'' :: content) '\'' (by decide) ?_
    intro other
    exact afterCharacter?_eq_some_iff.2 ⟨_, ⟨content, character, rfl⟩, by simp⟩
  · simp at found

theorem afterLiteral?_closed {text rest : List Char} (found : afterLiteral? text = some rest)
    (more : rest ≠ []) : ∃ passed, text = passed ++ rest ∧ EndsInMark afterLiteral? passed := by
  cases text with
  | nil => simp [afterLiteral?, afterQuoted?] at found
  | cons first text =>
  by_cases byte : first = 'b'
  · subst byte
    cases text with
    | nil => simp [afterLiteral?, afterQuoted?] at found
    | cons second text =>
    by_cases raw : second = 'r'
    · subst raw
      obtain ⟨passed, rfl, ends⟩ := afterRaw?_closed found more
      refine ⟨'b' :: 'r' :: passed, rfl, ?_⟩
      exact @EndsInMark.cons (fun text => afterRaw? text.tail) _ 'b' ('r' :: passed)
        (ends.cons fun other => rfl) fun other => rfl
    · rw [afterLiteral?_byte raw] at found
      obtain ⟨passed, split, ends⟩ := afterQuoted?_closed found
      refine ⟨'b' :: passed, by rw [split, List.cons_append], ends.cons ?_⟩
      intro other
      obtain ⟨tail, rfl⟩ : ∃ tail, passed = second :: tail := by
        cases passed with
        | nil => simp [EndsInMark] at ends
        | cons head tail => exact ⟨tail, by rw [(List.cons.inj split).1]⟩
      exact afterLiteral?_byte raw _
  by_cases raw : first = 'r'
  · subst raw
    obtain ⟨passed, rfl, ends⟩ := afterRaw?_closed found more
    exact ⟨'r' :: passed, rfl, ends.cons fun other => rfl⟩
  by_cases quote : first = '"'
  · subst quote
    cases closes : afterString? text with
    | none =>
        simp only [afterLiteral?, closes, Option.getD_none, Option.some.injEq] at found
        exact absurd found.symm more
    | some after =>
        simp only [afterLiteral?, closes, Option.getD_some, Option.some.injEq] at found
        subst found
        obtain ⟨inside, rfl, closed⟩ := afterString?_closed closes
        refine ⟨'"' :: (inside ++ ['"']), by simp, ?_⟩
        refine @EndsInMark.concat _ ('"' :: inside) '"' (by decide) ?_
        intro other
        simp [afterLiteral?, closed]
  · rw [afterLiteral?_other byte raw quote] at found
    obtain ⟨passed, split, ends⟩ := afterQuoted?_closed found
    cases passed with
    | nil => simp [EndsInMark] at ends
    | cons head tail =>
        obtain ⟨rfl, rfl⟩ := List.cons.inj split
        refine ⟨first :: tail, rfl, ends.1, ?_⟩
        intro other
        rw [List.cons_append, afterLiteral?_other byte raw quote]
        exact ends.2 other

/-- A comment or literal that ends by itself, given the character before it. -/
structure IsClosed (previous : Option Char) (passed : List Char) : Prop where
  after?_append : ∀ other, after? previous (passed ++ other) = some other
  ending : (∃ inside, '\n' ∉ inside ∧ passed = '/' :: '/' :: (inside ++ ['\n'])) ∨
    ∃ last ∈ marks, passed.getLast? = some last

theorem isClosed_comment {comment : List Char} (closed : Comment.IsClosed comment)
    (previous : Option Char) : IsClosed previous comment := by
  constructor
  · intro other
    rw [after?, closed.after?_append]
  · cases closed with
    | line oneLine => exact .inl ⟨_, oneLine, rfl⟩
    | block closes =>
        right
        refine ⟨'/', by decide, ?_⟩
        rw [List.getLast?_cons_cons, List.getLast?_cons, closes.getLast?_eq (by decide)]
        rfl

/-- What is passed over before more text is closed. -/
theorem exists_isClosed_of_after? {previous : Option Char} {text rest : List Char}
    (found : after? previous text = some rest) (more : rest ≠ []) :
    ∃ passed, text = passed ++ rest ∧ IsClosed previous passed := by
  unfold after? at found
  split at found
  · next after comment =>
      obtain rfl := Option.some.inj found
      rcases Comment.closed_or_open_of_after? comment with ⟨passed, closed, split⟩ | ⟨-, ends⟩
      · exact ⟨passed, split, isClosed_comment closed previous⟩
      · exact absurd ends more
  · split at found
    · simp at found
    · next free =>
        obtain ⟨passed, rfl, marked, closed⟩ := afterLiteral?_closed found more
        refine ⟨passed, rfl, ?_, .inr marked⟩
        intro other
        cases passed with
        | nil => simp at marked
        | cons first passed =>
            have uncommented : first ≠ '/' := by
              rintro rfl
              simp [afterLiteral?, afterQuoted?] at found
            rw [after?, List.cons_append, Comment.after?_of_ne_slash _ uncommented]
            simp only [free, Bool.false_eq_true, if_false]
            exact closed other

/-- Neither a word nor a path goes on behind a closed comment or literal. -/
theorem IsClosed.getLast? {previous : Option Char} {passed : List Char}
    (closed : IsClosed previous passed) :
    ∃ last, passed.getLast? = some last ∧ Text.isWord last = false ∧ last ≠ ':' := by
  rcases closed.ending with ⟨inside, -, rfl⟩ | ⟨last, mark, isLast⟩
  · refine ⟨'\n', ?_, by decide, by decide⟩
    rw [← List.cons_append, ← List.cons_append]
    exact List.getLast?_concat
  · refine ⟨last, isLast, ?_⟩
    simp only [marks, List.mem_cons, List.not_mem_nil, or_false] at mark
    rcases mark with rfl | rfl | rfl | rfl <;> exact ⟨by decide, by decide⟩

end Literal

end ClosureCapture
