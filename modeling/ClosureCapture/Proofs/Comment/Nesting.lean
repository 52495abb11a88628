import ClosureCapture.Proofs.Comment.Spacing

/-!
# Nested block comments

The scanner of block comments counts the levels that are open.  The grammar of block comments is
recursive: an opening mark, then nested comments and single characters at which no mark starts, then
a closing mark.  This file proves that counting levels reads exactly this grammar, so that at most
one block comment starts at a place of a text, and the scanner stops right behind it.
-/

namespace ClosureCapture.Comment

/-- A block comment behind its opening mark: nested comments and single characters at which neither
mark starts, then the closing mark. -/
inductive BlockRest : List Char → Prop
  | close : BlockRest ['*', '/']
  | nested {inner rest : List Char} : BlockRest inner → BlockRest rest →
      BlockRest ('/' :: '*' :: inner ++ rest)
  | character {first : Char} {rest : List Char} : ¬['/', '*'] <+: first :: rest →
      ¬['*', '/'] <+: first :: rest → BlockRest rest → BlockRest (first :: rest)

/-- A block comment with everything that is nested in it. -/
inductive IsBlock : List Char → Prop
  | opened {rest : List Char} : BlockRest rest → IsBlock ('/' :: '*' :: rest)

/-- The offset after the comment at an offset of a text, if one starts there. -/
def stop? (text : List Char) (start : Nat) : Option Nat :=
  (after? (text.drop start)).map (text.length - ·.length)

/-! ### Levels and the grammar -/

theorem BlockRest.ne_nil {inside : List Char} (block : BlockRest inside) : inside ≠ [] := by
  cases block <;> simp

/-- Whether a mark starts at a character is decided by the character behind it. -/
theorem not_prefix_iff_head?_append_ne {left right first : Char} {rest : List Char}
    (nonempty : rest ≠ []) (more : List Char) :
    ¬[left, right] <+: first :: rest ↔ (first = left → (rest ++ more).head? ≠ some right) := by
  obtain ⟨second, rest, rfl⟩ := List.exists_cons_of_ne_nil nonempty
  simp [List.cons_prefix_cons, eq_comm]

/-- The rest of a block comment closes one level. -/
theorem BlockRest.levels_append {inside rest : List Char} {depth after : Nat}
    (block : BlockRest inside) (later : Levels depth rest after) :
    Levels (depth + 1) (inside ++ rest) after := by
  induction block generalizing depth rest with
  | close => exact .leave later
  | nested _ _ innerIH restIH =>
      have closed := innerIH (restIH later)
      rw [← List.append_assoc] at closed
      exact .enter closed
  | character noOpening noClosing block ih =>
      exact .pass ((not_prefix_iff_head?_append_ne block.ne_nil rest).1 noOpening)
        ((not_prefix_iff_head?_append_ne block.ne_nil rest).1 noClosing) (ih later)

/-- A text that closes all levels is made of the rests of as many block comments. -/
theorem Levels.exists_blockRests {depth : Nat} {text : List Char}
    (closes : Levels depth text 0) :
    ∃ parts : List (List Char), parts.length = depth ∧ (∀ part ∈ parts, BlockRest part) ∧
      text = parts.flatten := by
  generalize reached : 0 = after at closes
  induction closes with
  | done depth =>
      subst reached
      exact ⟨[], rfl, by simp, rfl⟩
  | enter _ ih =>
      -- The level that is opened here takes the first two rests together.
      obtain ⟨parts, levels, blocks, rfl⟩ := ih reached
      obtain ⟨inner, parts, rfl⟩ := List.exists_cons_of_length_eq_add_one levels
      obtain ⟨outer, parts, rfl⟩ :=
        List.exists_cons_of_length_eq_add_one (Nat.succ.inj levels)
      refine ⟨('/' :: '*' :: inner ++ outer) :: parts, Nat.succ.inj levels, ?_, by simp⟩
      intro part member
      rcases List.mem_cons.1 member with rfl | later
      · exact .nested (blocks inner (by simp)) (blocks outer (by simp))
      · exact blocks part (by simp [later])
  | leave _ ih =>
      obtain ⟨parts, levels, blocks, rfl⟩ := ih reached
      refine ⟨['*', '/'] :: parts, congrArg (· + 1) levels, ?_, rfl⟩
      intro part member
      rcases List.mem_cons.1 member with rfl | later
      · exact .close
      · exact blocks part later
  | @pass depth after first rest noOpening noClosing _ ih =>
      obtain ⟨parts, levels, blocks, rfl⟩ := ih reached
      obtain ⟨inner, parts, rfl⟩ := List.exists_cons_of_length_eq_add_one levels
      have innerBlock := blocks inner (by simp)
      refine ⟨(first :: inner) :: parts, levels, ?_, rfl⟩
      intro part member
      rcases List.mem_cons.1 member with rfl | later
      · exact .character ((not_prefix_iff_head?_append_ne innerBlock.ne_nil _).2 noOpening)
          ((not_prefix_iff_head?_append_ne innerBlock.ne_nil _).2 noClosing) innerBlock
      · exact blocks part (by simp [later])

/-- Counting levels and the grammar agree on where a block comment ends. -/
theorem levels_one_iff_blockRest {inside : List Char} : Levels 1 inside 0 ↔ BlockRest inside := by
  constructor
  · intro closes
    obtain ⟨parts, single, blocks, rfl⟩ := closes.exists_blockRests
    obtain ⟨part, rfl⟩ := List.length_eq_one_iff.1 single
    rw [List.flatten_singleton]
    exact blocks part (by simp)
  · intro block
    have closes := block.levels_append (.done 0)
    rwa [List.append_nil] at closes

/-! ### The block comment at a place -/

theorem IsBlock.after?_append {comment : List Char} (block : IsBlock comment)
    (rest : List Char) : after? (comment ++ rest) = some rest := by
  cases block with
  | opened block =>
      exact (IsClosed.block (levels_one_iff_blockRest.2 block)).after?_append rest

/-- A text starts with at most one block comment. -/
theorem IsBlock.eq_of_prefix {comment other text : List Char} (block : IsBlock comment)
    (otherBlock : IsBlock other) (front : comment <+: text) (otherFront : other <+: text) :
    other = comment := by
  obtain ⟨rest, rfl⟩ := front
  obtain ⟨otherRest, same⟩ := otherFront
  have ends := otherBlock.after?_append otherRest
  rw [same, block.after?_append rest] at ends
  obtain rfl := Option.some.inj ends
  exact List.append_cancel_right same

/-- Without a block comment at the start of a text, an opening mark there takes all of the text. -/
theorem after?_of_no_block {text : List Char} (starts : ['/', '*'] <+: text)
    (noBlock : ∀ comment, IsBlock comment → ¬comment <+: text) : after? text = some [] := by
  obtain ⟨inside, rfl⟩ := starts
  rcases exists_of_afterBlock 1 inside with ⟨front, closes, split⟩ | ⟨-, ends⟩
  · have block : IsBlock ('/' :: '*' :: front) := .opened (levels_one_iff_blockRest.1 closes)
    exact absurd ⟨_, congrArg ('/' :: '*' :: ·) split.symm⟩ (noBlock _ block)
  · exact congrArg some ends

/-! ### Offsets -/

theorem stop?_bounds {text : List Char} {start stop : Nat} (found : stop? text start = some stop) :
    start < stop ∧ stop ≤ text.length := by
  obtain ⟨rest, passed, rfl⟩ := Option.map_eq_some_iff.1 found
  have shorter := after?_length_lt passed
  rw [List.length_drop] at shorter
  omega

theorem IsBlock.stop?_eq {text comment : List Char} {start : Nat} (block : IsBlock comment)
    (front : comment <+: text.drop start) : stop? text start = some (start + comment.length) := by
  obtain ⟨rest, split⟩ := front
  have passed : after? (text.drop start) = some rest := split ▸ block.after?_append rest
  have found : stop? text start = some (text.length - rest.length) := by
    rw [stop?, passed, Option.map_some]
  have lengths := congrArg List.length split
  have inside := (stop?_bounds found).1
  rw [List.length_append, List.length_drop] at lengths
  rw [found]
  congr 1
  omega

/-- A scan that starts with the opening mark of a block comment stops right behind the block comment
that starts there, or at the end of a text in which none does. Whatever comment is passed over, the
scan moves on and stays within the text. -/
theorem stop?_block_exact (text : List Char) (start : Nat) :
    (['/', '*'] <+: text.drop start →
      (∃ comment, IsBlock comment ∧ comment <+: text.drop start ∧
        (∀ other, IsBlock other → other <+: text.drop start → other = comment) ∧
        stop? text start = some (start + comment.length)) ∨
      (∀ comment, IsBlock comment → ¬comment <+: text.drop start) ∧
        stop? text start = some text.length) ∧
    ∀ stop, stop? text start = some stop → start < stop ∧ stop ≤ text.length := by
  refine ⟨fun starts => ?_, fun stop found => stop?_bounds found⟩
  by_cases present : ∃ comment, IsBlock comment ∧ comment <+: text.drop start
  · obtain ⟨comment, block, front⟩ := present
    exact .inl ⟨comment, block, front,
      fun other otherBlock otherFront => block.eq_of_prefix otherBlock front otherFront,
      block.stop?_eq front⟩
  · have noBlock : ∀ comment, IsBlock comment → ¬comment <+: text.drop start :=
      fun comment block front => present ⟨comment, block, front⟩
    refine .inr ⟨noBlock, ?_⟩
    rw [stop?, after?_of_no_block starts noBlock]
    rfl

/-- The marks `/*/` and `*/*` overlap: the slash behind the second opening mark closes nothing, and
the star behind the last closing mark opens nothing. -/
theorem stop?_block_exact_overlapping :
    IsBlock "/*/*/ */*/".toList ∧ stop? "a /*/*/ */*/*b".toList 2 = some 12 := by
  have inner : BlockRest "/ */".toList :=
    .character (by decide) (by decide) (.character (by decide) (by decide) .close)
  have block : IsBlock "/*/*/ */*/".toList := .opened (.nested inner .close)
  have front : "/*/*/ */*/".toList <+: "a /*/*/ */*/*b".toList.drop 2 := ⟨"*b".toList, rfl⟩
  refine ⟨block, ?_⟩
  rcases (stop?_block_exact "a /*/*/ */*/*b".toList 2).1 ⟨"/*/ */*/*b".toList, rfl⟩ with
    ⟨comment, -, -, unique, stops⟩ | ⟨noBlock, -⟩
  · rw [stops, ← unique _ block front]
    rfl
  · exact absurd front (noBlock _ block)

end ClosureCapture.Comment
