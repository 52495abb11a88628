import ClosureCapture.Proofs.Site.Head

/-!
# Runs of blanks and comments

A comment is closed when its end is written: a line comment by a line feed, a block comment by
the mark that closes its last level.  Any other comment is open and takes the rest of the text
with it.  A spacer is a blank or a closed comment.

This file proves that skipping passes over any run of spacers, and that a text of which nothing
is left after skipping is a run of spacers, with at most an open comment at its end.
-/

namespace ClosureCapture

namespace Comment

/-- A text inside a block comment, read from `before` open levels to `after`: each `/*` opens a
level and each `*/` closes one.  No character is read once all levels are closed. -/
inductive Levels : (before : Nat) → List Char → (after : Nat) → Prop
  | done (depth : Nat) : Levels depth [] depth
  | enter {depth after : Nat} {rest : List Char} :
      Levels (depth + 2) rest after → Levels (depth + 1) ('/' :: '*' :: rest) after
  | leave {depth after : Nat} {rest : List Char} :
      Levels depth rest after → Levels (depth + 1) ('*' :: '/' :: rest) after
  | pass {depth after : Nat} {first : Char} {rest : List Char} :
      (first = '/' → rest.head? ≠ some '*') → (first = '*' → rest.head? ≠ some '/') →
        Levels (depth + 1) rest after → Levels (depth + 1) (first :: rest) after

/-- A comment with its end. -/
inductive IsClosed : List Char → Prop
  | line {inside : List Char} : '\n' ∉ inside → IsClosed ('/' :: '/' :: (inside ++ ['\n']))
  | block {inside : List Char} : Levels 1 inside 0 → IsClosed ('/' :: '*' :: inside)

/-- A comment without its end. -/
inductive IsOpen : List Char → Prop
  | line {inside : List Char} : '\n' ∉ inside → IsOpen ('/' :: '/' :: inside)
  | block {inside : List Char} {depth : Nat} :
      Levels 1 inside (depth + 1) → IsOpen ('/' :: '*' :: inside)

/-! ### The end of a comment -/

theorem afterLine_append {inside : List Char} (oneLine : '\n' ∉ inside) (rest : List Char) :
    afterLine (inside ++ '\n' :: rest) = rest := by
  induction inside with
  | nil => rfl
  | cons first inside ih =>
      rw [List.mem_cons, not_or] at oneLine
      rw [List.cons_append, afterLine]
      · exact ih oneLine.2
      · exact fun same => oneLine.1 same.symm

theorem afterLine_of_oneLine {inside : List Char} (oneLine : '\n' ∉ inside) :
    afterLine inside = [] := by
  induction inside with
  | nil => rfl
  | cons first inside ih =>
      rw [List.mem_cons, not_or] at oneLine
      rw [afterLine]
      · exact ih oneLine.2
      · exact fun same => oneLine.1 same.symm

theorem afterBlock_pass {first : Char} {rest : List Char} (depth : Nat)
    (notOpening : first = '/' → rest.head? ≠ some '*')
    (notClosing : first = '*' → rest.head? ≠ some '/') :
    afterBlock (depth + 1) (first :: rest) = afterBlock (depth + 1) rest := by
  rw [afterBlock]
  · rintro tail rfl rfl
    exact notOpening rfl rfl
  · rintro tail rfl rfl
    exact notClosing rfl rfl

/-- A text that closes all levels ends in the mark that closes the last one, so what follows it
cannot complete a mark. -/
theorem Levels.afterBlock_append {depth : Nat} {inside : List Char}
    (closes : Levels depth inside 0) (rest : List Char) :
    afterBlock depth (inside ++ rest) = rest := by
  generalize reached : 0 = after at closes
  induction closes with
  | done depth =>
      subst reached
      rw [List.nil_append, afterBlock]
  | enter _ ih => exact ih reached
  | leave _ ih => exact ih reached
  | @pass depth after first inside notOpening notClosing later ih =>
      have more : inside ≠ [] := by
        rintro rfl
        cases later
        omega
      obtain ⟨second, inside, rfl⟩ := List.exists_cons_of_ne_nil more
      have passed : afterBlock (depth + 1) (first :: (second :: inside ++ rest)) =
          afterBlock (depth + 1) (second :: inside ++ rest) :=
        afterBlock_pass depth notOpening notClosing
      rw [List.cons_append, passed]
      exact ih reached

theorem Levels.afterBlock_eq_nil {depth after : Nat} {inside : List Char}
    (stays : Levels depth inside (after + 1)) : afterBlock depth inside = [] := by
  generalize reached : after + 1 = last at stays
  induction stays with
  | done depth =>
      subst reached
      rw [afterBlock]
  | enter _ ih => exact ih reached
  | leave _ ih => exact ih reached
  | pass notOpening notClosing _ ih =>
      rw [afterBlock_pass _ notOpening notClosing]
      exact ih reached

theorem exists_of_afterLine (text : List Char) :
    (∃ inside, '\n' ∉ inside ∧ text = inside ++ '\n' :: afterLine text) ∨
      ('\n' ∉ text ∧ afterLine text = []) := by
  fun_induction afterLine text with
  | case1 => exact .inr ⟨by simp, rfl⟩
  | case2 rest => exact .inl ⟨[], by simp, rfl⟩
  | case3 first rest notBreak ih =>
      rcases ih with ⟨inside, oneLine, split⟩ | ⟨oneLine, ends⟩
      · refine .inl ⟨first :: inside, ?_, congrArg (first :: ·) split⟩
        rw [List.mem_cons, not_or]
        exact ⟨fun same => notBreak same.symm, oneLine⟩
      · refine .inr ⟨?_, ends⟩
        rw [List.mem_cons, not_or]
        exact ⟨fun same => notBreak same.symm, oneLine⟩

theorem exists_of_afterBlock (depth : Nat) (text : List Char) :
    (∃ inside, Levels depth inside 0 ∧ text = inside ++ afterBlock depth text) ∨
      ((∃ after, Levels depth text (after + 1)) ∧ afterBlock depth text = []) := by
  fun_induction afterBlock depth text with
  | case1 text => exact .inl ⟨[], .done 0, rfl⟩
  | case2 depth => exact .inr ⟨⟨depth, .done _⟩, rfl⟩
  | case3 depth rest ih =>
      rcases ih with ⟨inside, closes, split⟩ | ⟨⟨after, stays⟩, ends⟩
      · exact .inl ⟨'/' :: '*' :: inside, .enter closes, congrArg ('/' :: '*' :: ·) split⟩
      · exact .inr ⟨⟨after, .enter stays⟩, ends⟩
  | case4 depth rest ih =>
      rcases ih with ⟨inside, closes, split⟩ | ⟨⟨after, stays⟩, ends⟩
      · exact .inl ⟨'*' :: '/' :: inside, .leave closes, congrArg ('*' :: '/' :: ·) split⟩
      · exact .inr ⟨⟨after, .leave stays⟩, ends⟩
  | case5 depth first rest notOpening notClosing ih =>
      have noMark : ∀ {mark : Char} {inside : List Char}, inside <+: rest →
          (∀ tail, rest ≠ mark :: tail) → inside.head? ≠ some mark := by
        rintro mark inside ⟨tail, rfl⟩ missing starts
        obtain ⟨others, rfl⟩ := List.head?_eq_some_iff.1 starts
        exact missing _ rfl
      have opening : first = '/' → ∀ tail, rest ≠ '*' :: tail :=
        fun same tail starts => notOpening tail same starts
      have closing : first = '*' → ∀ tail, rest ≠ '/' :: tail :=
        fun same tail starts => notClosing tail same starts
      rcases ih with ⟨inside, closes, split⟩ | ⟨⟨after, stays⟩, ends⟩
      · have front : inside <+: rest := ⟨_, split.symm⟩
        exact .inl ⟨first :: inside,
          .pass (fun same => noMark front (opening same)) (fun same => noMark front (closing same))
            closes,
          congrArg (first :: ·) split⟩
      · exact .inr ⟨⟨after,
          .pass (fun same => noMark (List.prefix_refl rest) (opening same))
            (fun same => noMark (List.prefix_refl rest) (closing same)) stays⟩, ends⟩

theorem after?_of_ne_slash {first : Char} (rest : List Char) (different : first ≠ '/') :
    after? (first :: rest) = none := by
  unfold after?
  split
  · next same => exact absurd (List.cons.inj same).1 different
  · next same => exact absurd (List.cons.inj same).1 different
  · rfl

/-- What is appended to a text without a comment at its start completes none. -/
theorem after?_append_of_head {first : Char} {rest tail : List Char}
    (noComment : after? (first :: rest) = none)
    (ends : ∀ next ∈ tail.head?, next ≠ '/' ∧ next ≠ '*') :
    after? (first :: rest ++ tail) = none := by
  match rest, tail with
  | [], [] => exact noComment
  | [], next :: tail =>
      obtain ⟨noSlash, noStar⟩ := ends next rfl
      unfold after?
      split
      · next same =>
          obtain ⟨-, rfl, -⟩ := by simpa only [List.cons_append, List.cons.injEq] using same
          exact absurd rfl noSlash
      · next same =>
          obtain ⟨-, rfl, -⟩ := by simpa only [List.cons_append, List.cons.injEq] using same
          exact absurd rfl noStar
      · rfl
  | second :: rest, tail =>
      unfold after? at noComment ⊢
      split
      · next same =>
          obtain ⟨rfl, rfl, -⟩ := by simpa only [List.cons_append, List.cons.injEq] using same
          simp at noComment
      · next same =>
          obtain ⟨rfl, rfl, -⟩ := by simpa only [List.cons_append, List.cons.injEq] using same
          simp at noComment
      · rfl

theorem IsClosed.after?_append {comment : List Char} (closed : IsClosed comment)
    (rest : List Char) : after? (comment ++ rest) = some rest := by
  cases closed with
  | line oneLine => simp [after?, afterLine_append oneLine]
  | block closes => simp [after?, closes.afterBlock_append]

theorem IsOpen.after?_eq {comment : List Char} (unclosed : IsOpen comment) :
    after? comment = some [] := by
  cases unclosed with
  | line oneLine => simp [after?, afterLine_of_oneLine oneLine]
  | block stays => simp [after?, stays.afterBlock_eq_nil]

/-- What is passed over at the start of a text is a closed comment, or the whole text. -/
theorem closed_or_open_of_after? {text rest : List Char} (found : after? text = some rest) :
    (∃ comment, IsClosed comment ∧ text = comment ++ rest) ∨ (IsOpen text ∧ rest = []) := by
  unfold after? at found
  split at found
  · next inside =>
      obtain rfl := Option.some.inj found
      rcases exists_of_afterLine inside with ⟨front, oneLine, split⟩ | ⟨oneLine, ends⟩
      · exact .inl ⟨_, .line oneLine, by simpa using split⟩
      · exact .inr ⟨.line oneLine, ends⟩
  · next inside =>
      obtain rfl := Option.some.inj found
      rcases exists_of_afterBlock 1 inside with ⟨front, closes, split⟩ | ⟨⟨after, stays⟩, ends⟩
      · exact .inl ⟨_, .block closes, by simpa using split⟩
      · exact .inr ⟨.block stays, ends⟩
  · simp at found

theorem IsClosed.exists_cons {comment : List Char} (closed : IsClosed comment) :
    ∃ rest, comment = '/' :: rest := by
  cases closed <;> exact ⟨_, rfl⟩

end Comment

/-- What separates words without a meaning of its own. -/
inductive Spacer where
  | blank (character : Char) (isBlank : Text.isBlank character = true)
  | comment (text : List Char) (closed : Comment.IsClosed text)

namespace Spacer

/-- A spacer as it is written. -/
def text : Spacer → List Char
  | .blank character _ => [character]
  | .comment text _ => text

/-- A run of spacers as it is written. -/
def run (spacers : List Spacer) : List Char :=
  spacers.flatMap text

theorem run_append (first second : List Spacer) :
    run (first ++ second) = run first ++ run second :=
  List.flatMap_append

theorem exists_run_eq_blanks {blanks : List Char}
    (allBlank : ∀ blank ∈ blanks, Text.isBlank blank = true) :
    ∃ spacers, run spacers = blanks := by
  induction blanks with
  | nil => exact ⟨[], rfl⟩
  | cons blank blanks ih =>
      obtain ⟨spacers, same⟩ := ih fun other member => allBlank other (by simp [member])
      exact ⟨.blank blank (allBlank blank (by simp)) :: spacers, congrArg (blank :: ·) same⟩

end Spacer

/-- Nothing but blanks and comments, of which the last may be open. -/
inductive OnlySpacing : List Char → Prop
  | closed (spacers : List Spacer) : OnlySpacing (Spacer.run spacers)
  | unclosed (spacers : List Spacer) {comment : List Char} :
      Comment.IsOpen comment → OnlySpacing (Spacer.run spacers ++ comment)

theorem OnlySpacing.run_append (spacers : List Spacer) {text : List Char}
    (spacing : OnlySpacing text) : OnlySpacing (Spacer.run spacers ++ text) := by
  cases spacing with
  | closed later =>
      rw [← Spacer.run_append]
      exact .closed (spacers ++ later)
  | unclosed later unclosed =>
      rw [← List.append_assoc, ← Spacer.run_append]
      exact .unclosed (spacers ++ later) unclosed

namespace Comment

/-- Skipping trims blanks and passes over a comment as long as there is one. -/
theorem skip_eq (text : List Char) :
    skip text = (after? (Text.trimStart text)).elim (Text.trimStart text) skip := by
  rw [skip.eq_def]
  split
  · next missing => rw [missing]; rfl
  · next rest found => rw [found]; rfl

theorem skip_spacer (spacer : Spacer) (rest : List Char) :
    skip (spacer.text ++ rest) = skip rest := by
  cases spacer with
  | blank character isBlank =>
      have trimmed : Text.trimStart (character :: rest) = Text.trimStart rest :=
        List.dropWhile_cons_of_pos isBlank
      rw [Spacer.text, List.cons_append, List.nil_append, skip_eq, skip_eq rest, trimmed]
  | comment text closed =>
      have visible : Text.trimStart (text ++ rest) = text ++ rest := by
        obtain ⟨tail, rfl⟩ := closed.exists_cons
        exact List.dropWhile_cons_of_neg (by decide)
      rw [Spacer.text, skip_eq, visible, closed.after?_append]
      rfl

theorem skip_run (spacers : List Spacer) (rest : List Char) :
    skip (Spacer.run spacers ++ rest) = skip rest := by
  induction spacers with
  | nil => rfl
  | cons spacer spacers ih =>
      rw [Spacer.run, List.flatMap_cons, List.append_assoc, skip_spacer]
      exact ih

theorem skip_of_visible {first : Char} {rest : List Char} (visible : Text.isBlank first = false)
    (noComment : after? (first :: rest) = none) : skip (first :: rest) = first :: rest := by
  have trimmed : Text.trimStart (first :: rest) = first :: rest :=
    List.dropWhile_cons_of_neg (by simp [visible])
  rw [skip_eq, trimmed, noComment]
  rfl

/-- What is skipped is a run of spacers, unless an open comment takes all of the text. -/
theorem exists_run_of_skip (text : List Char) :
    (∃ spacers first rest, text = Spacer.run spacers ++ first :: rest ∧
        Text.isBlank first = false ∧ after? (first :: rest) = none) ∨ OnlySpacing text := by
  fun_induction skip text with
  | case1 text noComment =>
      obtain ⟨blanks, split, allBlank⟩ := Text.exists_append_trimStart text
      obtain ⟨spacers, rfl⟩ := Spacer.exists_run_eq_blanks allBlank
      cases trimmed : Text.trimStart text with
      | nil =>
          rw [split, trimmed, List.append_nil]
          exact .inr (.closed spacers)
      | cons first rest =>
          have visible : Text.isBlank first = false := by
            have stops := List.head?_dropWhile_not Text.isBlank text
            rwa [← Text.trimStart, trimmed] at stops
          rw [trimmed] at split noComment
          exact .inl ⟨spacers, first, rest, split, visible, noComment⟩
  | case2 text rest found ih =>
      obtain ⟨blanks, split, allBlank⟩ := Text.exists_append_trimStart text
      obtain ⟨spacers, rfl⟩ := Spacer.exists_run_eq_blanks allBlank
      rcases closed_or_open_of_after? found with ⟨comment, closed, whole⟩ | ⟨unclosed, rfl⟩
      · have front : text = Spacer.run (spacers ++ [.comment comment closed]) ++ rest := by
          rw [split, whole, Spacer.run_append]
          simp [Spacer.run, Spacer.text]
        rw [front]
        rcases ih with ⟨later, first, tail, rfl, visible, noComment⟩ | spacing
        · refine .inl ⟨spacers ++ [.comment comment closed] ++ later, first, tail, ?_,
            visible, noComment⟩
          rw [Spacer.run_append _ later, List.append_assoc]
        · exact .inr (spacing.run_append _)
      · rw [split]
        exact .inr (.unclosed spacers unclosed)

/-- Nothing is left after skipping exactly when there is nothing but blanks and comments. -/
theorem skip_eq_nil_iff {text : List Char} : skip text = [] ↔ OnlySpacing text := by
  have nothing : skip [] = [] := by rw [skip_eq]; rfl
  constructor
  · intro skipped
    rcases exists_run_of_skip text with ⟨spacers, first, rest, rfl, visible, noComment⟩ | spacing
    · rw [skip_run, skip_of_visible visible noComment] at skipped
      simp at skipped
    · exact spacing
  · intro spacing
    cases spacing with
    | closed spacers =>
        have ends := skip_run spacers []
        rwa [List.append_nil, nothing] at ends
    | @unclosed spacers comment unclosed =>
        have visible : Text.trimStart comment = comment := by
          cases unclosed <;> exact List.dropWhile_cons_of_neg (by decide)
        rw [skip_run, skip_eq, visible, unclosed.after?_eq]
        exact nothing

/-- Blanks do not turn the end of a text into the start of a comment. -/
theorem after?_append_blanks {first : Char} {rest blanks : List Char}
    (noComment : after? (first :: rest) = none)
    (allBlank : ∀ blank ∈ blanks, Text.isBlank blank = true) :
    after? (first :: rest ++ blanks) = none := by
  apply after?_append_of_head noComment
  intro next isNext
  have isBlank := allBlank next (List.mem_of_mem_head? isNext)
  constructor <;> rintro rfl <;> exact absurd isBlank (by decide)

theorem after?_none_of_append {first : Char} {rest more : List Char}
    (noComment : after? (first :: rest ++ more) = none) : after? (first :: rest) = none := by
  unfold after?
  split
  · next same =>
      obtain ⟨rfl, rfl⟩ := List.cons.inj same
      simp [after?] at noComment
  · next same =>
      obtain ⟨rfl, rfl⟩ := List.cons.inj same
      simp [after?] at noComment
  · rfl

end Comment

/-- Blanks at the end of a text add nothing to it but spacing. -/
theorem onlySpacing_append_blanks_iff {text blanks : List Char}
    (allBlank : ∀ blank ∈ blanks, Text.isBlank blank = true) :
    OnlySpacing (text ++ blanks) ↔ OnlySpacing text := by
  simp only [← Comment.skip_eq_nil_iff]
  constructor
  · intro nothing
    rcases Comment.exists_run_of_skip text with
      ⟨spacers, first, rest, rfl, visible, noComment⟩ | spacing
    · have stays : Comment.skip (first :: rest ++ blanks) = first :: rest ++ blanks :=
        Comment.skip_of_visible visible (Comment.after?_append_blanks noComment allBlank)
      rw [List.append_assoc, Comment.skip_run, stays] at nothing
      simp at nothing
    · exact Comment.skip_eq_nil_iff.2 spacing
  · intro nothing
    rcases Comment.exists_run_of_skip (text ++ blanks) with
      ⟨spacers, first, rest, split, visible, noComment⟩ | spacing
    · -- The first character of code is no blank, so that it stands in the text itself.
      have apart : ∀ later, blanks ≠ later ++ first :: rest := by
        rintro later rfl
        simp [allBlank first (by simp)] at visible
      rcases List.append_eq_append_iff.1 split with ⟨later, -, same⟩ | ⟨later, whole, same⟩
      · exact absurd same (apart later)
      · cases later with
        | nil => exact absurd same.symm (apart [])
        | cons head later =>
            obtain ⟨rfl, rfl⟩ := List.cons.inj same
            have shorter := Comment.after?_none_of_append noComment
            rw [whole, Comment.skip_run, Comment.skip_of_visible visible shorter] at nothing
            simp at nothing
    · exact Comment.skip_eq_nil_iff.2 spacing

end ClosureCapture
