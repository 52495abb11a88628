import ClosureCapture.Proofs.Delimiter.Balance

/-!
# Reading delimiters with a stack

A word of delimiters is read with the stack of the pairs that are open.  A word is balanced exactly
when it can be read from the empty stack and leaves it empty, and the top of the stack is the
partner that the next closing delimiter has to match.

The second half of this file is about the delimiters behind an opening one.  It says what it means
that one of them closes the opening one, or is the first that does not match its partner.  Neither
has happened as long as the delimiters can be read without closing the opening one.
-/

namespace ClosureCapture.Delimiter

/-- The pairs that are open behind a delimiter, the innermost first, given those that are open
before it. A closing delimiter has to close the innermost. -/
def read (stack : List Bracket) (character : Char) : Option (List Bracket) :=
  match Bracket.ofOpening? character, stack with
  | some bracket, stack => some (bracket :: stack)
  | none, [] => none
  | none, inner :: outer => if character = inner.closing then some outer else none

/-- The pairs that are open behind a word, given those that are open before it. -/
def readAll (stack : List Bracket) (word : List Char) : Option (List Bracket) :=
  word.foldlM read stack

theorem closing_inj {bracket other : Bracket} :
    bracket.closing = other.closing ↔ bracket = other := by
  cases bracket <;> cases other <;> decide

theorem opening_inj {bracket other : Bracket} :
    bracket.opening = other.opening ↔ bracket = other := by
  cases bracket <;> cases other <;> decide

theorem read_opening (stack : List Bracket) (bracket : Bracket) :
    read stack bracket.opening = some (bracket :: stack) := by
  simp [read, Bracket.ofOpening?_opening]

theorem read_closing_self (bracket : Bracket) (stack : List Bracket) :
    read (bracket :: stack) bracket.closing = some stack := by
  simp [read, Bracket.ofOpening?_closing]

/-- A delimiter that can be read opens a pair or closes the innermost one. -/
theorem read_eq_some {stack next : List Bracket} {character : Char}
    (reads : read stack character = some next) :
    (∃ bracket : Bracket, character = bracket.opening ∧ next = bracket :: stack) ∨
      ∃ bracket : Bracket, character = bracket.closing ∧ stack = bracket :: next := by
  unfold read at reads
  split at reads
  · next bracket opens =>
      obtain rfl := Option.some.inj reads
      exact .inl ⟨bracket, Site.ofOpening?_eq_some_iff.1 opens, rfl⟩
  · simp at reads
  · next inner outer _ =>
      split at reads
      · next same =>
          obtain rfl := Option.some.inj reads
          exact .inr ⟨inner, same, rfl⟩
      · simp at reads

/-! ### Words -/

theorem readAll_cons (stack : List Bracket) (first : Char) (word : List Char) :
    readAll stack (first :: word) = (read stack first).bind (readAll · word) :=
  List.foldlM_cons

theorem readAll_append (stack : List Bracket) (front rest : List Char) :
    readAll stack (front ++ rest) = (readAll stack front).bind (readAll · rest) :=
  List.foldlM_append

theorem readAll_singleton (stack : List Bracket) (character : Char) :
    readAll stack [character] = read stack character := by
  rw [readAll_cons]
  exact Option.bind_fun_some _

/-- Pairs below those that a word touches stay where they are. -/
theorem readAll_below {stack next : List Bracket} {word : List Char}
    (reads : readAll stack word = some next) (below : List Bracket) :
    readAll (stack ++ below) word = some (next ++ below) := by
  induction word generalizing stack with
  | nil =>
      obtain rfl := Option.some.inj reads
      rfl
  | cons first word ih =>
      rw [readAll_cons] at reads ⊢
      obtain ⟨middle, step, later⟩ := Option.bind_eq_some_iff.1 reads
      have lifted : read (stack ++ below) first = some (middle ++ below) := by
        rcases read_eq_some step with ⟨bracket, rfl, rfl⟩ | ⟨bracket, rfl, rfl⟩
        · exact read_opening _ bracket
        · exact read_closing_self bracket _
      rw [lifted]
      exact ih later

theorem Balanced.readAll_eq {word : List Char} (balanced : Balanced word) (stack : List Bracket) :
    readAll stack word = some stack := by
  induction balanced generalizing stack with
  | nil => rfl
  | pair bracket _ _ innerIH restIH =>
      rw [readAll_cons, read_opening, Option.bind_some, readAll_append, innerIH, Option.bind_some,
        readAll_cons, read_closing_self, Option.bind_some, restIH]

theorem closes_of_readAll {stack : List Bracket} {word : List Char}
    (reads : readAll stack word = some []) : Closes stack word := by
  induction word generalizing stack with
  | nil =>
      obtain rfl := Option.some.inj reads
      exact .settled .nil
  | cons first word ih =>
      rw [readAll_cons] at reads
      obtain ⟨next, step, later⟩ := Option.bind_eq_some_iff.1 reads
      rcases read_eq_some step with ⟨bracket, rfl, rfl⟩ | ⟨bracket, rfl, rfl⟩
      · exact (ih later).opening
      · exact .pair bracket .nil (ih later)

/-- A word is balanced exactly when reading it opens nothing that stays open. -/
theorem balanced_iff_readAll {word : List Char} : Balanced word ↔ readAll [] word = some [] := by
  refine ⟨fun balanced => balanced.readAll_eq [], fun reads => ?_⟩
  cases closes_of_readAll reads with
  | settled balanced => exact balanced

/-! ### Partners -/

/-- The pair that a closing delimiter behind a word belongs to: it is opened in the word, and what
follows its opening delimiter is balanced. -/
def IsPartner (bracket : Bracket) (word : List Char) : Prop :=
  ∃ front inner, word = front ++ bracket.opening :: inner ∧ Balanced inner

/-- The innermost pair behind a word is opened in the word, or it was open before and the word
closes everything above it. -/
theorem isPartner_or_closes {stack outer : List Bracket} {inner : Bracket} {word : List Char}
    (reads : readAll stack word = some (inner :: outer)) :
    IsPartner inner word ∨ ∃ closed, Closes closed word ∧ stack = closed ++ inner :: outer := by
  induction word generalizing stack with
  | nil =>
      obtain rfl := Option.some.inj reads
      exact .inr ⟨[], .settled .nil, rfl⟩
  | cons first word ih =>
      rw [readAll_cons] at reads
      obtain ⟨next, step, later⟩ := Option.bind_eq_some_iff.1 reads
      rcases ih later with ⟨front, behind, rfl, balanced⟩ | ⟨closed, closes, rfl⟩
      · exact .inl ⟨first :: front, behind, rfl, balanced⟩
      rcases read_eq_some step with ⟨bracket, rfl, same⟩ | ⟨bracket, rfl, rfl⟩
      · cases closed with
        | nil =>
            obtain ⟨rfl, rfl⟩ := List.cons.inj same
            cases closes with
            | settled balanced => exact .inl ⟨[], word, rfl, balanced⟩
        | cons top closed =>
            obtain ⟨rfl, rfl⟩ := List.cons.inj same
            exact .inr ⟨closed, closes.opening, rfl⟩
      · exact .inr ⟨bracket :: closed, .pair bracket .nil closes, rfl⟩

/-- Reading a word leaves the partner of the next closing delimiter on top of the stack. -/
theorem IsPartner.exists_eq_cons {bracket : Bracket} {stack next : List Bracket}
    {word : List Char} (partner : IsPartner bracket word)
    (reads : readAll stack word = some next) : ∃ outer, next = bracket :: outer := by
  obtain ⟨front, inner, rfl, balanced⟩ := partner
  rw [readAll_append] at reads
  obtain ⟨before, -, later⟩ := Option.bind_eq_some_iff.1 reads
  rw [readAll_cons, read_opening, Option.bind_some, balanced.readAll_eq] at later
  exact ⟨before, (Option.some.inj later).symm⟩

theorem isPartner_iff {bracket inner : Bracket} {outer : List Bracket} {word : List Char}
    (reads : readAll [] word = some (inner :: outer)) :
    IsPartner bracket word ↔ bracket = inner := by
  constructor
  · intro partner
    obtain ⟨others, same⟩ := partner.exists_eq_cons reads
    exact (List.cons.inj same).1.symm
  · rintro rfl
    rcases isPartner_or_closes reads with partner | ⟨closed, -, same⟩
    · exact partner
    · simp at same

theorem IsPartner.not_balanced {bracket : Bracket} {word : List Char}
    (partner : IsPartner bracket word) : ¬Balanced word := by
  intro balanced
  obtain ⟨outer, same⟩ := partner.exists_eq_cons (balanced.readAll_eq [])
  simp at same

theorem IsPartner.unique {bracket other : Bracket} {word : List Char}
    (partner : IsPartner bracket word) (again : IsPartner other word) : bracket = other := by
  obtain ⟨front, inner, rfl, balanced⟩ := partner
  obtain ⟨otherFront, otherInner, same, otherBalanced⟩ := again
  -- Were one opening delimiter behind the other, it would stay open in a balanced word.
  rcases List.append_eq_append_iff.1 same with ⟨between, -, split⟩ | ⟨between, -, split⟩
  · cases between with
    | nil => exact opening_inj.1 (List.cons.inj split).1
    | cons first between =>
        have later : IsPartner other inner :=
          ⟨between, otherInner, (List.cons.inj split).2, otherBalanced⟩
        exact absurd balanced later.not_balanced
  · cases between with
    | nil => exact (opening_inj.1 (List.cons.inj split).1).symm
    | cons first between =>
        have later : IsPartner bracket otherInner :=
          ⟨between, inner, (List.cons.inj split).2, balanced⟩
        exact absurd otherBalanced later.not_balanced

/-! ### Behind an opening delimiter -/

/-- An opening delimiter and the first of the delimiters behind it, which come with their places. -/
def upTo (bracket : Bracket) (word : List (Nat × Char)) (count : Nat) : List Char :=
  bracket.opening :: (word.take count).map Prod.snd

/-- The delimiter at an index closes the opening one: the shortest balanced word that starts with
the opening one ends there. -/
structure ClosedBy (bracket : Bracket) (word : List (Nat × Char)) (index place : Nat) : Prop where
  found : word[index]? = some (place, bracket.closing)
  balanced : Balanced (upTo bracket word (index + 1))
  shortest : ∀ count ≤ index, ¬Balanced (upTo bracket word count)

/-- The delimiter at an index closes a pair of another kind than its partner. -/
structure Clashes (bracket : Bracket) (word : List (Nat × Char)) (index place : Nat)
    (partner other : Bracket) : Prop where
  found : word[index]? = some (place, other.closing)
  isPartner : IsPartner partner (upTo bracket word index)
  differs : other ≠ partner

/-- The delimiter at an index is the first one that clashes with its partner, and the opening one is
not closed before it. -/
structure ClashesFirst (bracket : Bracket) (word : List (Nat × Char)) (index place : Nat)
    (partner other : Bracket) : Prop extends Clashes bracket word index place partner other where
  first : ∀ earlier < index, ∀ place partner other,
    ¬Clashes bracket word earlier place partner other
  unclosed : ∀ count ≤ index, ¬Balanced (upTo bracket word count)

section Behind

variable {bracket : Bracket} {word front : List (Nat × Char)} {index place : Nat}

theorem upTo_succ {character : Char} (found : word[index]? = some (place, character)) :
    upTo bracket word (index + 1) = upTo bracket word index ++ [character] := by
  simp [upTo, List.take_add_one, found]

/-- The opening delimiter stays open below what the delimiters behind it leave open. -/
theorem readAll_upTo {nested : List Bracket} {count : Nat}
    (reads : readAll [] ((word.take count).map Prod.snd) = some nested) :
    readAll [] (upTo bracket word count) = some (nested ++ [bracket]) := by
  rw [upTo, readAll_cons, read_opening, Option.bind_some]
  exact readAll_below reads [bracket]

theorem exists_readAll_upTo_of_le {stack : List Bracket} {count shorter : Nat}
    (reads : readAll [] (upTo bracket word count) = some stack) (le : shorter ≤ count) :
    ∃ before, readAll [] (upTo bracket word shorter) = some before := by
  have split : upTo bracket word count =
      upTo bracket word shorter ++ ((word.take count).drop shorter).map Prod.snd := by
    have front : (word.take count).take shorter = word.take shorter := by
      rw [List.take_take, Nat.min_eq_left le]
    rw [upTo, upTo, List.cons_append, ← List.map_append, ← front, List.take_append_drop]
  rw [split, readAll_append] at reads
  obtain ⟨before, reads, -⟩ := Option.bind_eq_some_iff.1 reads
  exact ⟨before, reads⟩

/-- A delimiter that can be read matches its partner. -/
theorem not_clashes_of_readAll {stack : List Bracket} {partner other : Bracket}
    (reads : readAll [] (upTo bracket word (index + 1)) = some stack) :
    ¬Clashes bracket word index place partner other := by
  intro clash
  rw [upTo_succ clash.found, readAll_append] at reads
  obtain ⟨before, reads, step⟩ := Option.bind_eq_some_iff.1 reads
  rw [readAll_singleton] at step
  rcases read_eq_some step with ⟨opened, same, -⟩ | ⟨closed, same, rfl⟩
  · cases other <;> cases opened <;> simp [Bracket.opening, Bracket.closing] at same
  · obtain rfl := closing_inj.1 same
    exact clash.differs ((isPartner_iff reads).1 clash.isPartner).symm

/-! ### At most one verdict -/

theorem ClosedBy.unique {otherIndex otherPlace : Nat} (closed : ClosedBy bracket word index place)
    (again : ClosedBy bracket word otherIndex otherPlace) : place = otherPlace := by
  have same : index = otherIndex := by
    rcases Nat.lt_trichotomy index otherIndex with before | same | behind
    · exact absurd closed.balanced (again.shortest _ before)
    · exact same
    · exact absurd again.balanced (closed.shortest _ behind)
  subst same
  have found := closed.found.symm.trans again.found
  simp only [Option.some.injEq, Prod.mk.injEq, and_true] at found
  exact found

theorem ClosedBy.not_clashesFirst {otherIndex otherPlace : Nat} {partner other : Bracket}
    (closed : ClosedBy bracket word index place) :
    ¬ClashesFirst bracket word otherIndex otherPlace partner other := by
  intro clash
  have early : otherIndex ≤ index :=
    Nat.le_of_not_lt fun late => clash.unclosed (index + 1) late closed.balanced
  obtain ⟨stack, reads⟩ := exists_readAll_upTo_of_le (balanced_iff_readAll.1 closed.balanced)
    (Nat.succ_le_succ early)
  exact not_clashes_of_readAll reads clash.toClashes

theorem ClashesFirst.unique {otherIndex otherPlace : Nat}
    {partner other otherPartner another : Bracket}
    (clash : ClashesFirst bracket word index place partner other)
    (again : ClashesFirst bracket word otherIndex otherPlace otherPartner another) :
    place = otherPlace ∧ partner = otherPartner ∧ other = another := by
  have same : index = otherIndex := by
    rcases Nat.lt_trichotomy index otherIndex with before | same | behind
    · exact absurd clash.toClashes (again.first _ before _ _ _)
    · exact same
    · exact absurd again.toClashes (clash.first _ behind _ _ _)
  subst same
  have found := clash.found.symm.trans again.found
  simp only [Option.some.injEq, Prod.mk.injEq, closing_inj] at found
  exact ⟨found.1, clash.isPartner.unique again.isPartner, found.2⟩

/-! ### Where reading ends -/

variable {nested : List Bracket}

theorem readAll_upTo_front (reads : readAll [] (front.map Prod.snd) = some nested)
    (behind : List (Nat × Char)) :
    readAll [] (upTo bracket (front ++ behind) front.length) = some (nested ++ [bracket]) :=
  readAll_upTo (by rwa [List.take_left])

/-- The opening delimiter is not closed by what leaves the pairs below it alone. -/
theorem not_balanced_upTo (reads : readAll [] (front.map Prod.snd) = some nested)
    (behind : List (Nat × Char)) {count : Nat} (le : count ≤ front.length) :
    ¬Balanced (upTo bracket (front ++ behind) count) := by
  have split : front = front.take count ++ front.drop count := (List.take_append_drop ..).symm
  rw [split, List.map_append, readAll_append] at reads
  obtain ⟨stack, reads, -⟩ := Option.bind_eq_some_iff.1 reads
  intro balanced
  have opened : readAll [] (upTo bracket (front ++ behind) count) = some (stack ++ [bracket]) :=
    readAll_upTo (by rwa [List.take_append_of_le_length le])
  rw [balanced.readAll_eq] at opened
  simp at opened

theorem not_clashes_of_lt (reads : readAll [] (front.map Prod.snd) = some nested)
    (behind : List (Nat × Char)) {partner other : Bracket} (before : index < front.length) :
    ¬Clashes bracket (front ++ behind) index place partner other := by
  obtain ⟨stack, prior⟩ := exists_readAll_upTo_of_le (readAll_upTo_front reads behind)
    (Nat.succ_le_of_lt before)
  exact not_clashes_of_readAll prior

theorem closedBy_of_readAll (reads : readAll [] (front.map Prod.snd) = some []) (place : Nat)
    (behind : List (Nat × Char)) :
    ClosedBy bracket (front ++ (place, bracket.closing) :: behind) front.length place where
  found := by simp
  balanced := by
    have pair := Balanced.pair bracket (balanced_iff_readAll.2 reads) .nil
    simpa [upTo, List.take_add_one] using pair
  shortest := fun _ le => not_balanced_upTo reads _ le

theorem clashesFirst_of_readAll (reads : readAll [] (front.map Prod.snd) = some nested)
    {other : Bracket} (differs : other ≠ nested.headD bracket) (place : Nat)
    (behind : List (Nat × Char)) :
    ClashesFirst bracket (front ++ (place, other.closing) :: behind) front.length place
      (nested.headD bracket) other where
  found := by simp
  isPartner := by
    have opened : readAll [] (upTo bracket (front ++ (place, other.closing) :: behind)
        front.length) = some (nested ++ [bracket]) := readAll_upTo_front reads _
    cases nested with
    | nil => exact (isPartner_iff opened).2 rfl
    | cons inner nested => exact (isPartner_iff opened).2 rfl
  differs := differs
  first := fun _ before _ _ _ => not_clashes_of_lt reads _ before
  unclosed := fun _ le => not_balanced_upTo reads _ le

end Behind

end ClosureCapture.Delimiter
