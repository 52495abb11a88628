import ClosureCapture.Proofs.CaptureList.Grammar
import ClosureCapture.Proofs.Delimiter.Passing
import ClosureCapture.Scope

/-!
# The way through the clauses of a capture list

A search for a closing delimiter passes over the clauses of a capture list and the word `in`
without opening a pair: there is nothing but blanks, comments, commas and words, because every
other character makes the list unreadable.  So it comes to the body with the pairs it started with.
-/

namespace ClosureCapture

open Delimiter Delimiter.Search

/-! ### Words -/

namespace Text

theorem takeBareWord_prefix (text : List Char) : takeBareWord text <+: text := by
  cases text with
  | nil => exact List.prefix_refl _
  | cons first rest =>
      rw [takeBareWord]
      split
      · exact (List.prefix_cons_inj first).2 (List.takeWhile_prefix _)
      · exact List.nil_prefix

theorem takeWord_prefix (text : List Char) : takeWord text <+: text := by
  unfold takeWord
  split
  · next rest =>
      split
      · exact takeBareWord_prefix _
      · have inner := takeBareWord_prefix rest
        exact (List.prefix_cons_inj 'r').2 ((List.prefix_cons_inj '#').2 inner)
  · exact takeBareWord_prefix _

/-- A text is the word at its start and what is left behind it. -/
theorem word_append_of_takeWord {first letter : Char} {rest letters : List Char}
    (found : takeWord (first :: rest) = letter :: letters) :
    first :: rest = (letter :: letters) ++ rest.drop letters.length := by
  obtain ⟨after, split⟩ := takeWord_prefix (first :: rest)
  rw [found, List.cons_append] at split
  obtain ⟨rfl, rfl⟩ := List.cons.inj split
  rw [List.drop_left, List.cons_append]

/-- A character of a word, which may have a raw marker. -/
def IsSpelling (character : Char) : Prop :=
  isWord character = true ∨ character = '#'

theorem IsSpelling.isIdle {character : Char} (spelling : IsSpelling character) :
    IsIdle character := by
  rcases spelling with word | rfl
  · obtain ⟨unmarked, opens, closes⟩ := Site.isQuiet_of_isPathCharacter (.inl word)
    refine ⟨?_, opens, closes⟩
    simp only [Literal.marks, List.mem_cons, List.not_mem_nil, or_false, not_or] at unmarked
    simp [Literal.IsSoft, unmarked]
  · decide

theorem exists_trimEnd_append (text : List Char) :
    ∃ trail, text = trimEnd text ++ trail ∧ ∀ blank ∈ trail, isBlank blank = true := by
  obtain ⟨blanks, split, allBlank⟩ := exists_append_trimStart text.reverse
  refine ⟨blanks.reverse, ?_, fun blank member => allBlank blank (List.mem_reverse.1 member)⟩
  have reversed := congrArg List.reverse split
  rwa [List.reverse_reverse, List.reverse_append] at reversed

theorem isWordStart_of_takeBareWord {text letters : List Char} {letter : Char}
    (taken : takeBareWord text = letter :: letters) :
    isWordStart letter = true ∧ ∀ part ∈ letters, isWord part = true := by
  cases text with
  | nil => simp [takeBareWord] at taken
  | cons first rest =>
      rw [takeBareWord] at taken
      split at taken
      · next starts =>
          obtain ⟨rfl, rfl⟩ := List.cons.inj taken
          exact ⟨starts, List.all_eq_true.1 List.all_takeWhile⟩
      · simp at taken

theorem isWhole_of_takeWord {text letters : List Char} {letter : Char}
    (taken : takeWord text = letter :: letters) : IsWhole (letter :: letters) := by
  unfold takeWord at taken
  split at taken
  · next rest =>
      split at taken
      · obtain ⟨starts, inside⟩ := isWordStart_of_takeBareWord taken
        exact .bare starts inside
      · next word nonempty =>
          obtain ⟨rfl, rfl⟩ := List.cons.inj taken
          obtain ⟨first, others, spelled⟩ := List.exists_cons_of_ne_nil nonempty
          obtain ⟨starts, inside⟩ := isWordStart_of_takeBareWord spelled
          rw [spelled]
          exact .raw starts inside
  · obtain ⟨starts, inside⟩ := isWordStart_of_takeBareWord taken
    exact .bare starts inside

theorem IsWhole.isSpelling {word : List Char} (whole : IsWhole word) :
    ∀ character ∈ word, IsSpelling character := by
  intro character member
  cases whole with
  | bare starts inside =>
      rcases List.mem_cons.1 member with rfl | later
      · exact .inl (isWord_of_isWordStart starts)
      · exact .inl (inside character later)
  | raw starts inside =>
      rcases List.mem_cons.1 member with rfl | marked
      · exact .inl (by decide)
      rcases List.mem_cons.1 marked with rfl | later
      · exact .inr rfl
      rcases List.mem_cons.1 later with rfl | last
      · exact .inl (isWord_of_isWordStart starts)
      · exact .inl (inside character last)

theorem isWord_of_takeBareWord {text letters after : List Char} {letter : Char}
    (taken : takeBareWord text = letter :: letters) (split : text = (letter :: letters) ++ after) :
    ∀ next ∈ after.head?, isWord next = false := by
  intro next isNext
  subst split
  rw [List.cons_append, takeBareWord] at taken
  split at taken
  · obtain ⟨-, same⟩ := List.cons.inj taken
    have stops := List.head?_dropWhile_not isWord (letters ++ after)
    have dropped : (letters ++ after).dropWhile isWord = after := by
      have whole := @List.takeWhile_append_dropWhile _ isWord (letters ++ after)
      rw [same] at whole
      exact List.append_cancel_left whole
    rw [dropped] at stops
    rw [Option.mem_def] at isNext
    simpa [isNext] using stops
  · simp at taken

/-- A word is followed by no part of a word. -/
theorem isWord_of_takeWord {text letters after : List Char} {letter : Char}
    (taken : takeWord text = letter :: letters) (split : text = (letter :: letters) ++ after) :
    ∀ next ∈ after.head?, isWord next = false := by
  unfold takeWord at taken
  split at taken
  · next rest =>
      split at taken
      · exact isWord_of_takeBareWord taken split
      · next word nonempty =>
          obtain ⟨rfl, rfl⟩ := List.cons.inj taken
          obtain ⟨-, -, split⟩ := by simpa only [List.cons_append, List.cons.injEq] using split
          obtain ⟨first, letters, spelled⟩ := List.exists_cons_of_ne_nil nonempty
          exact isWord_of_takeBareWord spelled (spelled ▸ split)
  · exact isWord_of_takeBareWord taken split

theorem takeBareWord_eq_nil_iff {first : Char} {rest : List Char} :
    takeBareWord (first :: rest) = [] ↔ isWordStart first = false := by
  rw [takeBareWord]
  split <;> simp_all

/-- There is no word where none can start. -/
theorem takeWord_eq_nil_iff {first : Char} {rest : List Char} :
    takeWord (first :: rest) = [] ↔ isWordStart first = false := by
  unfold takeWord
  split
  · next tail same =>
      obtain ⟨rfl, rfl⟩ := List.cons.inj same
      split
      · exact takeBareWord_eq_nil_iff
      · exact iff_of_false (by simp) (by decide)
  · exact takeBareWord_eq_nil_iff

theorem takeBareWord_append_of_head (text : List Char) {tail : List Char} (ends : EndsWord tail) :
    takeBareWord (text ++ tail) = takeBareWord text := by
  have stops : tail.takeWhile isWord = [] := by
    cases tail with
    | nil => rfl
    | cons next tail => exact List.takeWhile_cons_of_neg (by simp [(ends next rfl).1])
  cases text with
  | nil =>
      cases tail with
      | nil => rfl
      | cons next tail => exact takeBareWord_eq_nil_iff.2 (by simp [isWordStart, (ends next rfl).1])
  | cons first rest =>
      rw [List.cons_append, takeBareWord, takeBareWord, List.takeWhile_append, stops]
      split
      · split
        · next all => rw [List.append_nil, (List.takeWhile_prefix isWord).eq_of_length all]
        · rfl
      · rfl

/-- The word at the start of a text does not change when no word goes on behind the text. -/
theorem takeWord_append_of_head (text : List Char) {tail : List Char} (ends : EndsWord tail) :
    takeWord (text ++ tail) = takeWord text := by
  by_cases marked : ∃ rest, text = 'r' :: '#' :: rest
  · obtain ⟨rest, rfl⟩ := marked
    have whole := takeBareWord_append_of_head ('r' :: '#' :: rest) ends
    rw [List.cons_append, List.cons_append] at whole ⊢
    rw [takeWord, takeWord, takeBareWord_append_of_head rest ends, whole]
  · have stays : ∀ rest, text ++ tail ≠ 'r' :: '#' :: rest := by
      intro rest same
      rcases text with _ | ⟨first, _ | ⟨second, later⟩⟩
      · obtain rfl : tail = 'r' :: '#' :: rest := same
        exact absurd (ends 'r' rfl).1 (by decide)
      · obtain rfl : tail = '#' :: rest := (List.cons.inj same).2
        exact (ends '#' rfl).2 rfl
      · obtain ⟨rfl, rfl, -⟩ := by simpa only [List.cons_append, List.cons.injEq] using same
        exact marked ⟨later, rfl⟩
    rw [takeWord.eq_2 _ stays, takeWord.eq_2 _ fun rest same => marked ⟨rest, same⟩,
      takeBareWord_append_of_head text ends]

/-- A text that starts with a blank, if with anything. -/
def StartsBlank (text : List Char) : Prop :=
  ∀ first ∈ text.head?, isBlank first = true

theorem StartsBlank.endsWord {text : List Char} (starts : StartsBlank text) : EndsWord text := by
  intro first isFirst
  have blank := starts first isFirst
  refine ⟨isWord_of_isBlank blank, ?_⟩
  rintro rfl
  exact absurd blank (by decide)

theorem StartsBlank.isWord_head_append {text tail : List Char} (starts : StartsBlank tail)
    (ends : ∀ next ∈ text.head?, isWord next = false) :
    ∀ next ∈ (text ++ tail).head?, isWord next = false := by
  intro next isNext
  rw [List.head?_append] at isNext
  rcases Option.or_eq_some_iff.1 isNext with inside | ⟨-, inTail⟩
  · exact ends next inside
  · exact isWord_of_isBlank (starts next inTail)

end Text

/-! ### What the scan of tokens has passed -/

theorem Comment.exists_run_of_skip_eq_cons {text rest : List Char} {first : Char}
    (skipped : skip text = first :: rest) :
    ∃ spacers, text = Spacer.run spacers ++ first :: rest := by
  rcases exists_run_of_skip text with ⟨spacers, other, later, rfl, visible, noComment⟩ | spacing
  · rw [skip_run, skip_of_visible visible noComment] at skipped
    exact ⟨spacers, by rw [skipped]⟩
  · rw [skip_eq_nil_iff.2 spacing] at skipped
    simp at skipped

theorem Comment.skip_append_of_skip_eq_cons {text rest tail : List Char} {first : Char}
    (skipped : skip text = first :: rest) (starts : Text.StartsBlank tail) :
    skip (text ++ tail) = first :: (rest ++ tail) := by
  rcases exists_run_of_skip text with ⟨spacers, other, later, rfl, visible, noComment⟩ | spacing
  · rw [skip_run, skip_of_visible visible noComment] at skipped
    obtain ⟨rfl, rfl⟩ := List.cons.inj skipped
    have apart : ∀ next ∈ tail.head?, next ≠ '/' ∧ next ≠ '*' := by
      intro next isNext
      constructor <;> rintro rfl <;> exact absurd (starts _ isNext) (by decide)
    rw [List.append_assoc, skip_run, List.cons_append]
    exact skip_of_visible visible (after?_append_of_head noComment apart)
  · rw [skip_eq_nil_iff.2 spacing] at skipped
    simp at skipped

namespace Token

/-- The tokens of a text that holds nothing but words, commas and a body. -/
def IsClean (tokens : List Token) : Prop :=
  ∀ token ∈ tokens, token.kind ≠ .other

theorem IsClean.tail {token : Token} {tokens : List Token} (clean : IsClean (token :: tokens)) :
    IsClean tokens :=
  fun other member => clean other (List.mem_cons_of_mem _ member)

/-- A quote or a hash is a stray character. -/
theorem exists_scanFrom_mark (offset : Nat) {mark : Char} (isMark : mark ∈ ['"', '\'', '#'])
    (tail : List Char) :
    ∃ others, scanFrom offset (mark :: tail) =
      ⟨.other, String.ofList [mark], offset⟩ :: others := by
  have visible : Text.isBlank mark = false ∧ mark ≠ '/' ∧ mark ≠ ',' ∧
      Text.isWordStart mark = false := by
    simp only [List.mem_cons, List.not_mem_nil, or_false] at isMark
    rcases isMark with rfl | rfl | rfl <;> decide
  obtain ⟨notBlank, notSlash, notComma, notWord⟩ := visible
  have skipped := Comment.skip_of_visible notBlank (Comment.after?_of_ne_slash tail notSlash)
  have scanned := scanFrom_of_skip_eq_cons offset skipped
  rw [Text.takeWord_eq_nil_iff.2 notWord, if_neg notComma, List.length_cons, Nat.sub_self,
    Nat.add_zero] at scanned
  exact ⟨_, scanned⟩

/-- Behind a word, no quote and no hash makes clean tokens. -/
theorem IsClean.head {offset : Nat} {text : List Char} (clean : IsClean (scanFrom offset text)) :
    ∀ next ∈ text.head?, next ∉ ['"', '\'', '#'] := by
  intro next isNext mark
  obtain ⟨tail, rfl⟩ := List.head?_eq_some_iff.1 isNext
  obtain ⟨others, scanned⟩ := exists_scanFrom_mark offset mark tail
  rw [scanned] at clean
  exact clean _ List.mem_cons_self rfl

/-- The text before the body of a capture list, from an offset on, with its tokens.  It ends in
`in`, a search passes over it, and whatever follows is scanned as a body. -/
structure IsRegion (offset : Nat) (region : List Char) (tokens : List Token) : Prop where
  getLast?_eq : region.getLast? = some 'n'
  passes : ∀ rest nested, Passes region rest nested nested
  scanFrom_eq : ∀ after : List Char, (∀ next ∈ after.head?, Text.isWord next = false) →
    scanFrom offset (region ++ after) = tokens ++ scanBody (offset + region.length) after

theorem IsRegion.ne_nil {offset : Nat} {region : List Char} {tokens : List Token}
    (isRegion : IsRegion offset region tokens) : region ≠ [] :=
  List.ne_nil_of_mem (List.mem_of_getLast? isRegion.getLast?_eq)

theorem IsRegion.append {offset : Nat} {front region : List Char} {first tokens : List Token}
    (isRegion : IsRegion (offset + front.length) region tokens)
    (passes : ∀ rest nested, Passes front (region ++ rest) nested nested)
    (scanned : ∀ after, scanFrom offset (front ++ (region ++ after)) =
      first ++ scanFrom (offset + front.length) (region ++ after)) :
    IsRegion offset (front ++ region) (first ++ tokens) where
  getLast?_eq := by
    rw [List.getLast?_append_of_ne_nil _ isRegion.ne_nil]
    exact isRegion.getLast?_eq
  passes := fun rest nested => (passes rest nested).append (isRegion.passes rest nested)
  scanFrom_eq := by
    intro after ends
    rw [List.append_assoc, scanned, isRegion.scanFrom_eq after ends, List.append_assoc,
      List.length_append, Nat.add_assoc]

theorem IsRegion.run {offset : Nat} {spacers : List Spacer} {region : List Char}
    {tokens : List Token}
    (isRegion : IsRegion (offset + (Spacer.run spacers).length) region tokens) :
    IsRegion offset (Spacer.run spacers ++ region) tokens :=
  @IsRegion.append offset _ region [] tokens isRegion
    (fun _ nested => passes_run spacers _ nested)
    fun after => scanFrom_run offset spacers (region ++ after)

theorem isRegion_in (offset : Nat) : IsRegion offset ['i', 'n'] [ofWord "in" offset] := by
  refine ⟨rfl, ?_, ?_⟩
  · intro rest nested
    have letter : ∀ {first : Char}, first ∈ ['i', 'n'] →
        ∀ rest, Passes [first] rest nested nested := by
      intro first member rest
      have mute : first ∉ ['"', '\'', '/', 'b', 'r'] ∧ Bracket.ofOpening? first = none ∧
          Bracket.ofClosing? first = none := by
        simp only [List.mem_cons, List.not_mem_nil, or_false] at member
        rcases member with rfl | rfl <;> decide
      exact passes_mute mute.1 mute.2.1 mute.2.2 rest nested
    exact (letter (by simp) _).append (letter (by simp) rest)
  · intro after ends
    have visible : Comment.skip ('i' :: 'n' :: after) = 'i' :: 'n' :: after :=
      Comment.skip_of_isWord (by decide) _
    have stops : after.takeWhile Text.isWord = [] := by
      cases after with
      | nil => rfl
      | cons next after => exact List.takeWhile_cons_of_neg (by simp [ends next rfl])
    have taken : Text.takeWord ('i' :: 'n' :: after) = ['i', 'n'] := by
      have starts : Text.isWordStart 'i' = true := by decide
      rw [Text.takeWord, Text.takeBareWord, if_pos starts, List.takeWhile_cons_of_pos (by decide),
        stops]
      simp
    have scanned := scanFrom_of_skip_eq_cons offset visible
    rw [taken, if_neg (by decide)] at scanned
    simpa using scanned

theorem ofWord_kind (word : String) (offset : Nat) : (ofWord word offset).kind ≠ .body := by
  rw [ofWord]
  split <;> simp

/-- How far the scan of a text comes before the tail behind the text, without a body on its way: to
the end of `in`, or to a rest of blanks and comments. -/
inductive Reaches (offset : Nat) (text tail : List Char) : Prop
  | region {region after : List Char} {tokens : List Token} : text = region ++ after →
      IsRegion offset region tokens → (∀ token ∈ tokens, token.kind ≠ .body) →
      (∀ next ∈ after.head?, Text.isWord next = false) → Reaches offset text tail
  | spacing {front rest : List Char} {tokens : List Token} : text = front ++ rest →
      OnlySpacing rest → (∀ token ∈ tokens, token.kind ≠ .body) →
      (∀ nested, rest ≠ [] → Passes front rest nested nested) →
      scanFrom offset (text ++ tail) =
        tokens ++ scanFrom (offset + front.length) (rest ++ tail) →
      Reaches offset text tail

theorem Reaches.append {offset : Nat} {piece text tail : List Char} {first : List Token}
    (reaches : Reaches (offset + piece.length) text tail)
    (bodiless : ∀ token ∈ first, token.kind ≠ .body)
    (passes : ∀ more nested, more ≠ [] → more.head? = (text ++ tail).head? →
      Passes piece more nested nested)
    (scanned : ∀ more : List Char, more.head? = (text ++ tail).head? →
      scanFrom offset (piece ++ more) = first ++ scanFrom (offset + piece.length) more) :
    Reaches offset (piece ++ text) tail := by
  have without : ∀ {tokens : List Token}, (∀ token ∈ tokens, token.kind ≠ .body) →
      ∀ token ∈ first ++ tokens, token.kind ≠ .body :=
    fun later => List.forall_mem_append.2 ⟨bodiless, later⟩
  cases reaches with
  | @region region after tokens split isRegion later ends =>
      subst split
      have head : ∀ more, (region ++ more).head? = (region ++ after ++ tail).head? := by
        intro more
        obtain ⟨next, others, rfl⟩ := List.exists_cons_of_ne_nil isRegion.ne_nil
        rfl
      refine .region (List.append_assoc ..).symm (isRegion.append ?_ ?_) (without later) ends
      · intro rest nested
        exact passes _ nested (by simp [isRegion.ne_nil]) (head rest)
      · intro more
        exact scanned _ (head more)
  | @spacing front rest tokens split spacing later passesFront scannedFront =>
      subst split
      refine .spacing (List.append_assoc ..).symm spacing (without later) ?_ ?_
      · intro nested nonempty
        have more : front ++ rest ≠ [] := by simp [nonempty]
        have head : (front ++ rest).head? = (front ++ rest ++ tail).head? := by
          obtain ⟨next, others, split⟩ := List.exists_cons_of_ne_nil more
          rw [split]
          rfl
        exact (passes _ nested more head).append (passesFront nested nonempty)
      · rw [List.append_assoc, scanned _ rfl, scannedFront, List.length_append, Nat.add_assoc,
          List.append_assoc]

theorem Reaches.run {offset : Nat} {spacers : List Spacer} {text tail : List Char}
    (reaches : Reaches (offset + (Spacer.run spacers).length) text tail) :
    Reaches offset (Spacer.run spacers ++ text) tail :=
  @Reaches.append offset _ text tail [] reaches (by simp)
    (fun more nested _ _ => passes_run spacers more nested)
    fun more _ => scanFrom_run offset spacers more

theorem Reaches.comma {offset : Nat} {text tail : List Char}
    (reaches : Reaches (offset + 1) text tail) : Reaches offset ([','] ++ text) tail :=
  @Reaches.append offset [','] text tail [⟨.comma, ",", offset⟩] reaches (by simp)
    (fun more nested _ _ => passes_mute (by decide) (by decide) (by decide) more nested)
    fun more _ => scanFrom_comma offset more

theorem Reaches.word {offset : Nat} {word : String} {text tail : List Char}
    (reaches : Reaches (offset + word.toList.length) text tail)
    (whole : Text.IsWhole word.toList) (other : word ≠ "in")
    (ends : ∀ next ∈ (text ++ tail).head?,
      Text.isWord next = false ∧ next ∉ ['"', '\'', '#', 'r']) :
    Reaches offset (word.toList ++ text) tail := by
  have isFirst : ∀ {more : List Char} {next : Char}, more.head? = (text ++ tail).head? →
      next ∈ more.head? → Text.isWord next = false ∧ next ∉ ['"', '\'', '#', 'r'] :=
    fun same isNext => ends _ (same ▸ isNext)
  refine @Reaches.append offset _ text tail [ofWord word offset] reaches ?_ ?_ ?_
  · simpa using ofWord_kind word offset
  · intro more nested nonempty same
    obtain ⟨next, later, rfl⟩ := List.exists_cons_of_ne_nil nonempty
    exact passes_idle (fun character member => (whole.isSpelling character member).isIdle)
      (isFirst same rfl).2 _ _
  · intro more same
    have endsWord : Text.EndsWord more := by
      intro next isNext
      obtain ⟨apart, unmarked⟩ := isFirst same isNext
      exact ⟨apart, fun hash => unmarked (by simp [hash])⟩
    rw [scanFrom_word offset whole endsWord, if_neg other]
    rfl

/-- Clean tokens come from a text that a search passes over, as far as there is no body. -/
theorem reaches_of_isClean (offset : Nat) (text : List Char) {tail : List Char}
    (starts : Text.StartsBlank tail) :
    IsClean (scanFrom offset (text ++ tail)) → Reaches offset text tail := by
  fun_induction scanFrom offset text with
  | case1 offset text skipped =>
      intro clean
      exact @Reaches.spacing offset text tail [] text [] rfl (Comment.skip_eq_nil_iff.1 skipped)
        (by simp) (fun nested _ => passes_nil _ nested) rfl
  | case2 offset text rest start skipped ih =>
      intro clean
      obtain ⟨spacers, rfl⟩ := Comment.exists_run_of_skip_eq_cons skipped
      have place : start = offset + (Spacer.run spacers).length := by
        simp only [start, List.length_append, List.length_cons]
        omega
      rw [List.append_assoc, scanFrom_run, List.cons_append, scanFrom_comma] at clean
      rw [place] at ih
      exact (ih clean.tail).comma.run
  | case3 offset text first rest skipped start comma noWord ih =>
      intro clean
      have scanned :=
        scanFrom_of_skip_eq_cons offset (Comment.skip_append_of_skip_eq_cons skipped starts)
      rw [← List.cons_append, Text.takeWord_append_of_head _ starts.endsWord, noWord,
        if_neg comma] at scanned
      rw [scanned] at clean
      exact absurd rfl (clean _ List.mem_cons_self)
  | case4 offset text first rest skipped start comma letter letters taken word after next isIn =>
      intro clean
      obtain ⟨spacers, rfl⟩ := Comment.exists_run_of_skip_eq_cons skipped
      have split := Text.word_append_of_takeWord taken
      have spelled : letter :: letters = ['i', 'n'] := by
        have letters := congrArg String.toList isIn
        simpa [word] using letters
      refine @Reaches.region offset _ tail (Spacer.run spacers ++ ['i', 'n']) after _ ?_
        (isRegion_in _).run ?_ (Text.isWord_of_takeWord taken split)
      · rw [split, spelled, List.append_assoc]
      · simpa using ofWord_kind "in" _
  | case5 offset text first rest skipped start comma letter letters taken word after next other ih =>
      intro clean
      have scanned :=
        scanFrom_of_skip_eq_cons offset (Comment.skip_append_of_skip_eq_cons skipped starts)
      rw [← List.cons_append, Text.takeWord_append_of_head _ starts.endsWord, taken,
        if_neg comma] at scanned
      have split := Text.word_append_of_takeWord taken
      have behind : (rest ++ tail).drop letters.length = after ++ tail := by
        have parts : rest = letters ++ after := (List.cons.inj split).2
        rw [parts, List.append_assoc, List.drop_left]
      have letters_eq : word.toList = letter :: letters := String.toList_ofList
      dsimp only at scanned
      rw [if_neg other, behind] at scanned
      rw [scanned] at clean
      have ends : ∀ next ∈ (after ++ tail).head?,
          Text.isWord next = false ∧ next ∉ ['"', '\'', '#', 'r'] := by
        intro character isNext
        have unmarked := clean.tail.head character isNext
        have apart :=
          starts.isWord_head_append (Text.isWord_of_takeWord taken split) character isNext
        have notRaw : character ≠ 'r' := by
          rintro rfl
          exact absurd apart (by decide)
        exact ⟨apart, by simpa [notRaw] using unmarked⟩
      have whole : Text.IsWhole word.toList := letters_eq ▸ Text.isWhole_of_takeWord taken
      obtain ⟨spacers, rfl⟩ := Comment.exists_run_of_skip_eq_cons skipped
      have place : next = offset + (Spacer.run spacers).length + word.toList.length := by
        rw [letters_eq]
        simp only [next, start, List.length_append, List.length_cons]
        omega
      rw [split, ← letters_eq]
      refine (Reaches.word ?_ whole other ends).run
      rw [← place]
      apply ih
      have same : next = offset + ((Spacer.run spacers ++ first :: rest ++ tail).length -
          ((rest ++ tail).length + 1)) + (letters.length + 1) := by
        simp only [next, start, List.length_append, List.length_cons]
        omega
      rw [same]
      exact clean.tail

/-- Before a body, clean tokens come from a text that a search passes over. -/
theorem exists_region (offset : Nat) (text : List Char) {body : String} {place : Nat}
    (clean : IsClean (scanFrom offset text))
    (member : ⟨.body, body, place⟩ ∈ scanFrom offset text) :
    ∃ region after tokens, text = region ++ after ∧ IsRegion offset region tokens ∧
      (∀ next ∈ after.head?, Text.isWord next = false) ∧
      ⟨.body, body, place⟩ ∈ scanBody (offset + region.length) after := by
  have reaches := @reaches_of_isClean offset text [] (by simp [Text.StartsBlank])
    (by rwa [List.append_nil])
  cases reaches with
  | @region region after tokens split isRegion bodiless ends =>
      rw [split, isRegion.scanFrom_eq after ends] at member
      rcases List.mem_append.1 member with before | found
      · exact absurd rfl (bodiless _ before)
      · exact ⟨region, after, tokens, split, isRegion, ends, found⟩
  | @spacing front rest tokens split spacing bodiless passes scanned =>
      rw [List.append_nil, List.append_nil,
        scanFrom_of_skip_eq_nil _ (Comment.skip_eq_nil_iff.2 spacing), List.append_nil] at scanned
      rw [scanned] at member
      exact absurd rfl (bodiless _ member)

theorem scanBody_of_spacing {text : List Char} (spacing : OnlySpacing text) (offset : Nat) :
    scanBody offset text = [] := by
  simp [scanBody, Comment.skip_eq_nil_iff.2 spacing]

theorem scanBody_of_content {text : List Char} (content : ¬ OnlySpacing text) (offset : Nat) :
    scanBody offset text = [⟨.body, String.ofList (Text.trim text),
      offset + (text.takeWhile Text.isBlank).length⟩] := by
  have something : ¬ (Comment.skip text).isEmpty = true := by
    rwa [List.isEmpty_iff, Comment.skip_eq_nil_iff]
  have blanks : text.length - (Text.trimStart text).length =
      (text.takeWhile Text.isBlank).length := by
    have length := congrArg List.length (@List.takeWhile_append_dropWhile _ Text.isBlank text)
    rw [List.length_append, ← Text.trimStart] at length
    omega
  rw [scanBody, if_neg something, blanks]

theorem content_of_mem_scanBody {offset : Nat} {text : List Char} {token : Token}
    (found : token ∈ scanBody offset text) : ¬ OnlySpacing text := by
  intro spacing
  simp [scanBody_of_spacing spacing] at found

/-- A body is what is left behind `in` without the blanks around it. -/
theorem exists_of_mem_scanBody {offset : Nat} {text : List Char} {token : Token}
    (found : token ∈ scanBody offset text) :
    ∃ blanks trail, text = blanks ++ (token.text.toList ++ trail) ∧
      (∀ blank ∈ blanks, Text.isBlank blank = true) ∧
      (∀ blank ∈ trail, Text.isBlank blank = true) ∧ token.offset = offset + blanks.length := by
  rw [scanBody_of_content (content_of_mem_scanBody found), List.mem_singleton] at found
  obtain rfl := found
  obtain ⟨trail, ended, blankBehind⟩ := Text.exists_trimEnd_append (Text.trimStart text)
  refine ⟨text.takeWhile Text.isBlank, trail, ?_, List.all_eq_true.1 List.all_takeWhile,
    blankBehind, rfl⟩
  rw [String.toList_ofList, Text.trim, ← ended]
  exact List.takeWhile_append_dropWhile.symm

/-- The tokens of a region are those before the body. -/
theorem IsRegion.tokens_eq {region after : List Char} {tokens front : List Token}
    {body last : Token} (isRegion : IsRegion 0 region tokens)
    (ends : ∀ next ∈ after.head?, Text.isWord next = false)
    (found : body ∈ scanBody region.length after)
    (scanned : scan (region ++ after) = front ++ [last]) : tokens = front := by
  rw [scan, isRegion.scanFrom_eq after ends, Nat.zero_add,
    scanBody_of_content (content_of_mem_scanBody found)] at scanned
  exact List.append_inj_left' scanned rfl

theorem isWhole_of_mem_scanFrom (offset : Nat) (text : List Char) :
    ∀ token ∈ scanFrom offset text, token.kind = .identifier →
      Text.IsWhole token.text.toList := by
  have ofTaken : ∀ {text letters : List Char} {letter : Char} {offset : Nat},
      Text.takeWord text = letter :: letters →
      Text.IsWhole (ofWord (String.ofList (letter :: letters)) offset).text.toList := by
    intro text letters letter offset taken
    rw [ofWord, String.toList_ofList]
    exact Text.isWhole_of_takeWord taken
  fun_induction scanFrom offset text with
  | case1 => simp
  | case2 offset text rest start skipped ih =>
      intro token member identified
      rcases List.mem_cons.1 member with rfl | later
      · simp at identified
      · exact ih token later identified
  | case3 offset text first rest skipped start comma noWord ih =>
      intro token member identified
      rcases List.mem_cons.1 member with rfl | later
      · simp at identified
      · exact ih token later identified
  | case4 offset text first rest skipped start comma letter letters taken word after next isIn =>
      intro token member identified
      rcases List.mem_cons.1 member with rfl | later
      · exact ofTaken taken
      · unfold scanBody at later
        split at later
        · simp at later
        · obtain rfl := List.mem_singleton.1 later
          simp at identified
  | case5 offset text first rest skipped start comma letter letters taken word after next other ih =>
      intro token member identified
      rcases List.mem_cons.1 member with rfl | later
      · exact ofTaken taken
      · exact ih token later identified

end Token

/-- Both names of a binding are words. -/
structure Binding.IsSpelled (binding : Binding) : Prop where
  name : ∀ character ∈ binding.name.toList, Text.IsSpelling character
  method : ∀ method, binding.mode = .method method →
    ∀ character ∈ method.toList, Text.IsSpelling character

/-- Both names of a binding are whole words. -/
structure Binding.IsWorded (binding : Binding) : Prop where
  name : Text.IsWhole binding.name.toList
  method : ∀ method, binding.mode = .method method → Text.IsWhole method.toList

theorem Binding.IsWorded.isSpelled {binding : Binding} (worded : binding.IsWorded) :
    binding.IsSpelled :=
  ⟨worded.name.isSpelling, fun method called => (worded.method method called).isSpelling⟩

namespace CaptureList

theorem isClean_phrases (phrases : List Phrase) (terminal : Nat) (body : String) (place : Nat) :
    Token.IsClean (phrases.flatMap Phrase.tokens ++
      [⟨.keyword, "in", terminal⟩, ⟨.body, body, place⟩]) := by
  intro token member
  simp only [List.mem_append, List.mem_flatMap, List.mem_cons, List.not_mem_nil, or_false] at member
  rcases member with ⟨phrase, -, inPhrase⟩ | rfl | rfl
  · cases phrase <;>
      simp only [Phrase.tokens, List.mem_cons, List.not_mem_nil, or_false] at inPhrase
    all_goals rcases inPhrase with rfl | rfl | rfl <;> simp
  · simp
  · simp

/-- Phrases, `in` and a body are written as a text that a search passes over, with the body behind
it. -/
theorem exists_region_of_scan {text : List Char} {phrases : List Phrase} {terminal place : Nat}
    {body : String}
    (scanned : Token.scan text = phrases.flatMap Phrase.tokens ++
      [⟨.keyword, "in", terminal⟩, ⟨.body, body, place⟩]) :
    ∃ region after, text = region ++ after ∧
      Token.IsRegion 0 region (phrases.flatMap Phrase.tokens ++ [⟨.keyword, "in", terminal⟩]) ∧
      (∀ next ∈ after.head?, Text.isWord next = false) ∧
      ⟨.body, body, place⟩ ∈ Token.scanBody region.length after := by
  have clean := isClean_phrases phrases terminal body place
  have member : ⟨.body, body, place⟩ ∈ Token.scan text := by simp [scanned]
  rw [← scanned] at clean
  obtain ⟨region, after, tokens, rfl, isRegion, ends, found⟩ :=
    Token.exists_region 0 text clean member
  rw [Nat.zero_add] at found
  rw [List.append_cons] at scanned
  rw [isRegion.tokens_eq ends found scanned] at isRegion
  exact ⟨region, after, rfl, isRegion, ends, found⟩

/-- A list that was read has its body behind a text that a search passes over. -/
theorem exists_region_of_parse {text : List Char} {list : CaptureList String}
    (parsed : parse text = .ok list) :
    ∃ region after tokens place, text = region ++ after ∧ Token.IsRegion 0 region tokens ∧
      (∀ next ∈ after.head?, Text.isWord next = false) ∧ list.bodyOffset = some place ∧
      ⟨.body, list.body, place⟩ ∈ Token.scanBody region.length after := by
  obtain ⟨sentence, written, rfl⟩ := parse_eq_ok_iff.1 parsed
  obtain ⟨region, after, split, isRegion, ends, found⟩ := exists_region_of_scan written.symm
  exact ⟨region, after, _, sentence.place, split, isRegion, ends, rfl, found⟩

/-- Behind phrases and `in`, reading a text comes down to reading its body. -/
theorem parse_append_of_phrases {region : List Char} {phrases : List Phrase} {terminal : Nat}
    (isRegion : Token.IsRegion 0 region
      (phrases.flatMap Phrase.tokens ++ [⟨.keyword, "in", terminal⟩]))
    {other : List Char} (ends : ∀ next ∈ other.head?, Text.isWord next = false) :
    parse (region ++ other) =
      (readBody ⟨.keyword, "in", terminal⟩ (Token.scanBody region.length other)).map fun found =>
        ⟨phrases.filterMap Phrase.clause?, found.1, some found.2⟩ := by
  rw [parse, read, Token.scan, isRegion.scanFrom_eq other ends, List.append_assoc,
    List.singleton_append, readTokens_phrases, readTokens_terminal, Nat.zero_add]
  cases readBody _ (Token.scanBody region.length other) with
  | error fault => rfl
  | ok found => simp [Reading.list, Except.map, bind, Except.bind, pure, Except.pure]

/-- The clauses of a list are read from the text before its body, whatever body stands there. -/
theorem parse_append_of_region {region after : List Char} {tokens : List Token} {body : Token}
    {list : CaptureList String} (isRegion : Token.IsRegion 0 region tokens)
    (ends : ∀ next ∈ after.head?, Text.isWord next = false)
    (found : body ∈ Token.scanBody region.length after)
    (parsed : parse (region ++ after) = .ok list) :
    ∃ terminal, ∀ other : List Char, (∀ next ∈ other.head?, Text.isWord next = false) →
      parse (region ++ other) =
        (readBody terminal (Token.scanBody region.length other)).map fun found =>
          ⟨list.clauses, found.1, some found.2⟩ := by
  obtain ⟨sentence, written, rfl⟩ := parse_eq_ok_iff.1 parsed
  rw [Sentence.tokens, List.append_cons] at written
  rw [isRegion.tokens_eq ends found written.symm] at isRegion
  exact ⟨_, fun other endsOther => parse_append_of_phrases isRegion endsOther⟩

theorem isWorded_of_parse {text : List Char} {list : CaptureList String}
    (parsed : parse text = .ok list) : ∀ clause ∈ list.clauses, clause.binding.IsWorded := by
  obtain ⟨sentence, written, rfl⟩ := parse_eq_ok_iff.1 parsed
  intro clause member
  obtain ⟨phrase, inSentence, stated⟩ := List.mem_filterMap.1 member
  have whole : ∀ name place, ⟨.identifier, name, place⟩ ∈ phrase.tokens →
      Text.IsWhole name.toList := by
    intro name place inPhrase
    refine Token.isWhole_of_mem_scanFrom 0 text ⟨.identifier, name, place⟩ ?_ rfl
    rw [← Token.scan, ← written, Sentence.tokens]
    exact List.mem_append_left _ (List.mem_flatMap.2 ⟨phrase, inSentence, inPhrase⟩)
  cases phrase with
  | comma => simp [Phrase.clause?] at stated
  | move start identifier place =>
      obtain rfl := Option.some.inj stated
      exact ⟨whole identifier place (by simp [Phrase.tokens]), by simp [Clause.binding]⟩
  | refMut start middle identifier place =>
      obtain rfl := Option.some.inj stated
      exact ⟨whole identifier place (by simp [Phrase.tokens]), by simp [Clause.binding]⟩
  | ref start identifier place =>
      obtain rfl := Option.some.inj stated
      exact ⟨whole identifier place (by simp [Phrase.tokens]), by simp [Clause.binding]⟩
  | method name start identifier place =>
      obtain rfl := Option.some.inj stated
      refine ⟨whole identifier place (by simp [Phrase.tokens]), ?_⟩
      intro method isMethod
      obtain rfl := Mode.method.inj isMethod
      exact whole name start (by simp [Phrase.tokens])

/-- A blank stands before the body of a list in the text that it was read from. -/
def SpacedBody (list : CaptureList String) (text : List Char) : Prop :=
  ∃ place blank, list.bodyOffset = some (place + 1) ∧ text[place]? = some blank ∧
    Text.isBlank blank = true

/-- The search for the delimiter behind a capture list comes to the body with no pair open and,
behind blanks, needs to know nothing of what stands before. -/
theorem exists_trail_of_close {text : List Char} {list : CaptureList String}
    (parsed : parse text = .ok list) (spaced : list.SpacedBody text)
    (closed : Delimiter.close .round [] (some '(') (text ++ [')']) = .ok [')']) :
    ∃ trail, (∀ blank ∈ trail, Text.isBlank blank = true) ∧
      ∀ previous : Option Char, previous.any Text.isWord = false →
        (Search.mk [] previous (list.body.toList ++ (trail ++ [')']))).close .round [] =
          .ok [')'] := by
  obtain ⟨region, after, tokens, place, rfl, isRegion, -, placed, found⟩ :=
    exists_region_of_parse parsed
  obtain ⟨blanks, trail, rfl, blankBefore, blankBehind, start⟩ := Token.exists_of_mem_scanBody found
  have separated : blanks ≠ [] := by
    rintro rfl
    obtain ⟨before, blank, offset, stands, isBlank⟩ := spaced
    have length : region.length - 1 = before := by
      have same := Option.some.inj (placed.symm.trans offset)
      simp only [List.length_nil, Nat.add_zero] at start
      omega
    have isLast := isRegion.getLast?_eq
    rw [List.getLast?_eq_getElem?, length] at isLast
    rw [List.getElem?_append_left (List.getElem?_eq_some_iff.1 isLast).1, isLast] at stands
    obtain rfl := Option.some.inj stands
    exact absurd isBlank (by decide)
  refine ⟨trail, blankBehind, ?_⟩
  intro previous clear
  obtain ⟨blank, others, rfl⟩ := List.exists_cons_of_ne_nil separated
  have passes :
      Passes (region ++ blank :: others) (list.body.toList ++ (trail ++ [')'])) [] [] :=
    (isRegion.passes _ []).append (passes_blanks blankBefore _ [])
  have reached := (passes (some '(')).close_eq .round []
  have ending : ((region ++ blank :: others).getLast?.or (some '(')).any Text.isWord = false := by
    obtain ⟨last, isLast⟩ : ∃ last, (blank :: others).getLast? = some last :=
      ⟨_, List.getLast?_eq_some_getLast (by simp)⟩
    rw [List.getLast?_append_of_ne_nil _ (by simp), isLast]
    exact Text.isWord_of_isBlank (blankBefore last (List.mem_of_getLast? isLast))
  rw [Search.close_congr (clear.trans ending.symm), ← reached, ← closed]
  simp [Search.close]

end CaptureList

end ClosureCapture
