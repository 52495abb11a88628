import ClosureCapture.Proofs.CaptureList.Grammar
import ClosureCapture.Proofs.Comment.Spacing

/-!
# Capture lists in any layout

A capture list can be written in many ways.  Between the words of a clause stands any run of
blanks and closed comments, between clauses and before `in` also commas; only the run before the
first word may be empty.  Blanks stand around the body.

A layout is one such way of writing a list, and it says at which offsets the clauses and the body
stand.  This file proves that reading what a layout writes gives back its clauses and its body at
these offsets.
-/

namespace ClosureCapture

namespace Text

/-- A whole word, with or without the raw marker. -/
inductive IsWhole : List Char → Prop
  | bare {first : Char} {rest : List Char} : isWordStart first = true →
      (∀ part ∈ rest, isWord part = true) → IsWhole (first :: rest)
  | raw {first : Char} {rest : List Char} : isWordStart first = true →
      (∀ part ∈ rest, isWord part = true) → IsWhole ('r' :: '#' :: first :: rest)

/-- A text that no word goes on into. -/
def EndsWord (text : List Char) : Prop :=
  ∀ first ∈ text.head?, isWord first = false ∧ first ≠ '#'

/-- The code points of the blanks. -/
def blankCodes : List Nat :=
  [0x09, 0x0A, 0x0B, 0x0C, 0x0D, 0x1C, 0x1D, 0x1E, 0x1F, 0x20, 0x85, 0xA0, 0x1680, 0x2000, 0x2001,
    0x2002, 0x2003, 0x2004, 0x2005, 0x2006, 0x2007, 0x2008, 0x2009, 0x200A, 0x2028, 0x2029, 0x202F,
    0x205F, 0x3000]

theorem toNat_mem_blankCodes {character : Char} (blank : isBlank character = true) :
    character.toNat ∈ blankCodes := by
  simp only [isBlank, Bool.or_eq_true, Bool.and_eq_true, decide_eq_true_eq, beq_iff_eq] at blank
  simp only [blankCodes, List.mem_cons, List.not_mem_nil, or_false]
  omega

theorem isWord_of_isBlank {character : Char} (blank : isBlank character = true) :
    isWord character = false := by
  have silent : ∀ code ∈ blankCodes, isWord (Char.ofNat code) = false := by decide +kernel
  have := silent _ (toNat_mem_blankCodes blank)
  rwa [Char.ofNat_toNat] at this

theorem trimEnd_append {text trail : List Char}
    (visible : ∀ last ∈ text.getLast?, isBlank last = false)
    (allBlank : ∀ blank ∈ trail, isBlank blank = true) : trimEnd (text ++ trail) = text := by
  have blankTrail : ∀ blank ∈ trail.reverse, isBlank blank = true :=
    fun blank member => allBlank blank (List.mem_reverse.1 member)
  have stops : text.reverse.dropWhile isBlank = text.reverse := by
    cases backwards : text.reverse with
    | nil => rfl
    | cons last rest =>
        have isLast : text.getLast? = some last := by
          rw [← List.head?_reverse, backwards]
          rfl
        exact List.dropWhile_cons_of_neg (by simp [visible last isLast])
  rw [trimEnd, List.reverse_append, List.dropWhile_append_of_pos blankTrail, stops,
    List.reverse_reverse]

theorem isWord_of_isWordStart {character : Char} (starts : isWordStart character = true) :
    isWord character = true := by
  rw [isWordStart, Bool.and_eq_true] at starts
  exact starts.1

theorem takeBareWord_append {first : Char} {parts rest : List Char}
    (starts : isWordStart first = true) (inside : ∀ part ∈ parts, isWord part = true)
    (ends : EndsWord rest) :
    takeBareWord (first :: (parts ++ rest)) = first :: parts := by
  have stops : rest.takeWhile isWord = [] := by
    cases rest with
    | nil => rfl
    | cons next rest => exact List.takeWhile_cons_of_neg (by simp [(ends next rfl).1])
  rw [takeBareWord, if_pos starts, List.takeWhile_append_of_pos inside, stops, List.append_nil]

/-- A whole word is taken off a text if it does not go on there. -/
theorem takeWord_append {word rest : List Char} (whole : IsWhole word) (ends : EndsWord rest) :
    takeWord (word ++ rest) = word := by
  cases whole with
  | @bare first parts starts inside =>
      have taken := takeBareWord_append starts inside ends
      rw [List.cons_append]
      unfold takeWord
      split
      · next others same =>
          -- A raw marker is no part of a bare word and does not follow one.
          obtain ⟨rfl, marked⟩ := List.cons.inj same
          cases parts with
          | nil =>
              rw [List.nil_append] at marked
              exact absurd rfl (ends '#' (by rw [marked]; rfl)).2
          | cons part parts =>
              have word := inside part (by simp)
              rw [(List.cons.inj marked).1] at word
              exact absurd word (by decide)
      · exact taken
  | @raw first parts starts inside =>
      have taken := takeBareWord_append starts inside ends
      rw [List.cons_append, List.cons_append, List.cons_append, takeWord, taken]

theorem IsWhole.exists_cons {word : List Char} (whole : IsWhole word) :
    ∃ first rest, word = first :: rest ∧ isWord first = true := by
  cases whole with
  | bare starts _ => exact ⟨_, _, rfl, isWord_of_isWordStart starts⟩
  | raw _ _ => exact ⟨_, _, rfl, by decide⟩

end Text

namespace Comment

/-- A text that starts with a part of a word is not skipped. -/
theorem skip_of_isWord {first : Char} (word : Text.isWord first = true) (rest : List Char) :
    skip (first :: rest) = first :: rest := by
  refine skip_of_visible ?_ (after?_of_ne_slash rest ?_)
  · cases blank : Text.isBlank first with
    | false => rfl
    | true => simp [Text.isWord_of_isBlank blank] at word
  · rintro rfl
    exact absurd word (by decide)

end Comment

namespace Token

theorem scanFrom_of_skip_eq_nil (offset : Nat) {text : List Char}
    (skipped : Comment.skip text = []) : scanFrom offset text = [] := by
  rw [scanFrom.eq_def]
  split
  · rfl
  · next something => simp [skipped] at something

/-- One step of scanning, at the place that skipping leads to. -/
theorem scanFrom_of_skip_eq_cons (offset : Nat) {text rest : List Char} {first : Char}
    (skipped : Comment.skip text = first :: rest) :
    scanFrom offset text =
      let start := offset + (text.length - (rest.length + 1))
      if first = ',' then ⟨.comma, ",", start⟩ :: scanFrom (start + 1) rest
      else
        match Text.takeWord (first :: rest) with
        | [] => ⟨.other, String.ofList [first], start⟩ :: scanFrom (start + 1) rest
        | letter :: letters =>
            let word := String.ofList (letter :: letters)
            let after := rest.drop letters.length
            let next := start + (letters.length + 1)
            if word = "in" then ofWord word start :: scanBody next after
            else ofWord word start :: scanFrom next after := by
  rw [scanFrom.eq_def]
  split
  · next nothing => simp [skipped] at nothing
  · next first' rest' something =>
      rw [skipped] at something
      obtain ⟨rfl, rfl⟩ := List.cons.inj something
      dsimp only
      split
      · rfl
      · split
        · next taken => rw [taken]
        · next taken => rw [taken]

theorem scanFrom_skipped (offset : Nat) {front rest : List Char}
    (skipped : Comment.skip (front ++ rest) = Comment.skip rest) :
    scanFrom offset (front ++ rest) = scanFrom (offset + front.length) rest := by
  cases reached : Comment.skip rest with
  | nil =>
      rw [scanFrom_of_skip_eq_nil offset (skipped.trans reached),
        scanFrom_of_skip_eq_nil _ reached]
  | cons first tail =>
      have bounded := (Comment.skip_suffix rest).length_le
      have place : offset + ((front ++ rest).length - (tail.length + 1)) =
          offset + front.length + (rest.length - (tail.length + 1)) := by
        simp only [reached, List.length_append, List.length_cons] at bounded ⊢
        omega
      rw [scanFrom_of_skip_eq_cons offset (skipped.trans reached),
        scanFrom_of_skip_eq_cons _ reached, place]

theorem scanFrom_run (offset : Nat) (spacers : List Spacer) (rest : List Char) :
    scanFrom offset (Spacer.run spacers ++ rest) =
      scanFrom (offset + (Spacer.run spacers).length) rest :=
  scanFrom_skipped offset (Comment.skip_run spacers rest)

theorem scanFrom_comma (offset : Nat) (rest : List Char) :
    scanFrom offset (',' :: rest) = ⟨.comma, ",", offset⟩ :: scanFrom (offset + 1) rest := by
  have visible : Comment.skip (',' :: rest) = ',' :: rest :=
    Comment.skip_of_visible (by decide) (Comment.after?_of_ne_slash rest (by decide))
  rw [scanFrom_of_skip_eq_cons offset visible]
  simp

/-- A word is one token, and scanning goes on behind it unless it is `in`. -/
theorem scanFrom_word (offset : Nat) {word : String} {rest : List Char}
    (whole : Text.IsWhole word.toList) (ends : Text.EndsWord rest) :
    scanFrom offset (word.toList ++ rest) =
      ofWord word offset ::
        if word = "in" then scanBody (offset + word.toList.length) rest
        else scanFrom (offset + word.toList.length) rest := by
  obtain ⟨first, others, spelled, isWord⟩ := whole.exists_cons
  have taken := Text.takeWord_append whole ends
  have notComma : first ≠ ',' := by
    rintro rfl
    exact absurd isWord (by decide)
  rw [spelled, List.cons_append] at taken ⊢
  have visible := Comment.skip_of_isWord isWord (others ++ rest)
  have same : String.ofList (first :: others) = word := by
    rw [← spelled, String.ofList_toList]
  have start : offset +
      ((first :: (others ++ rest)).length - ((others ++ rest).length + 1)) = offset := by
    rw [List.length_cons, Nat.sub_self, Nat.add_zero]
  rw [scanFrom_of_skip_eq_cons offset visible, start, if_neg notComma, taken]
  simp only [same, List.drop_left, List.length_cons]
  split <;> rfl

end Token

namespace CaptureList

/-! ### Layouts -/

/-- A word that can name a captured value or a method. -/
structure Identifier where
  text : String
  whole : Text.IsWhole text.toList
  free : text ∉ keywords

/-- The words that announce a clause, with what stands between them. -/
inductive Announcement where
  | move
  | ref
  | refMut (gap : List Spacer) (separated : gap ≠ [])
  | method (name : Identifier)

/-- A clause as it is written. -/
structure WrittenClause where
  announcement : Announcement
  gap : List Spacer
  separated : gap ≠ []
  identifier : Identifier

/-- What separates clauses. -/
inductive Separator where
  | comma
  | spacer (spacer : Spacer)

/-- A capture list as it is written. -/
structure Layout where
  /-- What stands before the first word. -/
  lead : List Separator
  /-- The clauses, each with what separates it from the next one or from `in`. -/
  entries : List (WrittenClause × List Separator)
  separated : ∀ entry ∈ entries, entry.2 ≠ []
  /-- The blanks between `in` and the body. -/
  gap : List Char
  gap_blank : ∀ blank ∈ gap, Text.isBlank blank = true
  gap_nonempty : gap ≠ []
  body : String
  body_head : ∀ first ∈ body.toList.head?, Text.isBlank first = false
  body_last : ∀ last ∈ body.toList.getLast?, Text.isBlank last = false ∧ last ≠ ','
  body_nonempty : body.toList ≠ []
  body_content : ¬ OnlySpacing body.toList
  /-- The blanks behind the body. -/
  trail : List Char
  trail_blank : ∀ blank ∈ trail, Text.isBlank blank = true

/-- The mode that is announced. -/
def Announcement.mode : Announcement → Mode String
  | .move => .move
  | .ref => .ref
  | .refMut _ _ => .refMut
  | .method name => .method name.text

/-- The words that announce a clause, as they are written. -/
def Announcement.chars : Announcement → List Char
  | .move => "move".toList
  | .ref => "ref".toList
  | .refMut gap _ => "ref".toList ++ (Spacer.run gap ++ "mut".toList)
  | .method name => name.text.toList

/-- The characters of a clause. -/
def WrittenClause.chars (clause : WrittenClause) : List Char :=
  clause.announcement.chars ++ (Spacer.run clause.gap ++ clause.identifier.text.toList)

/-- The clause that is written at an offset. -/
def WrittenClause.clause (written : WrittenClause) (offset : Nat) : Clause String :=
  ⟨written.announcement.mode, written.identifier.text, some offset⟩

/-- The characters of a separator. -/
def Separator.chars : Separator → List Char
  | .comma => [',']
  | .spacer inner => inner.text

/-- The characters of a run of separators. -/
def Separator.run (separators : List Separator) : List Char :=
  separators.flatMap chars

/-- The characters of clauses with what separates them. -/
def WrittenClause.run (entries : List (WrittenClause × List Separator)) : List Char :=
  entries.flatMap fun (clause, separators) => clause.chars ++ Separator.run separators

/-- The clauses that are written from an offset on, each placed at its first character. -/
def WrittenClause.placed (offset : Nat) :
    List (WrittenClause × List Separator) → List (Clause String)
  | [] => []
  | (written, separators) :: entries =>
      written.clause offset ::
        placed (offset + written.chars.length + (Separator.run separators).length) entries

namespace Layout

/-- The characters before `in`. -/
def front (layout : Layout) : List Char :=
  Separator.run layout.lead ++ WrittenClause.run layout.entries

/-- The text that a layout writes. -/
def text (layout : Layout) : List Char :=
  layout.front ++ "in".toList ++ layout.gap ++ layout.body.toList ++ layout.trail

/-- The capture list that a layout writes, its clauses and its body placed where they are
written. -/
def list (layout : Layout) : CaptureList String where
  clauses := WrittenClause.placed (Separator.run layout.lead).length layout.entries
  body := layout.body
  bodyOffset := some (layout.front.length + 2 + layout.gap.length)

end Layout

/-! ### The phrases of a layout -/

/-- The phrase of a clause that is written at an offset. -/
def WrittenClause.phrase (written : WrittenClause) (offset : Nat) : Phrase :=
  let place := offset + written.announcement.chars.length + (Spacer.run written.gap).length
  match written.announcement with
  | .move => .move offset written.identifier.text place
  | .ref => .ref offset written.identifier.text place
  | .refMut gap _ =>
      .refMut offset (offset + 3 + (Spacer.run gap).length) written.identifier.text place
  | .method name => .method name.text offset written.identifier.text place

/-- The commas among separators that are written from an offset on. -/
def Separator.phrases (offset : Nat) : List Separator → List Phrase
  | [] => []
  | .comma :: separators => .comma "," offset :: phrases (offset + 1) separators
  | .spacer inner :: separators => phrases (offset + inner.text.length) separators

/-- The phrases of clauses, and of what separates them, that are written from an offset on. -/
def WrittenClause.phrases (offset : Nat) : List (WrittenClause × List Separator) → List Phrase
  | [] => []
  | (written, separators) :: entries =>
      let after := offset + written.chars.length
      written.phrase offset :: Separator.phrases after separators ++
        phrases (after + (Separator.run separators).length) entries

@[simp]
theorem WrittenClause.clause?_phrase (written : WrittenClause) (offset : Nat) :
    (written.phrase offset).clause? = some (written.clause offset) := by
  obtain ⟨announcement, gap, separated, identifier⟩ := written
  cases announcement <;> rfl

@[simp]
theorem Separator.filterMap_phrases (offset : Nat) (separators : List Separator) :
    (phrases offset separators).filterMap Phrase.clause? = [] := by
  fun_induction phrases offset separators with
  | case1 => rfl
  | case2 offset separators ih => exact ih
  | case3 offset inner separators ih => exact ih

theorem WrittenClause.filterMap_phrases (offset : Nat)
    (entries : List (WrittenClause × List Separator)) :
    (phrases offset entries).filterMap Phrase.clause? = placed offset entries := by
  fun_induction phrases offset entries with
  | case1 => rfl
  | case2 offset written separators entries after ih =>
      simp [placed, ih, after]

/-! ### Scanning what a layout writes -/

theorem endsWord_spacer (spacer : Spacer) (rest : List Char) :
    Text.EndsWord (spacer.text ++ rest) := by
  cases spacer with
  | blank character isBlank =>
      intro first starts
      obtain rfl : character = first := by simpa [Spacer.text] using starts
      refine ⟨Text.isWord_of_isBlank isBlank, ?_⟩
      rintro rfl
      exact absurd isBlank (by decide)
  | comment text closed =>
      intro first starts
      obtain ⟨tail, rfl⟩ := closed.exists_cons
      obtain rfl : '/' = first := by simpa [Spacer.text] using starts
      exact ⟨by decide, by decide⟩

theorem endsWord_gap {gap : List Spacer} (separated : gap ≠ []) (rest : List Char) :
    Text.EndsWord (Spacer.run gap ++ rest) := by
  obtain ⟨spacer, gap, rfl⟩ := List.exists_cons_of_ne_nil separated
  rw [Spacer.run, List.flatMap_cons, List.append_assoc]
  exact endsWord_spacer spacer _

theorem endsWord_separators {separators : List Separator} (separated : separators ≠ [])
    (rest : List Char) : Text.EndsWord (Separator.run separators ++ rest) := by
  obtain ⟨separator, separators, rfl⟩ := List.exists_cons_of_ne_nil separated
  rw [Separator.run, List.flatMap_cons, List.append_assoc]
  cases separator with
  | comma =>
      intro first starts
      obtain rfl : ',' = first := by simpa [Separator.chars] using starts
      exact ⟨by decide, by decide⟩
  | spacer inner => exact endsWord_spacer inner _

open Token in
theorem scanFrom_separators (offset : Nat) (separators : List Separator) (rest : List Char) :
    scanFrom offset (Separator.run separators ++ rest) =
      (Separator.phrases offset separators).flatMap Phrase.tokens ++
        scanFrom (offset + (Separator.run separators).length) rest := by
  induction separators generalizing offset with
  | nil => rfl
  | cons separator separators ih =>
      rw [Separator.run, List.flatMap_cons, List.append_assoc]
      cases separator with
      | comma =>
          rw [Separator.chars, List.cons_append, List.nil_append, scanFrom_comma,
            ← Separator.run, ih]
          simp [Separator.phrases, Phrase.tokens, Nat.add_assoc, Nat.add_comm 1]
      | spacer inner =>
          rw [Separator.chars, scanFrom_skipped offset (Comment.skip_spacer inner _),
            ← Separator.run, ih]
          simp [Separator.phrases, Nat.add_assoc]

theorem isWhole_of_keyword {word : String} (keyword : word ∈ ["move", "ref", "mut", "in"]) :
    Text.IsWhole word.toList := by
  simp only [List.mem_cons, List.not_mem_nil, or_false] at keyword
  rcases keyword with rfl | rfl | rfl | rfl <;>
    exact .bare (by decide) (List.all_eq_true.1 (by decide))

theorem Identifier.ne_in (identifier : Identifier) : identifier.text ≠ "in" := by
  intro same
  exact identifier.free (same ▸ by decide)

theorem Identifier.ofWord (identifier : Identifier) (offset : Nat) :
    Token.ofWord identifier.text offset = ⟨.identifier, identifier.text, offset⟩ := by
  simp [Token.ofWord, identifier.free]

open Token in
theorem scanFrom_identifier (offset : Nat) (identifier : Identifier) {rest : List Char}
    (ends : Text.EndsWord rest) :
    scanFrom offset (identifier.text.toList ++ rest) =
      ⟨.identifier, identifier.text, offset⟩ ::
        scanFrom (offset + identifier.text.toList.length) rest := by
  rw [scanFrom_word offset identifier.whole ends, identifier.ofWord, if_neg identifier.ne_in]

open Token in
/-- A keyword other than `in`, and the spacers behind it. -/
theorem scanFrom_keyword (offset : Nat) {word : String} (keyword : word ∈ ["move", "ref", "mut"])
    {gap : List Spacer} (separated : gap ≠ []) (rest : List Char) :
    scanFrom offset (word.toList ++ (Spacer.run gap ++ rest)) =
      ⟨.keyword, word, offset⟩ ::
        scanFrom (offset + word.toList.length + (Spacer.run gap).length) rest := by
  have whole : Text.IsWhole word.toList :=
    isWhole_of_keyword (List.mem_append_left ["in"] keyword)
  have reserved : ofWord word offset = ⟨.keyword, word, offset⟩ ∧ word ≠ "in" := by
    simp only [List.mem_cons, List.not_mem_nil, or_false] at keyword
    rcases keyword with rfl | rfl | rfl <;> exact ⟨rfl, by decide⟩
  rw [scanFrom_word offset whole (endsWord_gap separated rest), reserved.1, if_neg reserved.2,
    scanFrom_run]

/-- The tokens of the words that announce a clause, from an offset on. -/
def Announcement.tokens (offset : Nat) : Announcement → List Token
  | .move => [⟨.keyword, "move", offset⟩]
  | .ref => [⟨.keyword, "ref", offset⟩]
  | .refMut gap _ =>
      [⟨.keyword, "ref", offset⟩, ⟨.keyword, "mut", offset + 3 + (Spacer.run gap).length⟩]
  | .method name => [⟨.identifier, name.text, offset⟩]

theorem WrittenClause.tokens_phrase (written : WrittenClause) (offset : Nat) :
    (written.phrase offset).tokens =
      written.announcement.tokens offset ++
        [⟨.identifier, written.identifier.text,
          offset + written.announcement.chars.length + (Spacer.run written.gap).length⟩] := by
  obtain ⟨announcement, gap, separated, identifier⟩ := written
  cases announcement <;> rfl

open Token in
theorem scanFrom_announcement (offset : Nat) (announcement : Announcement) {gap : List Spacer}
    (separated : gap ≠ []) (rest : List Char) :
    scanFrom offset (announcement.chars ++ (Spacer.run gap ++ rest)) =
      announcement.tokens offset ++
        scanFrom (offset + announcement.chars.length + (Spacer.run gap).length) rest := by
  cases announcement with
  | move => exact scanFrom_keyword offset (by decide) separated rest
  | ref => exact scanFrom_keyword offset (by decide) separated rest
  | refMut middle divided =>
      have place : offset + "ref".toList.length + (Spacer.run middle).length +
          "mut".toList.length + (Spacer.run gap).length =
          offset + ("ref".toList ++ (Spacer.run middle ++ "mut".toList)).length +
            (Spacer.run gap).length := by
        simp only [List.length_append]
        omega
      simp only [Announcement.chars, List.append_assoc]
      rw [scanFrom_keyword offset (by decide) divided, scanFrom_keyword _ (by decide) separated,
        place]
      rfl
  | method name =>
      rw [Announcement.chars, scanFrom_identifier offset name (endsWord_gap separated rest),
        scanFrom_run]
      rfl

open Token in
theorem scanFrom_clause (offset : Nat) (written : WrittenClause) {rest : List Char}
    (ends : Text.EndsWord rest) :
    scanFrom offset (written.chars ++ rest) =
      (written.phrase offset).tokens ++ scanFrom (offset + written.chars.length) rest := by
  have place : offset + written.announcement.chars.length + (Spacer.run written.gap).length +
      written.identifier.text.toList.length = offset + written.chars.length := by
    simp only [WrittenClause.chars, List.length_append]
    omega
  rw [WrittenClause.chars, List.append_assoc, List.append_assoc,
    scanFrom_announcement offset written.announcement written.separated,
    scanFrom_identifier _ written.identifier ends, place, written.tokens_phrase,
    List.append_assoc]
  rfl

open Token in
theorem scanFrom_entries (offset : Nat) {entries : List (WrittenClause × List Separator)}
    (separated : ∀ entry ∈ entries, entry.2 ≠ []) (rest : List Char) :
    scanFrom offset (WrittenClause.run entries ++ rest) =
      (WrittenClause.phrases offset entries).flatMap Phrase.tokens ++
        scanFrom (offset + (WrittenClause.run entries).length) rest := by
  induction entries generalizing offset with
  | nil => rfl
  | cons entry entries ih =>
      obtain ⟨written, separators⟩ := entry
      have parted : separators ≠ [] := separated (written, separators) (by simp)
      have later := ih
        (offset + written.chars.length + (Separator.run separators).length)
        fun entry member => separated entry (by simp [member])
      rw [WrittenClause.run, List.flatMap_cons, List.append_assoc, List.append_assoc,
        ← WrittenClause.run, scanFrom_clause offset written (endsWord_separators parted _),
        scanFrom_separators, later]
      simp [WrittenClause.phrases, Nat.add_assoc]

/-! ### The body of a layout -/

namespace Layout

theorem skip_body_ne_nil (layout : Layout) :
    Comment.skip (layout.gap ++ (layout.body.toList ++ layout.trail)) ≠ [] := by
  obtain ⟨spacers, spelled⟩ := Spacer.exists_run_eq_blanks layout.gap_blank
  rw [← spelled, Comment.skip_run]
  intro nothing
  apply layout.body_content
  exact (onlySpacing_append_blanks_iff layout.trail_blank).1 (Comment.skip_eq_nil_iff.1 nothing)

theorem trimStart_body (layout : Layout) :
    Text.trimStart (layout.gap ++ (layout.body.toList ++ layout.trail)) =
      layout.body.toList ++ layout.trail := by
  obtain ⟨first, rest, spelled⟩ := List.exists_cons_of_ne_nil layout.body_nonempty
  have visible := layout.body_head first (by rw [spelled]; rfl)
  rw [spelled]
  exact Text.trimStart_append layout.gap_blank visible (rest ++ layout.trail)

theorem trimEnd_body (layout : Layout) :
    Text.trimEnd (layout.body.toList ++ layout.trail) = layout.body.toList :=
  Text.trimEnd_append (fun last isLast => (layout.body_last last isLast).1) layout.trail_blank

theorem scanBody_text (layout : Layout) (offset : Nat) :
    Token.scanBody offset (layout.gap ++ (layout.body.toList ++ layout.trail)) =
      [⟨.body, layout.body, offset + layout.gap.length⟩] := by
  have content : (Comment.skip (layout.gap ++ (layout.body.toList ++ layout.trail))).isEmpty =
      false := List.isEmpty_eq_false_iff.2 layout.skip_body_ne_nil
  rw [Token.scanBody, content, if_neg (by simp), Text.trim, layout.trimStart_body,
    layout.trimEnd_body, String.ofList_toList]
  simp

/-- The sentence that a layout writes. -/
def sentence (layout : Layout) : Sentence where
  phrases := Separator.phrases 0 layout.lead ++
    WrittenClause.phrases (Separator.run layout.lead).length layout.entries
  terminal := layout.front.length
  body := layout.body
  place := layout.front.length + 2 + layout.gap.length
  body_getLast := fun same => (layout.body_last ',' same).2 rfl

theorem list_sentence (layout : Layout) : layout.sentence.list = layout.list := by
  simp [Sentence.list, sentence, list, WrittenClause.filterMap_phrases]

open Token in
theorem scan_text (layout : Layout) : scan layout.text = layout.sentence.tokens := by
  have ends : Text.EndsWord (layout.gap ++ (layout.body.toList ++ layout.trail)) := by
    obtain ⟨spacers, spelled⟩ := Spacer.exists_run_eq_blanks layout.gap_blank
    have separated : spacers ≠ [] := by
      rintro rfl
      exact layout.gap_nonempty spelled.symm
    rw [← spelled]
    exact endsWord_gap separated _
  have whole : Text.IsWhole "in".toList := isWhole_of_keyword (by decide)
  have terminal := scanFrom_word layout.front.length whole ends
  rw [if_pos rfl, scanBody_text] at terminal
  have place : 0 + (Separator.run layout.lead).length +
      (WrittenClause.run layout.entries).length = layout.front.length := by
    simp [front]
  simp only [scan, text, front, List.append_assoc]
  rw [scanFrom_separators, scanFrom_entries _ layout.separated, place, terminal, Nat.zero_add]
  simp only [Sentence.tokens, sentence, List.flatMap_append, List.append_assoc]
  rfl

/-- Reading what a layout writes gives back its clauses and its body, placed where they are
written. -/
theorem parse_text (layout : Layout) : parse layout.text = .ok layout.list :=
  parse_eq_ok_iff.2 ⟨layout.sentence, layout.scan_text.symm, layout.list_sentence⟩

/-- A block comment inside another one. -/
def nestedComment : Spacer :=
  .comment "/*a/*b*/*/".toList <| .block <|
    .pass (by decide) (by decide) <| .enter <| .pass (by decide) (by decide) <|
      .leave <| .leave <| .done 0

/-- A layout with nested comments, a line comment, commas and a raw identifier. -/
def commented : Layout where
  lead := [.spacer (.comment "//\n".toList (.line List.not_mem_nil)), .comma]
  entries :=
    [(⟨.refMut [nestedComment] (by simp), [.blank ' ' (by decide)], by simp,
        ⟨"r#x", .raw (by decide) (by simp), by decide⟩⟩,
      [.comma, .spacer nestedComment]),
     (⟨.method ⟨"f", .bare (by decide) (by simp), by decide⟩, [.blank '\t' (by decide)], by simp,
        ⟨"y", .bare (by decide) (by simp), by decide⟩⟩,
      [.comma])]
  separated := by simp
  gap := ['\n']
  gap_blank := List.all_eq_true.1 (by decide)
  gap_nonempty := by simp
  body := "x, /**/ y"
  body_head := by
    intro first starts
    obtain rfl : 'x' = first := by simpa using starts
    decide
  body_last := by
    intro last ends
    obtain rfl : 'y' = last := by simpa using ends
    decide
  body_nonempty := by decide
  body_content := by
    rw [← Comment.skip_eq_nil_iff]
    intro skipped
    have starts := Comment.skip_of_isWord (show Text.isWord 'x' = true by decide) ", /**/ y".toList
    exact List.cons_ne_nil _ _ (starts.symm.trans skipped)
  trail := [' ']
  trail_blank := List.all_eq_true.1 (by decide)

theorem parse_text_commented :
    commented.text = "//\n,ref/*a/*b*/*/mut r#x,/*a/*b*/*/f\ty,in\nx, /**/ y ".toList ∧
      parse commented.text = .ok
        ⟨[⟨.refMut, "r#x", some 4⟩, ⟨.method "f", "y", some 35⟩], "x, /**/ y", some 42⟩ :=
  ⟨by decide, (parse_text commented).trans rfl⟩

end Layout

end CaptureList

end ClosureCapture
