import ClosureCapture.Proofs.CaptureList.Region

/-!
# Tokens cover their text

A scan divides a text into tokens and the gaps around them.  Each gap is a run of blanks and closed
comments, and behind the last token stands nothing but spacing, so that no character is lost.

The division is stated once, as a relation between an offset, the text from there on and its
tokens; that tokens do not overlap and that their offsets are right follow from it.
-/

namespace ClosureCapture

namespace Text

/-- A text with no blank around it. -/
structure IsTrimmed (text : List Char) : Prop where
  nonempty : text ≠ []
  visible_head : ∀ first ∈ text.head?, isBlank first = false
  visible_last : ∀ last ∈ text.getLast?, isBlank last = false

theorem visible_head_trimStart (text : List Char) :
    ∀ first ∈ (trimStart text).head?, isBlank first = false := by
  intro first isFirst
  have stops := List.head?_dropWhile_not isBlank text
  rw [← trimStart, Option.mem_def.1 isFirst] at stops
  exact stops

theorem visible_last_trimEnd (text : List Char) :
    ∀ last ∈ (trimEnd text).getLast?, isBlank last = false := by
  intro last isLast
  rw [trimEnd, List.getLast?_reverse] at isLast
  exact visible_head_trimStart text.reverse last isLast

/-- What is left of a text behind blanks is no run of blanks, unless nothing is left. -/
theorem isTrimmed_trim {text : List Char} (content : trimStart text ≠ []) :
    IsTrimmed (trim text) := by
  obtain ⟨trail, split, allBlank⟩ := exists_trimEnd_append (trimStart text)
  have nonempty : trim text ≠ [] := by
    intro nothing
    rw [← trim, nothing, List.nil_append] at split
    obtain ⟨first, rest, spelled⟩ := List.exists_cons_of_ne_nil content
    have visible := visible_head_trimStart text first (by rw [spelled]; rfl)
    have blank := allBlank first (by rw [← split, spelled]; simp)
    simp [visible] at blank
  refine ⟨nonempty, ?_, visible_last_trimEnd _⟩
  intro first isFirst
  apply visible_head_trimStart text
  rw [split, ← trim, List.head?_append, Option.mem_def.1 isFirst]
  rfl

end Text

namespace Token

/-- The offset behind a token. -/
def stop (token : Token) : Nat :=
  token.offset + token.text.length

/-- The tokens that are words. -/
def IsWord (token : Token) : Prop :=
  token.kind = .keyword ∨ token.kind = .identifier

/-- The stretches of a text before tokens, each from the end of the token before it on, the first
one from an offset on. -/
def gaps (text : List Char) : Nat → List Token → List (List Char)
  | _, [] => []
  | last, token :: others => (text.take token.offset).drop last :: gaps text token.stop others

/-- The offset behind the last of some tokens, or the given one if there are none. -/
def lastStop (offset : Nat) (tokens : List Token) : Nat :=
  (tokens.getLast?.map stop).getD offset

theorem lastStop_cons (offset : Nat) (token : Token) (others : List Token) :
    lastStop offset (token :: others) = lastStop token.stop others := by
  rw [lastStop, lastStop, List.getLast?_cons]
  cases others.getLast? <;> rfl

/-- The last tokens of a text: none, or `in` and at most a body. -/
inductive IsEnding : List Token → Prop
  | unfinished : IsEnding []
  | bodiless {start : Token} : start.isKeyword "in" = true → IsEnding [start]
  | complete {start body : Token} : start.isKeyword "in" = true → body.kind = .body →
      Text.IsTrimmed body.text.toList → IsEnding [start, body]

/-- Tokens of clauses, then an ending. -/
def HasEnding (tokens : List Token) : Prop :=
  ∃ clauses last, tokens = clauses ++ last ∧ IsEnding last ∧
    ∀ token ∈ clauses, token.kind ≠ .body ∧ token.isKeyword "in" = false

/-- Tokens that cover a text: they stand one behind the other at their offsets, with nothing but
blanks and comments around them. -/
structure Covers (text : List Char) (tokens : List Token) : Prop where
  slices : ∀ token ∈ tokens, (text.take token.stop).drop token.offset = token.text.toList
  ordered : tokens.Pairwise fun first second =>
    first.offset < second.offset ∧ first.stop ≤ second.offset
  spaced : ∀ gap ∈ gaps text 0 tokens, ∃ spacers, Spacer.run spacers = gap
  /-- No token but a body starts with a blank or a comment: the gaps are all that is skipped. -/
  skipped : ∀ token ∈ tokens, token.kind ≠ .body →
    Comment.skip (text.drop token.offset) = text.drop token.offset
  rest : OnlySpacing (text.drop (lastStop 0 tokens))
  /-- The first `in` ends the clauses, and nothing but a body follows it. -/
  ending : HasEnding tokens
  apart : ∀ before first second after, tokens = before ++ first :: second :: after →
    first.IsWord → second.IsWord → first.stop < second.offset

/-! ### How a scan divides a text -/

/-- A token before the rest of a text: it is not empty, nothing but a body starts with spacing, and
a word is a whole one. -/
structure StandsBefore (rest : List Char) (token : Token) : Prop where
  spelled : token.text.toList ≠ []
  visible : token.kind ≠ .body →
    Comment.skip (token.text.toList ++ rest) = token.text.toList ++ rest
  isWord_head : token.IsWord → ∀ first ∈ token.text.toList.head?, Text.isWord first = true
  ends : token.IsWord → ∀ next ∈ rest.head?, Text.isWord next = false

/-- The text from an offset on is divided into tokens and the spacing around them. -/
inductive Divides : (offset : Nat) → List Char → List Token → Prop
  | spacing {offset : Nat} {text : List Char} : OnlySpacing text → Divides offset text []
  | token {offset : Nat} {spacers : List Spacer} {token : Token} {rest : List Char}
      {others : List Token} : token.offset = offset + (Spacer.run spacers).length →
      token.StandsBefore rest → Divides token.stop rest others →
      Divides offset (Spacer.run spacers ++ (token.text.toList ++ rest)) (token :: others)

theorem Divides.piece {offset next : Nat} {spacers : List Spacer} {token : Token}
    {piece rest : List Char} {others : List Token} (spelled : token.text.toList = piece)
    (placed : token.offset = offset + (Spacer.run spacers).length)
    (reached : next = token.offset + piece.length) (stands : token.StandsBefore rest)
    (later : Divides next rest others) :
    Divides offset (Spacer.run spacers ++ (piece ++ rest)) (token :: others) := by
  subst spelled reached
  rw [String.length_toList] at later
  exact .token placed stands later

theorem isTrimmed_trim_of_content {text : List Char} (content : ¬ OnlySpacing text) :
    Text.IsTrimmed (Text.trim text) := by
  apply Text.isTrimmed_trim
  intro nothing
  apply content
  rw [← Comment.skip_eq_nil_iff, Comment.skip_eq, nothing]
  rfl

theorem standsBefore_body {text : List Char} (trimmed : Text.IsTrimmed text) (offset : Nat)
    (rest : List Char) : Token.StandsBefore rest ⟨.body, String.ofList text, offset⟩ where
  spelled := by simpa using trimmed.nonempty
  visible := fun other => absurd rfl other
  isWord_head := by simp [IsWord]
  ends := by simp [IsWord]

/-- A character that is no part of a word, behind what has been skipped. -/
theorem standsBefore_character {token : Token} {first : Char} {rest : List Char}
    (spelled : token.text.toList = [first]) (other : token.kind = .comma ∨ token.kind = .other)
    (skipped : Comment.skip (first :: rest) = first :: rest) : token.StandsBefore rest := by
  have noWord : ¬ token.IsWord := by
    rcases other with comma | stray
    · simp [IsWord, comma]
    · simp [IsWord, stray]
  refine ⟨by simp [spelled], ?_, fun isWord => absurd isWord noWord,
    fun isWord => absurd isWord noWord⟩
  intro _
  rw [spelled]
  exact skipped

theorem divides_scanBody (offset : Nat) (text : List Char) :
    Divides offset text (scanBody offset text) := by
  by_cases spacing : OnlySpacing text
  · rw [scanBody_of_spacing spacing]
    exact .spacing spacing
  · have scanned := scanBody_of_content spacing offset
    have trimmed := isTrimmed_trim_of_content spacing
    obtain ⟨blanks, trail, split, blankBefore, blankBehind, placed⟩ :=
      exists_of_mem_scanBody (scanned ▸ List.mem_singleton_self _)
    obtain ⟨spacers, rfl⟩ := Spacer.exists_run_eq_blanks blankBefore
    obtain ⟨later, rfl⟩ := Spacer.exists_run_eq_blanks blankBehind
    have divided := Divides.token placed (standsBefore_body trimmed _ _) (.spacing (.closed later))
    rwa [← split, ← scanned] at divided

/-- A word that is taken off a text stands before what is left of it. -/
theorem standsBefore_ofWord {first letter : Char} {rest letters : List Char}
    (taken : Text.takeWord (first :: rest) = letter :: letters)
    (skipped : Comment.skip (first :: rest) = first :: rest) (offset : Nat) :
    (ofWord (String.ofList (letter :: letters)) offset).StandsBefore
      (rest.drop letters.length) where
  spelled := by simp [ofWord]
  visible := by
    intro _
    rw [ofWord, String.toList_ofList, ← Text.word_append_of_takeWord taken]
    exact skipped
  isWord_head := by
    intro _ head isHead
    obtain rfl : letter = head := by simpa [ofWord] using isHead
    obtain ⟨other, others, spelled, isWord⟩ := (Text.isWhole_of_takeWord taken).exists_cons
    rwa [(List.cons.inj spelled).1]
  ends := fun _ => Text.isWord_of_takeWord taken (Text.word_append_of_takeWord taken)

/-- What is left after skipping starts behind a run of spacers and is not skipped again. -/
theorem exists_gap_of_skip {text rest : List Char} {first : Char}
    (skipped : Comment.skip text = first :: rest) (offset : Nat) :
    ∃ spacers, text = Spacer.run spacers ++ first :: rest ∧
      offset + (text.length - (rest.length + 1)) = offset + (Spacer.run spacers).length ∧
      Comment.skip (first :: rest) = first :: rest := by
  obtain ⟨spacers, rfl⟩ := Comment.exists_run_of_skip_eq_cons skipped
  rw [Comment.skip_run] at skipped
  exact ⟨spacers, rfl, by simp, skipped⟩

theorem divides_scanFrom (offset : Nat) (text : List Char) :
    Divides offset text (scanFrom offset text) := by
  fun_induction scanFrom offset text with
  | case1 offset text skipped => exact .spacing (Comment.skip_eq_nil_iff.1 skipped)
  | case2 offset text rest start skipped ih =>
      obtain ⟨spacers, split, place, visible⟩ := exists_gap_of_skip skipped offset
      rw [split]
      exact @Divides.piece _ _ spacers _ [','] rest _ (by simp) place rfl
        (standsBefore_character (by simp) (.inl rfl) visible) ih
  | case3 offset text first rest skipped start comma noWord ih =>
      obtain ⟨spacers, split, place, visible⟩ := exists_gap_of_skip skipped offset
      rw [split]
      exact @Divides.piece _ _ spacers _ [first] rest _ String.toList_ofList place rfl
        (standsBefore_character String.toList_ofList (.inr rfl) visible) ih
  | case4 offset text first rest skipped start comma letter letters taken word after next isIn =>
      obtain ⟨spacers, split, place, visible⟩ := exists_gap_of_skip skipped offset
      have spelled : (ofWord word start).text.toList = letter :: letters := String.toList_ofList
      rw [split, Text.word_append_of_takeWord taken]
      exact Divides.piece spelled place rfl (standsBefore_ofWord taken visible start)
        (divides_scanBody next after)
  | case5 offset text first rest skipped start comma letter letters taken word after next other ih =>
      obtain ⟨spacers, split, place, visible⟩ := exists_gap_of_skip skipped offset
      have spelled : (ofWord word start).text.toList = letter :: letters := String.toList_ofList
      rw [split, Text.word_append_of_takeWord taken]
      exact Divides.piece spelled place rfl (standsBefore_ofWord taken visible start) ih

/-! ### What follows from the division -/

theorem StandsBefore.offset_lt_stop {rest : List Char} {token : Token}
    (stands : token.StandsBefore rest) : token.offset < token.stop := by
  have positive := List.length_pos_iff.2 stands.spelled
  rw [String.length_toList] at positive
  rw [stop]
  omega

theorem Divides.offset_le {offset : Nat} {text : List Char} {tokens : List Token}
    (divided : Divides offset text tokens) : ∀ token ∈ tokens, offset ≤ token.offset := by
  induction divided with
  | spacing => simp
  | @token offset spacers token rest others placed stands _ ih =>
      intro other member
      have forward := stands.offset_lt_stop
      rcases List.mem_cons.1 member with rfl | later
      · omega
      · have behind := ih other later
        omega

theorem Divides.ordered {offset : Nat} {text : List Char} {tokens : List Token}
    (divided : Divides offset text tokens) :
    tokens.Pairwise fun first second =>
      first.offset < second.offset ∧ first.stop ≤ second.offset := by
  induction divided with
  | spacing => exact .nil
  | @token offset spacers token rest others placed stands later ih =>
      refine .cons ?_ ih
      intro other member
      have behind := later.offset_le other member
      exact ⟨Nat.lt_of_lt_of_le stands.offset_lt_stop behind, behind⟩

/-- Places in the whole text, which starts with what has been divided already. -/
theorem Divides.places {offset : Nat} {text : List Char} {tokens : List Token}
    (divided : Divides offset text tokens) :
    ∀ front : List Char, front.length = offset →
      (∀ token ∈ tokens, ∃ rest,
        (front ++ text).drop token.offset = token.text.toList ++ rest ∧ token.StandsBefore rest) ∧
      (∀ gap ∈ gaps (front ++ text) offset tokens, ∃ spacers, Spacer.run spacers = gap) ∧
      OnlySpacing ((front ++ text).drop (lastStop offset tokens)) := by
  induction divided with
  | @spacing offset text spacing =>
      rintro front rfl
      refine ⟨by simp, by simp [gaps], ?_⟩
      rwa [lastStop, List.getLast?_nil, Option.map_none, Option.getD_none, List.drop_left]
  | @token offset spacers token rest others placed stands later ih =>
      rintro front rfl
      have reached : (front ++ Spacer.run spacers ++ token.text.toList).length = token.stop := by
        rw [stop, placed, List.length_append, List.length_append, String.length_toList]
      have whole : front ++ (Spacer.run spacers ++ (token.text.toList ++ rest)) =
          front ++ Spacer.run spacers ++ token.text.toList ++ rest := by
        simp
      have placedBehind : token.offset = (front ++ Spacer.run spacers).length := by
        rw [placed, List.length_append]
      have here : (front ++ Spacer.run spacers ++ token.text.toList ++ rest).drop token.offset =
          token.text.toList ++ rest := by
        rw [placedBehind, List.append_assoc _ token.text.toList, List.drop_left]
      have gap : ((front ++ Spacer.run spacers ++ token.text.toList ++ rest).take
          token.offset).drop front.length = Spacer.run spacers := by
        rw [placedBehind, List.append_assoc _ token.text.toList, List.take_left, List.drop_left]
      obtain ⟨tokensPlaced, inner, ending⟩ := ih _ reached
      rw [whole, lastStop_cons]
      refine ⟨?_, ?_, ending⟩
      · intro other member
        rcases List.mem_cons.1 member with rfl | inside
        · exact ⟨rest, here, stands⟩
        · exact tokensPlaced other inside
      · intro stretch member
        rcases List.mem_cons.1 member with rfl | inside
        · exact ⟨spacers, gap.symm⟩
        · exact inner stretch inside

theorem Divides.apart {offset : Nat} {text : List Char} {tokens : List Token}
    (divided : Divides offset text tokens) :
    ∀ before first second after, tokens = before ++ first :: second :: after →
      first.IsWord → second.IsWord → first.stop < second.offset := by
  induction divided with
  | spacing => simp
  | @token offset spacers token rest others placed stands later ih =>
      intro before first second after split firstWord secondWord
      cases before with
      | cons head before =>
          exact ih before first second after (List.cons.inj split).2 firstWord secondWord
      | nil =>
          obtain ⟨rfl, rfl⟩ := List.cons.inj split
          cases later with
          | @token _ gap _ behind _ place standsNext _ =>
              -- Without a gap the second word would start right where the first one ends.
              refine Nat.lt_of_le_of_ne (place ▸ Nat.le_add_right _ _) fun touching => ?_
              have nothing : Spacer.run gap = [] := List.length_eq_zero_iff.1 (by omega)
              obtain ⟨head, letters, spelled⟩ := List.exists_cons_of_ne_nil standsNext.spelled
              have isWord := standsNext.isWord_head secondWord head (by rw [spelled]; rfl)
              have ends := stands.ends firstWord head (by rw [nothing, spelled]; rfl)
              simp [isWord] at ends

/-- A text goes on with the characters of a token at the offset of the token. -/
def StandsIn (text : List Char) (token : Token) : Prop :=
  token.text.toList <+: text.drop token.offset

theorem standsIn_of_mem_scan {text : List Char} {token : Token} (member : token ∈ scan text) :
    token.StandsIn text := by
  obtain ⟨placed, -⟩ := (divides_scanFrom 0 text).places [] rfl
  obtain ⟨rest, here, -⟩ := placed token member
  exact ⟨rest, here.symm⟩

/-! ### How the tokens of a text end -/

theorem HasEnding.cons {token : Token} {tokens : List Token} (ends : HasEnding tokens)
    (inClause : token.kind ≠ .body ∧ token.isKeyword "in" = false) :
    HasEnding (token :: tokens) := by
  obtain ⟨clauses, last, rfl, ending, areClauses⟩ := ends
  exact ⟨token :: clauses, last, rfl, ending, List.forall_mem_cons.2 ⟨inClause, areClauses⟩⟩

theorem isEnding_scanBody {start : Token} (terminal : start.isKeyword "in" = true) (offset : Nat)
    (text : List Char) : IsEnding (start :: scanBody offset text) := by
  by_cases spacing : OnlySpacing text
  · rw [scanBody_of_spacing spacing]
    exact .bodiless terminal
  · rw [scanBody_of_content spacing]
    refine .complete terminal rfl ?_
    rw [String.toList_ofList]
    exact isTrimmed_trim_of_content spacing

theorem hasEnding_scanFrom (offset : Nat) (text : List Char) :
    HasEnding (scanFrom offset text) := by
  fun_induction scanFrom offset text with
  | case1 => exact ⟨[], [], rfl, .unfinished, by simp⟩
  | case2 offset text rest start skipped ih => exact ih.cons (by simp [isKeyword])
  | case3 offset text first rest skipped start comma noWord ih =>
      exact ih.cons (by simp [isKeyword])
  | case4 offset text first rest skipped start comma letter letters taken word after next isIn =>
      have terminal : (ofWord word start).isKeyword "in" = true := by
        rw [isIn]
        rfl
      exact ⟨[], _, rfl, isEnding_scanBody terminal next after, by simp⟩
  | case5 offset text first rest skipped start comma letter letters taken word after next other ih =>
      exact ih.cons ⟨ofWord_kind word start, by simp [isKeyword, ofWord, other]⟩

/-- The tokens of every text cover it: no character is lost, and each token stands at its
offset. -/
theorem scan_covers (text : List Char) : Covers text (scan text) := by
  have divided := divides_scanFrom 0 text
  obtain ⟨placed, spaced, rest⟩ := divided.places [] rfl
  rw [List.nil_append] at placed spaced rest
  refine ⟨?_, divided.ordered, spaced, ?_, rest, hasEnding_scanFrom 0 text, divided.apart⟩
  · intro token member
    obtain ⟨behind, here, -⟩ := placed token member
    rw [List.drop_take, here, stop, Nat.add_sub_cancel_left, ← String.length_toList,
      List.take_left]
  · intro token member other
    obtain ⟨behind, here, stands⟩ := placed token member
    rw [here]
    exact stands.visible other

end Token

end ClosureCapture
