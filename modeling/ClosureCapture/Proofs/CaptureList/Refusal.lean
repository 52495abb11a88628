import ClosureCapture.Proofs.Token.Coverage

/-!
# Where a refused capture list is at fault

Reading stops at the first token that cannot follow the tokens before it, or at the end of the text
if it is the end that comes too early.  The tokens before that place are phrases and the words of a
clause whose identifier is still missing.

This file proves that the error points at this place: some capture list goes on from the tokens
before it, and none goes on with the token that stands there.  A fault of the body is reported at
`in` or at the comma behind the body.
-/

namespace ClosureCapture

namespace GrammarFault

/-- A fault of the body: it is missing, or a comma stands behind it. -/
def concernsBody : GrammarFault → Bool
  | .expectedBody => true
  | .trailingComma => true
  | _ => false

/-- The characters that the messages of a kind of fault start with. -/
def opening : GrammarFault → String
  | .missingTerminal => "Missing terminal "
  | .expectedIdentifier _ _ => "Expected identifi"
  | .expectedBody => "Expected expressi"
  | .trailingComma => "Unexpected tokens"
  | .unexpectedToken _ => "Unexpected token:"

theorem take_message (fault : GrammarFault) :
    fault.message.toList.take 17 = fault.opening.toList := by
  have front : ∀ first rest : String, 17 ≤ first.toList.length →
      (first ++ rest).toList.take 17 = first.toList.take 17 := by
    intro first rest long
    rw [String.toList_append, List.take_append_of_le_length long]
  cases fault with
  | missingTerminal => decide
  | expectedIdentifier after found =>
      have spelled : ∃ rest, (expectedIdentifier after found).message =
          "Expected identifier after '" ++ rest := by
        cases found with
        | none => exact ⟨_, String.append_assoc⟩
        | some text =>
            refine ⟨after ++ ("', got '" ++ (text ++ "'")), ?_⟩
            rw [← String.append_assoc, ← String.append_assoc, ← String.append_assoc]
            exact rfl
      obtain ⟨rest, spelled⟩ := spelled
      rw [spelled, front _ _ (by decide)]
      exact (by decide : "Expected identifier after '".toList.take 17 = "Expected identifi".toList)
  | expectedBody => decide
  | trailingComma => decide
  | unexpectedToken text =>
      have spelled : (unexpectedToken text).message = "Unexpected token: '" ++ (text ++ "'") :=
        String.append_assoc
      rw [spelled, front _ _ (by decide)]
      exact (by decide : "Unexpected token: '".toList.take 17 = "Unexpected token:".toList)

theorem concernsBody_of_message_eq {fault other : GrammarFault}
    (concerned : other.concernsBody = true) (same : fault.message = other.message) :
    fault.concernsBody = true := by
  have opens : fault.opening = other.opening := by
    rw [← String.toList_inj, ← take_message, ← take_message, same]
  cases other <;> simp [concernsBody] at concerned <;> cases fault <;>
    simp [opening, concernsBody] at opens ⊢

/-- The message tells whether a fault is one of the body. -/
theorem message_ne_of_other {fault : GrammarFault} (other : fault.concernsBody = false) :
    fault.message ≠ "Expected expression after 'in'" ∧
      fault.message ≠ "Unexpected tokens after body expression" := by
  have differs : ∀ concerned : GrammarFault, concerned.concernsBody = true →
      fault.message ≠ concerned.message := by
    intro concerned isConcerned same
    have contradiction := concernsBody_of_message_eq isConcerned same
    simp [other] at contradiction
  exact ⟨differs .expectedBody rfl, differs .trailingComma rfl⟩

end GrammarFault

namespace CaptureList

/-! ### Clauses without their identifier -/

/-- The words of a clause that have been read when its identifier is still to come, or nothing
between two phrases. -/
inductive Announced where
  | nothing
  | move (start : Nat)
  | refMut (start middle : Nat)
  | ref (start : Nat)
  | method (name : String) (start : Nat)

namespace Announced

/-- The tokens of the words. -/
def tokens : Announced → List Token
  | .nothing => []
  | .move start => [⟨.keyword, "move", start⟩]
  | .refMut start middle => [⟨.keyword, "ref", start⟩, ⟨.keyword, "mut", middle⟩]
  | .ref start => [⟨.keyword, "ref", start⟩]
  | .method name start => [⟨.identifier, name, start⟩]

/-- The tokens that can follow. -/
def Admits : Announced → Token → Prop
  | .nothing, token => token.kind = .comma ∨ token.kind = .identifier ∨
      token.isKeyword "in" = true ∨ token.isKeyword "move" = true ∨ token.isKeyword "ref" = true
  | .ref _, token => token.kind = .identifier ∨ token.isKeyword "mut" = true
  | _, token => token.kind = .identifier

end Announced

/-- How reading stops at tokens with no phrase in front. -/
inductive Stops (length : Nat) : List Token → GrammarError → Prop
  | ended (announced : Announced) {fault : GrammarFault} : fault.concernsBody = false →
      Stops length announced.tokens ⟨fault, length⟩
  | refused {announced : Announced} {token : Token} (later : List Token) {fault : GrammarFault} :
      ¬ announced.Admits token → fault.concernsBody = false →
      Stops length (announced.tokens ++ token :: later) ⟨fault, token.offset⟩
  | bodiless {start : Token} (later : List Token) : start.isKeyword "in" = true →
      Stops length (start :: later) ⟨.expectedBody, start.offset⟩
  | trailing {start body : Token} (later : List Token) : start.isKeyword "in" = true →
      body.kind = .body → body.text.toList.getLast? = some ',' →
      Stops length (start :: body :: later) ⟨.trailingComma, body.offset + body.text.length - 1⟩

theorem stops_of_readBody {start : Token} {rest : List Token} {error : GrammarError}
    (terminal : start.isKeyword "in" = true) (failed : readBody start rest = .error error)
    (length : Nat) : Stops length (start :: rest) error := by
  cases rest with
  | nil =>
      obtain rfl := Except.error.inj failed
      exact .bodiless [] terminal
  | cons body later =>
      simp only [readBody] at failed
      split at failed
      · obtain rfl := Except.error.inj failed
        exact .bodiless _ terminal
      · next isBody =>
          split at failed
          · next comma =>
              obtain rfl := Except.error.inj failed
              exact .trailing later terminal (Decidable.not_not.1 isBody) comma
          · simp at failed

/-- An identifier that is missing behind the words of a clause. -/
theorem stops_of_expectIdentifier {announced : Announced} {length : Nat} {words : String}
    {rest : List Token} {error : GrammarError}
    (needs : ∀ token ∈ rest.head?, announced.Admits token → token.kind = .identifier)
    (failed : expectIdentifier length words rest = .error error) :
    Stops length (announced.tokens ++ rest) error := by
  cases rest with
  | nil =>
      obtain rfl := Except.error.inj failed
      rw [List.append_nil]
      exact .ended announced rfl
  | cons token later =>
      simp only [expectIdentifier] at failed
      split at failed
      · simp at failed
      · next other =>
          obtain rfl := Except.error.inj failed
          exact .refused later (fun admits => other (needs token rfl admits)) rfl

/-- The words that announce a clause, with what is expected behind them. -/
theorem exists_announced_of_readMode {token : Token} {rest later : List Token}
    {mode : Mode String} {words : String}
    (announcing : readMode token rest = .ok (mode, words, later)) :
    ∃ announced : Announced, token :: rest = announced.tokens ++ later ∧
      ∀ next ∈ later.head?, announced.Admits next → next.kind = .identifier := by
  unfold readMode at announcing
  split at announcing
  · next moved =>
      simp only [Except.ok.injEq, Prod.mk.injEq] at announcing
      obtain ⟨-, -, rfl⟩ := announcing
      refine ⟨.move token.offset, ?_, fun _ _ admits => admits⟩
      rw [isKeyword_iff.1 moved]
      rfl
  split at announcing
  · next referred =>
      rw [isKeyword_iff.1 referred]
      split at announcing
      · next next others =>
          split at announcing
          · next mutable =>
              simp only [Except.ok.injEq, Prod.mk.injEq] at announcing
              obtain ⟨-, -, rfl⟩ := announcing
              refine ⟨.refMut token.offset next.offset, ?_, fun _ _ admits => admits⟩
              rw [isKeyword_iff.1 mutable]
              rfl
          · next immutable =>
              simp only [Except.ok.injEq, Prod.mk.injEq] at announcing
              obtain ⟨-, -, rfl⟩ := announcing
              refine ⟨.ref token.offset, rfl, ?_⟩
              rintro _ ⟨rfl⟩ (identified | mutable)
              · exact identified
              · exact absurd mutable immutable
      · simp only [Except.ok.injEq, Prod.mk.injEq] at announcing
        obtain ⟨-, -, rfl⟩ := announcing
        exact ⟨.ref token.offset, rfl, by simp⟩
  split at announcing
  · next named =>
      simp only [Except.ok.injEq, Prod.mk.injEq] at announcing
      obtain ⟨-, -, rfl⟩ := announcing
      obtain ⟨kind, text, offset⟩ := token
      simp only at named
      subst named
      exact ⟨.method text offset, rfl, fun _ _ admits => admits⟩
  · simp at announcing

theorem stops_of_readMode {token : Token} {error : GrammarError} {rest : List Token}
    (notComma : token.kind ≠ .comma) (notTerminal : ¬ token.isKeyword "in" = true)
    (failed : readMode token rest = .error error) (length : Nat) :
    Stops length (token :: rest) error := by
  unfold readMode at failed
  split at failed
  · simp at failed
  · next notMove =>
      split at failed
      · split at failed
        · split at failed <;> simp at failed
        · simp at failed
      · next notRef =>
          split at failed
          · simp at failed
          · next notIdentifier =>
              obtain rfl := Except.error.inj failed
              refine @Stops.refused length .nothing token rest _ ?_ rfl
              simp [Announced.Admits, notComma, notTerminal, notMove, notRef, notIdentifier]

theorem stops_of_readClause {length : Nat} {token : Token} {rest : List Token}
    {error : GrammarError} (notComma : token.kind ≠ .comma)
    (notTerminal : ¬ token.isKeyword "in" = true)
    (failed : readClause length token rest = .error error) :
    Stops length (token :: rest) error := by
  simp only [readClause, bind, Except.bind] at failed
  split at failed
  · next fault modeFailed =>
      obtain rfl := Except.error.inj failed
      exact stops_of_readMode notComma notTerminal modeFailed length
  · next found announcing =>
      obtain ⟨mode, words, later⟩ := found
      obtain ⟨announced, split, needs⟩ := exists_announced_of_readMode announcing
      split at failed
      · next fault missing =>
          obtain rfl := Except.error.inj failed
          rw [split]
          exact stops_of_expectIdentifier needs missing
      · simp [pure, Except.pure] at failed

/-- Reading that fails has passed over phrases and stops behind them. -/
theorem exists_stops_of_readTokens {length : Nat} {tokens : List Token} {error : GrammarError}
    (failed : (readTokens length tokens).ending = .error error) :
    ∃ (phrases : List Phrase) (rest : List Token),
      tokens = phrases.flatMap Phrase.tokens ++ rest ∧ Stops length rest error := by
  fun_induction readTokens length tokens with
  | case1 =>
      obtain rfl := Except.error.inj failed
      exact ⟨[], [], rfl, .ended .nothing rfl⟩
  | case2 token rest comma ih =>
      obtain ⟨phrases, later, rfl, stops⟩ := ih failed
      obtain ⟨kind, text, offset⟩ := token
      simp only at comma
      subst comma
      exact ⟨.comma text offset :: phrases, later, rfl, stops⟩
  | case3 token rest comma terminal =>
      exact ⟨[], _, rfl, stops_of_readBody terminal failed length⟩
  | case4 token rest comma terminal fault clauseFailed =>
      obtain rfl := Except.error.inj failed
      exact ⟨[], _, rfl, stops_of_readClause comma terminal clauseFailed⟩
  | case5 token rest comma terminal clause later clauseRead ih =>
      obtain ⟨phrase, written, -⟩ := exists_phrase_of_readClause clauseRead
      obtain ⟨phrases, remaining, rfl, stops⟩ := ih failed
      refine ⟨phrase :: phrases, remaining, ?_, stops⟩
      rw [← written, List.flatMap_cons, List.append_assoc]

/-! ### Nothing goes on with a refused token -/

/-- Tokens whose reading reaches a body, whatever the length of their text. -/
def Accepted (tokens : List Token) : Prop :=
  ∃ length result, (readTokens length tokens).ending = .ok result

theorem readTokens_of_readClause {length : Nat} {token : Token} {rest : List Token}
    {error : GrammarError} (notComma : token.kind ≠ .comma)
    (notTerminal : ¬ token.isKeyword "in" = true)
    (failed : readClause length token rest = .error error) :
    (readTokens length (token :: rest)).ending = .error error := by
  rw [readTokens, if_neg notComma, if_neg notTerminal]
  split
  · next fault found => exact congrArg Except.error (Except.error.inj (found.symm.trans failed))
  · next found => simp [failed] at found

theorem exists_error_of_readMode {length : Nat} {first next : Token} {rest later : List Token}
    {mode : Mode String} {words : String} (notComma : first.kind ≠ .comma)
    (notTerminal : ¬ first.isKeyword "in" = true)
    (announcing : readMode first rest = .ok (mode, words, next :: later))
    (notIdentifier : next.kind ≠ .identifier) :
    ∃ error, (readTokens length (first :: rest)).ending = .error error := by
  refine ⟨⟨.expectedIdentifier words (some next.text), next.offset⟩,
    readTokens_of_readClause notComma notTerminal ?_⟩
  simp only [readClause, announcing, expectIdentifier, if_neg notIdentifier, bind, Except.bind]

/-- A token that cannot follow the words of a clause is the fault of that clause. -/
theorem Announced.exists_error {announced : Announced} {token : Token}
    (refused : ¬ announced.Admits token) (later : List Token) (length : Nat) :
    ∃ error, (readTokens length (announced.tokens ++ token :: later)).ending = .error error := by
  cases announced with
  | nothing =>
      simp only [Admits, not_or] at refused
      obtain ⟨notComma, notIdentifier, notTerminal, notMove, notRef⟩ := refused
      refine ⟨⟨.unexpectedToken token.text, token.offset⟩,
        readTokens_of_readClause notComma notTerminal ?_⟩
      simp only [readClause, readMode, if_neg notMove, if_neg notRef, if_neg notIdentifier, bind,
        Except.bind]
  | move start =>
      exact exists_error_of_readMode (by simp) (by simp [Token.isKeyword]) rfl refused
  | refMut start middle =>
      exact exists_error_of_readMode (by simp) (by simp [Token.isKeyword]) rfl refused
  | ref start =>
      simp only [Admits, not_or] at refused
      have announcing : readMode ⟨.keyword, "ref", start⟩ (token :: later) =
          .ok (.ref, "ref", token :: later) := by
        simp only [readMode, if_neg refused.2]
        rfl
      exact exists_error_of_readMode (by simp) (by simp [Token.isKeyword]) announcing refused.1
  | method name start =>
      exact exists_error_of_readMode (by simp) (by simp [Token.isKeyword]) rfl refused

/-- Behind phrases and the words of a clause, a token that cannot follow is refused, whatever
comes after it. -/
theorem not_accepted_of_not_admits {phrases : List Phrase} {announced : Announced} {token : Token}
    (refused : ¬ announced.Admits token) {tokens : List Token}
    (starts : phrases.flatMap Phrase.tokens ++ announced.tokens ++ [token] <+: tokens) :
    ¬ Accepted tokens := by
  rintro ⟨length, result, reached⟩
  obtain ⟨later, rfl⟩ := starts
  rw [List.append_assoc, List.append_assoc, readTokens_phrases] at reached
  obtain ⟨error, failed⟩ := Announced.exists_error refused later length
  exact nomatch reached.symm.trans failed

/-! ### Some text goes on -/

/-- Some capture list that can be read starts with the tokens. -/
def CanContinue (tokens : List Token) : Prop :=
  ∃ text list, parse text = .ok list ∧ tokens <+: Token.scan text

end CaptureList

namespace Token

/-- A token of a clause or a comma. -/
def IsPlain (token : Token) : Prop :=
  token.kind ≠ .other ∧ token.isKeyword "in" = false

/-- The text of plain tokens, which may go on with a blank. -/
def IsCut (offset : Nat) (text : List Char) (tokens : List Token) (front : List Char) : Prop :=
  front <+: text ∧ (tokens = [] → front = []) ∧
    ∀ more : List Char, (∀ next ∈ more.head?, Text.isBlank next = true) →
      scanFrom offset (front ++ more) = tokens ++ scanFrom (offset + front.length) more

theorem isCut_nil (offset : Nat) (text : List Char) : IsCut offset text [] [] :=
  ⟨List.nil_prefix, fun _ => rfl, fun _ _ => rfl⟩

theorem IsCut.cons {offset : Nat} {spacers : List Spacer} {piece rest front : List Char}
    {token : Token} {tokens : List Token}
    (cut : IsCut (offset + (Spacer.run spacers).length + piece.length) rest tokens front)
    (scanned : ∀ more : List Char, (∀ next ∈ more.head?, Text.isBlank next = true) →
      scanFrom (offset + (Spacer.run spacers).length) (piece ++ (front ++ more)) =
        token :: scanFrom (offset + (Spacer.run spacers).length + piece.length) (front ++ more)) :
    IsCut offset (Spacer.run spacers ++ (piece ++ rest)) (token :: tokens)
      (Spacer.run spacers ++ (piece ++ front)) := by
  obtain ⟨⟨remaining, rfl⟩, -, later⟩ := cut
  refine ⟨⟨remaining, by simp⟩, by simp, ?_⟩
  intro more blank
  rw [List.append_assoc, List.append_assoc, scanFrom_run, scanned more blank, later more blank,
    List.length_append, List.length_append, Nat.add_assoc, Nat.add_assoc]
  rfl

/-- A word is not followed by a hash where the next token is plain. -/
theorem endsWord_of_isCut {offset : Nat} {text front more : List Char} {before after : List Token}
    (scanned : scanFrom offset text = before ++ after) (plain : ∀ token ∈ before, token.IsPlain)
    (cut : IsCut offset text before front)
    (stops : ∀ next ∈ text.head?, Text.isWord next = false)
    (blank : ∀ next ∈ more.head?, Text.isBlank next = true) : Text.EndsWord (front ++ more) := by
  obtain ⟨⟨remaining, rfl⟩, cutOff, -⟩ := cut
  intro next isNext
  cases front with
  | nil =>
      have isBlank := blank next isNext
      refine ⟨Text.isWord_of_isBlank isBlank, ?_⟩
      rintro rfl
      exact absurd isBlank (by decide)
  | cons first front =>
      obtain rfl : first = next := by simpa using isNext
      refine ⟨stops first rfl, ?_⟩
      rintro rfl
      obtain ⟨token, before, rfl⟩ := List.exists_cons_of_ne_nil fun nothing =>
        List.cons_ne_nil _ _ (cutOff nothing)
      obtain ⟨others, stray⟩ := exists_scanFrom_mark offset (by decide : '#' ∈ ['"', '\'', '#'])
        (front ++ remaining)
      obtain ⟨rfl, -⟩ := List.cons.inj (stray.symm.trans scanned)
      exact (plain _ List.mem_cons_self).1 rfl

/-- A text can be cut behind plain tokens. -/
theorem exists_cut (offset : Nat) (text : List Char) :
    ∀ before after, scanFrom offset text = before ++ after → (∀ token ∈ before, token.IsPlain) →
      ∃ front, IsCut offset text before front := by
  fun_induction scanFrom offset text with
  | case1 offset text skipped =>
      intro before after split _
      obtain ⟨rfl, -⟩ := List.append_eq_nil_iff.1 split.symm
      exact ⟨[], isCut_nil offset text⟩
  | case2 offset text rest start skipped ih =>
      intro before after split plain
      obtain ⟨spacers, whole, place, -⟩ := exists_gap_of_skip skipped offset
      cases before with
      | nil => exact ⟨[], isCut_nil offset text⟩
      | cons token before =>
          obtain ⟨rfl, later⟩ := List.cons.inj split
          obtain ⟨front, cut⟩ := ih before after later fun other member =>
            plain other (List.mem_cons_of_mem _ member)
          simp only [start, place] at cut ⊢
          rw [whole]
          exact ⟨_, @IsCut.cons _ _ [','] _ _ _ _ cut fun _ _ => scanFrom_comma _ _⟩
  | case3 offset text first rest skipped start comma noWord ih =>
      intro before after split plain
      cases before with
      | nil => exact ⟨[], isCut_nil offset text⟩
      | cons token before =>
          -- A stray character is not plain, and neither is `in`.
          obtain ⟨rfl, -⟩ := List.cons.inj split
          exact absurd rfl (plain _ List.mem_cons_self).1
  | case4 offset text first rest skipped start comma letter letters taken word after next isIn =>
      intro before behind split plain
      cases before with
      | nil => exact ⟨[], isCut_nil offset text⟩
      | cons token before =>
          obtain ⟨rfl, -⟩ := List.cons.inj split
          have other := (plain _ List.mem_cons_self).2
          rw [isIn] at other
          exact absurd other.symm Bool.false_ne_true
  | case5 offset text first rest skipped start comma letter letters taken word after next other ih =>
      intro before behind split plain
      obtain ⟨spacers, whole, place, -⟩ := exists_gap_of_skip skipped offset
      cases before with
      | nil => exact ⟨[], isCut_nil offset text⟩
      | cons token before =>
          obtain ⟨rfl, later⟩ := List.cons.inj split
          have plainLater : ∀ token ∈ before, token.IsPlain :=
            fun other member => plain other (List.mem_cons_of_mem _ member)
          obtain ⟨front, cut⟩ := ih before behind later plainLater
          have spelled : word.toList = letter :: letters := String.toList_ofList
          have isWhole : Text.IsWhole word.toList := spelled ▸ Text.isWhole_of_takeWord taken
          have parted := Text.word_append_of_takeWord taken
          have ends := fun (more : List Char) => @endsWord_of_isCut _ _ _ more _ _ later plainLater
            cut (Text.isWord_of_takeWord taken parted)
          have reached : next = offset + (Spacer.run spacers).length + word.toList.length := by
            simp only [next, start, place, spelled, List.length_cons]
          rw [reached] at cut
          simp only [start, place]
          rw [whole, parted, ← spelled]
          -- The word ends where it did, whether the next token or a blank follows it.
          refine ⟨_, cut.cons fun more blank => ?_⟩
          rw [scanFrom_word _ isWhole (ends more blank), if_neg other]

/-! ### The place of a token among the others -/

theorem offset_lt_length {text : List Char} {token : Token} (member : token ∈ scan text) :
    token.offset < text.length := by
  obtain ⟨rest, here, stands⟩ := (divides_scanFrom 0 text).places [] rfl |>.1 token member
  have nonempty : text.drop token.offset ≠ [] := by
    rw [List.nil_append] at here
    simp [here, stands.spelled]
  simpa using nonempty

theorem filter_offset_lt {text : List Char} {before after : List Token} {token : Token}
    (scanned : scan text = before ++ token :: after) :
    (scan text).filter (·.offset < token.offset) = before := by
  have ordered := (divides_scanFrom 0 text).ordered
  rw [← scan, scanned] at ordered
  obtain ⟨-, later, apart⟩ := List.pairwise_append.1 ordered
  have earlier : before.filter (·.offset < token.offset) = before := by
    apply List.filter_eq_self.2
    intro other member
    simpa using (apart other member token List.mem_cons_self).1
  have behind : (token :: after).filter (·.offset < token.offset) = [] := by
    apply List.filter_eq_nil_iff.2
    intro other member
    rcases List.mem_cons.1 member with rfl | inside
    · simp
    · have ahead := (List.pairwise_cons.1 later).1 other inside
      simp only [decide_eq_true_eq]
      omega
  rw [scanned, List.filter_append, earlier, behind, List.append_nil]

theorem filter_length (text : List Char) :
    (scan text).filter (·.offset < text.length) = scan text := by
  apply List.filter_eq_self.2
  intro token member
  simpa using offset_lt_length member

/-! ### Texts that complete a capture list -/

theorem scanFrom_terminal (offset : Nat) : scanFrom offset " in x".toList =
    [⟨.keyword, "in", offset + 1⟩, ⟨.body, "x", offset + 4⟩] := by
  have ends : Text.EndsWord " x".toList := by
    rintro next ⟨rfl⟩
    decide
  have whole : Text.IsWhole "in".toList := CaptureList.isWhole_of_keyword (by decide)
  have content : ¬ OnlySpacing " x".toList := by
    intro spacing
    have nothing := (Comment.skip_spacer (.blank ' ' (by decide)) ['x']).symm.trans
      (Comment.skip_eq_nil_iff.2 spacing)
    rw [Comment.skip_of_isWord (by decide)] at nothing
    exact nomatch nothing
  have scanned := scanFrom_run offset [.blank ' ' (by decide)] ("in".toList ++ " x".toList)
  rw [scanFrom_word _ whole ends, if_pos rfl, scanBody_of_content content] at scanned
  exact scanned

theorem scanFrom_identifier (offset : Nat) : scanFrom offset " x in x".toList =
    [⟨.identifier, "x", offset + 1⟩, ⟨.keyword, "in", offset + 3⟩, ⟨.body, "x", offset + 6⟩] := by
  have ends : Text.EndsWord " in x".toList := by
    rintro next ⟨rfl⟩
    decide
  have whole : Text.IsWhole "x".toList := .bare (by decide) (by simp)
  have scanned := scanFrom_run offset [.blank ' ' (by decide)] ("x".toList ++ " in x".toList)
  rw [scanFrom_word _ whole ends, if_neg (by decide), scanFrom_terminal] at scanned
  exact scanned

end Token

namespace CaptureList

/-- A text that completes a capture list behind phrases and the words of a clause. -/
def Announced.completion : Announced → List Char
  | .nothing => " in x".toList
  | _ => " x in x".toList

/-- The clause that has been announced, once its identifier has been written. -/
def Announced.finished (place : Nat) : Announced → List Phrase
  | .nothing => []
  | .move start => [.move start "x" place]
  | .refMut start middle => [.refMut start middle "x" place]
  | .ref start => [.ref start "x" place]
  | .method name start => [.method name start "x" place]

theorem Announced.exists_completed (announced : Announced) (offset : Nat) :
    ∃ terminal place, announced.tokens ++ Token.scanFrom offset announced.completion =
      (announced.finished (offset + 1)).flatMap Phrase.tokens ++
        [⟨.keyword, "in", terminal⟩, ⟨.body, "x", place⟩] := by
  cases announced with
  | nothing => exact ⟨_, _, Token.scanFrom_terminal offset⟩
  | move | refMut | ref | method =>
      exact ⟨_, _, congrArg _ (Token.scanFrom_identifier offset)⟩

theorem Phrase.isPlain_of_mem {phrase : Phrase} : ∀ token ∈ phrase.tokens, token.IsPlain := by
  cases phrase <;> simp [tokens, Token.IsPlain, Token.isKeyword]

theorem Announced.isPlain_of_mem {announced : Announced} :
    ∀ token ∈ announced.tokens, token.IsPlain := by
  cases announced <;> simp [tokens, Token.IsPlain, Token.isKeyword]

theorem isPlain_of_mem_phrases {phrases : List Phrase} :
    ∀ token ∈ phrases.flatMap Phrase.tokens, token.IsPlain := by
  intro token member
  obtain ⟨phrase, -, inside⟩ := List.mem_flatMap.1 member
  exact phrase.isPlain_of_mem token inside

theorem canContinue_of_scan {text : List Char} {phrases : List Phrase} {announced : Announced}
    {rest : List Token}
    (scanned : Token.scan text = phrases.flatMap Phrase.tokens ++ announced.tokens ++ rest) :
    CanContinue (phrases.flatMap Phrase.tokens ++ announced.tokens) := by
  have plain : ∀ token ∈ phrases.flatMap Phrase.tokens ++ announced.tokens, token.IsPlain :=
    List.forall_mem_append.2 ⟨isPlain_of_mem_phrases, announced.isPlain_of_mem⟩
  obtain ⟨front, -, -, cut⟩ := Token.exists_cut 0 text _ _ scanned plain
  have blank : ∀ next ∈ announced.completion.head?, Text.isBlank next = true := by
    cases announced <;> rintro next ⟨rfl⟩ <;> decide
  have goesOn := cut announced.completion blank
  obtain ⟨terminal, place, completed⟩ := announced.exists_completed (0 + front.length)
  have written : Token.scan (front ++ announced.completion) =
      Sentence.tokens ⟨phrases ++ announced.finished (0 + front.length + 1), terminal, "x", place,
        by decide⟩ := by
    rw [Token.scan, goesOn, List.append_assoc, completed, Sentence.tokens, List.flatMap_append,
      List.append_assoc]
  exact ⟨_, _, parse_eq_ok_iff.2 ⟨_, written.symm, rfl⟩, ⟨_, goesOn.symm⟩⟩

/-! ### Where the error points -/

theorem exists_stops_of_parse {text : List Char} {error : GrammarError}
    (refused : parse text = .error error) :
    ∃ (phrases : List Phrase) (rest : List Token),
      Token.scan text = phrases.flatMap Phrase.tokens ++ rest ∧ Stops text.length rest error := by
  apply exists_stops_of_readTokens
  simp only [parse, Reading.list, bind, Except.bind] at refused
  split at refused
  · next failed => rwa [← Except.error.inj refused]
  · simp [pure, Except.pure] at refused

/-- A comma that ends the body of a text is followed by nothing but blanks. -/
theorem exists_trail_of_comma {text : List Char} {phrases : List Phrase} {later : List Token}
    {start body : Token}
    (scanned : Token.scan text = phrases.flatMap Phrase.tokens ++ start :: body :: later)
    (terminal : start.isKeyword "in" = true) (isBody : body.kind = .body)
    (comma : body.text.toList.getLast? = some ',') :
    ∃ front trail, text = front ++ ',' :: trail ∧
      front.length = body.offset + body.text.length - 1 ∧
      ∀ blank ∈ trail, Text.isBlank blank = true := by
  have last : later = [] := by
    have bounded := Token.scanFrom_terminated 0 text _ _ _ scanned terminal
    simpa using bounded
  obtain ⟨kind, spelling, place⟩ := body
  simp only at isBody comma ⊢
  subst isBody
  rw [last, isKeyword_iff.1 terminal] at scanned
  obtain ⟨region, after, rfl, -, -, found⟩ := exists_region_of_scan scanned
  obtain ⟨blanks, trail, rfl, -, blankBehind, placed⟩ := Token.exists_of_mem_scanBody found
  obtain ⟨front, spelled⟩ := List.getLast?_eq_some_iff.1 comma
  refine ⟨region ++ blanks ++ front, trail, by simp [spelled], ?_, blankBehind⟩
  simp only at placed
  rw [← String.length_toList, spelled, placed]
  simp
  omega

/-- An error points at the first token that cannot follow the tokens before it, or behind the last
token: some capture list goes on from the tokens before, and none goes on with the token that
stands there.  A missing body is reported at `in`, and a comma behind the body at its place. -/
theorem parse_error_points_at_offender {text : List Char} {error : GrammarError}
    (refused : parse text = .error error) :
    let before := (Token.scan text).filter (·.offset < error.offset)
    error.offset ≤ text.length ∧
    (error.fault.message = "Expected expression after 'in'" →
      ∃ start ∈ Token.scan text, start.isKeyword "in" = true ∧ start.offset = error.offset) ∧
    (error.fault.message = "Unexpected tokens after body expression" →
      ∃ front trail, text = front ++ ',' :: trail ∧ front.length = error.offset ∧
        ∀ blank ∈ trail, Text.isBlank blank = true) ∧
    (error.fault.message ∉
        ["Expected expression after 'in'", "Unexpected tokens after body expression"] →
      CanContinue before ∧
      (error.offset < text.length → ∃ token ∈ Token.scan text, token.offset = error.offset ∧
        ∀ tokens, before ++ [token] <+: tokens → ¬ Accepted tokens) ∧
      (error.offset = text.length → before = Token.scan text)) := by
  intro before
  have apart : GrammarFault.expectedBody.message ≠ GrammarFault.trailingComma.message := by decide
  obtain ⟨phrases, rest, scanned, stops⟩ := exists_stops_of_parse refused
  cases stops with
  | @ended announced fault other =>
      -- The tokens are all in order, but the text ends too early.
      obtain ⟨notMissing, notTrailing⟩ := GrammarFault.message_ne_of_other other
      have all : before = Token.scan text := Token.filter_length text
      refine ⟨Nat.le_refl _, fun missing => absurd missing notMissing,
        fun trailing => absurd trailing notTrailing, fun _ => ⟨?_, ?_, fun _ => all⟩⟩
      · rw [all, scanned]
        exact canContinue_of_scan (scanned.trans (List.append_nil _).symm)
      · exact fun inside => absurd inside (Nat.lt_irrefl _)
  | @refused announced token later fault notAdmitted other =>
      -- Exactly the phrases and the announcing words stand before the refused token.
      obtain ⟨notMissing, notTrailing⟩ := GrammarFault.message_ne_of_other other
      rw [← List.append_assoc] at scanned
      have member : token ∈ Token.scan text := by simp [scanned]
      have inside : token.offset < text.length := Token.offset_lt_length member
      have read : before = phrases.flatMap Phrase.tokens ++ announced.tokens :=
        Token.filter_offset_lt scanned
      refine ⟨Nat.le_of_lt inside, fun missing => absurd missing notMissing,
        fun trailing => absurd trailing notTrailing, fun _ => ⟨?_, fun _ => ?_, ?_⟩⟩
      · rw [read]
        exact canContinue_of_scan scanned
      · refine ⟨token, member, rfl, fun tokens starts => ?_⟩
        rw [read] at starts
        exact not_accepted_of_not_admits notAdmitted starts
      · exact fun atEnd => absurd atEnd (Nat.ne_of_lt inside)
  | @bodiless start later terminal =>
      have member : start ∈ Token.scan text := by simp [scanned]
      exact ⟨Nat.le_of_lt (Token.offset_lt_length member),
        fun _ => ⟨start, member, terminal, rfl⟩, fun trailing => absurd trailing apart,
        fun other => absurd List.mem_cons_self other⟩
  | @trailing start body later terminal isBody comma =>
      obtain ⟨front, trail, split, length, blankBehind⟩ :=
        exists_trail_of_comma scanned terminal isBody comma
      refine ⟨?_, fun missing => absurd missing apart.symm,
        fun _ => ⟨front, trail, split, length, blankBehind⟩,
        fun other => absurd (List.mem_cons_of_mem _ List.mem_cons_self) other⟩
      rw [← length, split, List.length_append]
      exact Nat.le_add_right _ _

/-- Behind `ref mut` a number stands where an identifier is expected. -/
theorem parse_error_points_at_number :
    let before : List Token := [⟨.keyword, "move", 0⟩, ⟨.identifier, "a", 5⟩, ⟨.comma, ",", 6⟩,
      ⟨.keyword, "ref", 8⟩, ⟨.keyword, "mut", 12⟩]
    parse "move a, ref mut 1 in a".toList =
      .error ⟨.expectedIdentifier "ref mut" (some "1"), 16⟩ ∧
    CanContinue before ∧
    ∃ token : Token, token.offset = 16 ∧
      ∀ tokens, before ++ [token] <+: tokens → ¬ Accepted tokens := by
  intro before
  have refused : parse "move a, ref mut 1 in a".toList =
      .error ⟨.expectedIdentifier "ref mut" (some "1"), 16⟩ := by
    with_unfolding_all rfl
  have read : (Token.scan "move a, ref mut 1 in a".toList).filter (·.offset < 16) = before := by
    with_unfolding_all rfl
  obtain ⟨-, -, -, points⟩ := parse_error_points_at_offender refused
  rw [read] at points
  obtain ⟨goesOn, blamed, -⟩ := points (by decide)
  obtain ⟨token, -, placed, excluded⟩ := blamed (by decide)
  exact ⟨refused, goesOn, token, placed, excluded⟩

end CaptureList

end ClosureCapture
