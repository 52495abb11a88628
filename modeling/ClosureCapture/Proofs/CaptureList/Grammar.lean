import ClosureCapture.CaptureList.Parser

/-!
# The grammar of capture lists

A sentence of the grammar is a sequence of phrases, which are commas and clauses, then `in` and a
body that does not end in a comma.  Phrases and sentences are data that write themselves as
tokens, so that a way of splitting tokens into phrases is a sentence with those tokens.

This file proves that reading accepts exactly the tokens of sentences, that it returns the
clauses of the sentence in order with the offsets of their first words, and that no two
sentences write the same tokens.
-/

namespace ClosureCapture

namespace Token

/-- At most one token follows a keyword `in`. -/
def Terminated (tokens : List Token) : Prop :=
  ∀ before start after, tokens = before ++ start :: after →
    start.isKeyword "in" = true → after.length ≤ 1

theorem Terminated.nil : Terminated [] := by
  intro before start after split
  simp at split

theorem Terminated.cons {token : Token} {rest : List Token} (ended : Terminated rest)
    (bounded : token.isKeyword "in" = true → rest.length ≤ 1) : Terminated (token :: rest) := by
  intro before start after split terminal
  cases before with
  | nil =>
      obtain ⟨rfl, rfl⟩ := List.cons.inj split
      exact bounded terminal
  | cons first others =>
      exact ended others start after (List.cons.inj split).2 terminal

theorem Terminated.tail {token : Token} {rest : List Token}
    (ended : Terminated (token :: rest)) : Terminated rest := by
  intro before start after split terminal
  exact ended (token :: before) start after (by rw [split, List.cons_append]) terminal

theorem Terminated.of_suffix {tokens rest : List Token} (ended : Terminated tokens)
    (inside : rest <:+ tokens) : Terminated rest := by
  obtain ⟨front, rfl⟩ := inside
  intro before start after split terminal
  exact ended (front ++ before) start after (by rw [split, List.append_assoc]) terminal

theorem scanBody_length_le (offset : Nat) (text : List Char) :
    (scanBody offset text).length ≤ 1 := by
  unfold scanBody
  split <;> simp

theorem scanBody_terminated (offset : Nat) (text : List Char) :
    Terminated (scanBody offset text) := by
  unfold scanBody
  split
  · exact .nil
  · exact .cons .nil (by simp)

/-- Scanning stops at the first `in`, with one token for all that follows it. -/
theorem scanFrom_terminated (offset : Nat) (text : List Char) :
    Terminated (scanFrom offset text) := by
  fun_induction scanFrom offset text with
  | case1 => exact .nil
  | case2 offset text rest skipped start ih =>
      exact .cons ih (by simp [isKeyword])
  | case3 offset text first rest skipped start comma noWord ih =>
      exact .cons ih (by simp [isKeyword])
  | case4 offset text first rest skipped start comma letter letters found word after next =>
      exact .cons (scanBody_terminated next after) fun _ => scanBody_length_le next after
  | case5 offset text first rest skipped start comma letter letters found word after next other ih =>
      exact .cons ih (by simp [isKeyword, ofWord, other])

end Token

namespace CaptureList

/-- A comma or a clause, with the offsets of its words. -/
inductive Phrase where
  | comma (text : String) (offset : Nat)
  | move (start : Nat) (identifier : String) (place : Nat)
  | refMut (start middle : Nat) (identifier : String) (place : Nat)
  | ref (start : Nat) (identifier : String) (place : Nat)
  | method (name : String) (start : Nat) (identifier : String) (place : Nat)
  deriving DecidableEq, Repr

namespace Phrase

/-- The tokens of a phrase. -/
def tokens : Phrase → List Token
  | .comma text offset => [⟨.comma, text, offset⟩]
  | .move start identifier place =>
      [⟨.keyword, "move", start⟩, ⟨.identifier, identifier, place⟩]
  | .refMut start middle identifier place =>
      [⟨.keyword, "ref", start⟩, ⟨.keyword, "mut", middle⟩, ⟨.identifier, identifier, place⟩]
  | .ref start identifier place =>
      [⟨.keyword, "ref", start⟩, ⟨.identifier, identifier, place⟩]
  | .method name start identifier place =>
      [⟨.identifier, name, start⟩, ⟨.identifier, identifier, place⟩]

/-- The clause of a phrase that is no comma, placed at its first word. -/
def clause? : Phrase → Option (Clause String)
  | .comma _ _ => none
  | .move start identifier _ => some ⟨.move, identifier, some start⟩
  | .refMut start _ identifier _ => some ⟨.refMut, identifier, some start⟩
  | .ref start identifier _ => some ⟨.ref, identifier, some start⟩
  | .method name start identifier _ => some ⟨.method name, identifier, some start⟩

/-- The first token of a phrase tells commas, moves and methods apart, and the second one
tells `ref mut` from `ref`. -/
theorem tokens_append_inj {first second : Phrase} {rest others : List Token}
    (same : first.tokens ++ rest = second.tokens ++ others) :
    first = second ∧ rest = others := by
  cases first <;> cases second <;> simp_all [tokens]

/-- No phrase starts with the keyword `in`. -/
theorem tokens_append_ne_terminal (phrase : Phrase) (rest others : List Token) (offset : Nat) :
    phrase.tokens ++ rest ≠ ⟨.keyword, "in", offset⟩ :: others := by
  cases phrase <;> simp [tokens]

end Phrase

/-- Phrases, then `in` and a body that does not end in a comma. -/
structure Sentence where
  phrases : List Phrase
  /-- The offset of `in`. -/
  terminal : Nat
  body : String
  /-- The offset of the body. -/
  place : Nat
  body_getLast : body.toList.getLast? ≠ some ','

namespace Sentence

/-- The tokens of a sentence. -/
def tokens (sentence : Sentence) : List Token :=
  sentence.phrases.flatMap Phrase.tokens ++
    [⟨.keyword, "in", sentence.terminal⟩, ⟨.body, sentence.body, sentence.place⟩]

/-- The capture list that a sentence describes. -/
def list (sentence : Sentence) : CaptureList String :=
  ⟨sentence.phrases.filterMap Phrase.clause?, sentence.body, some sentence.place⟩

/-- A sentence with one more phrase in front. -/
def push (phrase : Phrase) (sentence : Sentence) : Sentence :=
  { sentence with phrases := phrase :: sentence.phrases }

@[simp]
theorem tokens_push (phrase : Phrase) (sentence : Sentence) :
    (sentence.push phrase).tokens = phrase.tokens ++ sentence.tokens := by
  simp [tokens, push]

/-- Tokens are split into phrases in at most one way. -/
theorem tokens_injective : Function.Injective tokens := by
  rintro ⟨phrases, terminal, body, place, closed⟩ ⟨others, terminal', body', place', closed'⟩ same
  -- The two splittings are compared phrase by phrase; the terminal ends both at once.
  induction phrases generalizing others with
  | nil =>
      cases others with
      | nil => simpa [tokens] using same
      | cons phrase others =>
          simp only [tokens, List.flatMap_cons, List.append_assoc] at same
          exact (Phrase.tokens_append_ne_terminal _ _ _ _ same.symm).elim
  | cons phrase phrases ih =>
      cases others with
      | nil =>
          simp only [tokens, List.flatMap_cons, List.append_assoc] at same
          exact (Phrase.tokens_append_ne_terminal _ _ _ _ same).elim
      | cons other others =>
          simp only [tokens, List.flatMap_cons, List.append_assoc] at same
          obtain ⟨rfl, rest⟩ := Phrase.tokens_append_inj same
          have later := ih others rest
          simp only [Sentence.mk.injEq] at later ⊢
          exact ⟨by rw [later.1], later.2⟩

end Sentence

/-! ### Reading the tokens of sentences -/

/-- Reading passes over one phrase and keeps its clause. -/
theorem readTokens_tokens_append (length : Nat) (phrase : Phrase) (rest : List Token) :
    readTokens length (phrase.tokens ++ rest) =
      phrase.clause?.elim (readTokens length rest) (readTokens length rest).push := by
  cases phrase <;>
    simp [Phrase.tokens, Phrase.clause?, readTokens, readClause, readMode, expectIdentifier,
      Token.isKeyword, bind, Except.bind, pure, Except.pure]

theorem readTokens_phrases (length : Nat) (phrases : List Phrase) (rest : List Token) :
    readTokens length (phrases.flatMap Phrase.tokens ++ rest) =
      ⟨phrases.filterMap Phrase.clause? ++ (readTokens length rest).clauses,
        (readTokens length rest).ending⟩ := by
  induction phrases with
  | nil => rfl
  | cons phrase phrases ih =>
      rw [List.flatMap_cons, List.append_assoc, readTokens_tokens_append, ih,
        List.filterMap_cons]
      cases phrase.clause? <;> rfl

theorem readTokens_terminal (length : Nat) (place : Nat) (rest : List Token) :
    readTokens length (⟨.keyword, "in", place⟩ :: rest) =
      ⟨[], readBody ⟨.keyword, "in", place⟩ rest⟩ := by
  simp [readTokens, Token.isKeyword]

theorem readTokens_tokens (length : Nat) (sentence : Sentence) :
    readTokens length sentence.tokens =
      ⟨sentence.list.clauses, .ok (sentence.body, sentence.place)⟩ := by
  rw [Sentence.tokens, readTokens_phrases, readTokens_terminal]
  simp [readBody, sentence.body_getLast, Sentence.list]

/-! ### Splitting what reading accepts -/

theorem isKeyword_iff {token : Token} {word : String} :
    token.isKeyword word = true ↔ token = ⟨.keyword, word, token.offset⟩ := by
  obtain ⟨kind, text, offset⟩ := token
  simp [Token.isKeyword]

theorem expectIdentifier_eq_ok_iff {length : Nat} {after : String} {tokens rest : List Token}
    {identifier : String} :
    expectIdentifier length after tokens = .ok (identifier, rest) ↔
      ∃ place, tokens = ⟨.identifier, identifier, place⟩ :: rest := by
  cases tokens with
  | nil => simp [expectIdentifier]
  | cons token others =>
      obtain ⟨kind, text, offset⟩ := token
      by_cases identified : kind = .identifier
      · simp [expectIdentifier, identified]
      · simp [expectIdentifier, identified]

/-- A clause that was read is the clause of a phrase in front of the remaining tokens. -/
theorem exists_phrase_of_readClause {length : Nat} {token : Token} {rest later : List Token}
    {clause : Clause String} (read : readClause length token rest = .ok (clause, later)) :
    ∃ phrase : Phrase, phrase.tokens ++ later = token :: rest ∧ phrase.clause? = some clause := by
  simp only [readClause, bind, Except.bind] at read
  split at read
  · simp at read
  next announced modeRead =>
  split at read
  · simp at read
  next found identifierRead =>
  obtain ⟨mode, words, remaining⟩ := announced
  obtain ⟨identifier, after⟩ := found
  simp only [pure, Except.pure, Except.ok.injEq, Prod.mk.injEq] at read
  obtain ⟨rfl, rfl⟩ := read
  obtain ⟨place, rfl⟩ := expectIdentifier_eq_ok_iff.1 identifierRead
  -- Which phrase it is, the announcing words decide.
  unfold readMode at modeRead
  split at modeRead
  · next moved =>
      simp only [Except.ok.injEq, Prod.mk.injEq] at modeRead
      obtain ⟨rfl, rfl, rfl⟩ := modeRead
      refine ⟨.move token.offset identifier place, ?_, rfl⟩
      rw [isKeyword_iff.1 moved]
      rfl
  split at modeRead
  · next referred =>
      rw [isKeyword_iff.1 referred]
      split at modeRead
      · next next others =>
          split at modeRead
          · next mutable =>
              simp only [Except.ok.injEq, Prod.mk.injEq] at modeRead
              obtain ⟨rfl, rfl, rfl⟩ := modeRead
              refine ⟨.refMut token.offset next.offset identifier place, ?_, rfl⟩
              rw [isKeyword_iff.1 mutable]
              rfl
          · simp only [Except.ok.injEq, Prod.mk.injEq, List.cons.injEq] at modeRead
            obtain ⟨rfl, rfl, rfl, rfl⟩ := modeRead
            exact ⟨.ref token.offset identifier place, rfl, rfl⟩
      · simp at modeRead
  split at modeRead
  · next named =>
      simp only [Except.ok.injEq, Prod.mk.injEq] at modeRead
      obtain ⟨rfl, rfl, rfl⟩ := modeRead
      refine ⟨.method token.text token.offset identifier place, ?_, rfl⟩
      obtain ⟨kind, text, offset⟩ := token
      simp only at named
      subst named
      rfl
  · simp at modeRead

theorem readBody_eq_ok_iff {start : Token} {tokens : List Token} {body : String} {place : Nat} :
    readBody start tokens = .ok (body, place) ↔
      ∃ others, tokens = ⟨.body, body, place⟩ :: others ∧
        body.toList.getLast? ≠ some ',' := by
  cases tokens with
  | nil => simp [readBody]
  | cons token others =>
      obtain ⟨kind, text, offset⟩ := token
      by_cases isBody : kind = .body
      · subst isBody
        by_cases trailing : text.toList.getLast? = some ','
        · simp only [readBody, trailing, ne_eq, not_true_eq_false, if_false, if_true,
            reduceCtorEq, false_iff, not_exists, not_and]
          rintro others same closed
          simp only [List.cons.injEq, Token.mk.injEq, true_and] at same
          exact closed (same.1.1 ▸ trailing)
        · simp only [readBody, trailing, ne_eq, not_true_eq_false, if_false, Except.ok.injEq,
            Prod.mk.injEq, List.cons.injEq, Token.mk.injEq, true_and]
          constructor
          · rintro ⟨rfl, rfl⟩
            exact ⟨others, ⟨⟨rfl, rfl⟩, rfl⟩, trailing⟩
          · rintro ⟨_, ⟨same, _⟩, _⟩
            exact same
      · simp [readBody, isBody]

/-- Tokens whose reading reaches a body are the tokens of a sentence, provided that nothing
follows the body. -/
theorem exists_sentence_of_readTokens {length : Nat} {tokens : List Token} {body : String}
    {place : Nat} (ended : Token.Terminated tokens)
    (reached : (readTokens length tokens).ending = .ok (body, place)) :
    ∃ sentence : Sentence, sentence.tokens = tokens ∧
      sentence.list = ⟨(readTokens length tokens).clauses, body, some place⟩ := by
  fun_induction readTokens length tokens with
  | case1 => simp at reached
  | case2 token rest comma ih =>
      obtain ⟨sentence, rfl, listed⟩ := ih ended.tail reached
      obtain ⟨kind, text, offset⟩ := token
      simp only at comma
      subst comma
      refine ⟨sentence.push (.comma text offset), by simp [Phrase.tokens], ?_⟩
      rw [← listed, Sentence.list, Sentence.push, List.filterMap_cons_none rfl]
      rfl
  | case3 token rest comma terminal =>
      obtain ⟨others, rfl, closed⟩ := readBody_eq_ok_iff.1 reached
      have bounded := ended [] token _ rfl terminal
      obtain rfl : others = [] := by
        simp only [List.length_cons] at bounded
        exact List.length_eq_zero_iff.1 (by omega)
      refine ⟨⟨[], token.offset, body, place, closed⟩, ?_, rfl⟩
      rw [isKeyword_iff.1 terminal]
      rfl
  | case4 => simp at reached
  | case5 token rest comma terminal clause later clauseRead ih =>
      obtain ⟨phrase, written, stated⟩ := exists_phrase_of_readClause clauseRead
      have remaining : later <:+ token :: rest := ⟨phrase.tokens, written⟩
      obtain ⟨sentence, rfl, listed⟩ := ih (ended.of_suffix remaining) reached
      refine ⟨sentence.push phrase, by rw [Sentence.tokens_push, written], ?_⟩
      simp only [Sentence.list, CaptureList.mk.injEq] at listed
      simp [Sentence.list, Sentence.push, stated, Reading.push, listed]

theorem parse_eq_ok_iff {text : List Char} {list : CaptureList String} :
    parse text = .ok list ↔
      ∃ sentence : Sentence, sentence.tokens = Token.scan text ∧ sentence.list = list := by
  constructor
  · intro parsed
    simp only [parse, Reading.list, bind, Except.bind] at parsed
    split at parsed
    · simp at parsed
    next found reached =>
    obtain ⟨body, place⟩ := found
    obtain ⟨sentence, written, listed⟩ :=
      exists_sentence_of_readTokens (Token.scanFrom_terminated 0 text) reached
    exact ⟨sentence, written, listed.trans (Except.ok.inj parsed)⟩
  · rintro ⟨sentence, written, rfl⟩
    simp only [parse, read, ← written, readTokens_tokens]
    rfl

/-- Reading accepts exactly the tokens of sentences and returns the list that the sentence
describes.  Tokens are those of at most one sentence, and all other texts are refused. -/
theorem parse_accepts_sentences (text : List Char) :
    (∀ list, parse text = .ok list ↔
      ∃ sentence : Sentence, sentence.tokens = Token.scan text ∧ sentence.list = list) ∧
    Function.Injective Sentence.tokens ∧
    ((∃ error, parse text = .error error) ↔
      ¬ ∃ sentence : Sentence, sentence.tokens = Token.scan text) := by
  refine ⟨fun list => parse_eq_ok_iff, Sentence.tokens_injective, ?_⟩
  cases parsed : parse text with
  | error error =>
      simp only [Except.error.injEq, exists_eq', true_iff, not_exists]
      intro sentence written
      have accepted := parse_eq_ok_iff.2 ⟨sentence, written, rfl⟩
      simp [parsed] at accepted
  | ok list =>
      obtain ⟨sentence, written, _⟩ := parse_eq_ok_iff.1 parsed
      simp only [reduceCtorEq, exists_false, false_iff]
      exact fun refused => refused ⟨sentence, written⟩

end CaptureList

end ClosureCapture
