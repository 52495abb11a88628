import ClosureCapture.Clause
import ClosureCapture.Diagnostic
import ClosureCapture.Event
import ClosureCapture.Token

/-!
# Reading capture lists

A capture list is any sequence of commas and clauses, then `in` and a body:

* `move IDENT`, `ref mut IDENT`, `ref IDENT`, and `METHOD IDENT` are the clauses;
* `ref mut` is tried before `ref`, and keywords are never identifiers;
* the body is kept as written and must not end in a comma.

A reading keeps the clauses seen before it stopped, whether or not it reached a body.
-/

namespace ClosureCapture

/-- Why a text is no capture list. -/
inductive GrammarFault where
  | missingTerminal
  | expectedIdentifier (after : String) (found : Option String)
  | expectedBody
  | trailingComma
  | unexpectedToken (text : String)
  deriving DecidableEq, Repr

/-- The wording of a fault. -/
def GrammarFault.message : GrammarFault → String
  | .missingTerminal => "Missing terminal 'in <expression>'"
  | .expectedIdentifier after none => s!"Expected identifier after '{after}', got end of input"
  | .expectedIdentifier after (some text) =>
      s!"Expected identifier after '{after}', got '{text}'"
  | .expectedBody => "Expected expression after 'in'"
  | .trailingComma => "Unexpected tokens after body expression"
  | .unexpectedToken text => s!"Unexpected token: '{text}'"

/-- A fault and the offset it is reported at. -/
structure GrammarError where
  fault : GrammarFault
  offset : Nat
  deriving DecidableEq, Repr

/-- The report of a grammar error. -/
def GrammarError.diagnostic (error : GrammarError) : Diagnostic :=
  ⟨error.fault.message, some error.offset⟩

namespace CaptureList

/-- The identifier that must come next, and the tokens after it. -/
def expectIdentifier (length : Nat) (after : String) :
    List Token → Except GrammarError (String × List Token)
  | [] => .error ⟨.expectedIdentifier after none, length⟩
  | token :: rest =>
      if token.kind = .identifier then .ok (token.text, rest)
      else .error ⟨.expectedIdentifier after (some token.text), token.offset⟩

/-- The tokens after the words that announce a clause, with the mode and the words that were
read. -/
def readMode (token : Token) (rest : List Token) :
    Except GrammarError (Mode String × String × List Token) :=
  if token.isKeyword "move" then .ok (.move, "move", rest)
  else if token.isKeyword "ref" then
    match rest with
    | next :: later =>
        if next.isKeyword "mut" then .ok (.refMut, "ref mut", later) else .ok (.ref, "ref", rest)
    | [] => .ok (.ref, "ref", rest)
  else if token.kind = .identifier then .ok (.method token.text, token.text, rest)
  else .error ⟨.unexpectedToken token.text, token.offset⟩

/-- The clause that starts with a token, and the tokens after it. -/
def readClause (length : Nat) (token : Token) (rest : List Token) :
    Except GrammarError (Clause String × List Token) := do
  let (mode, words, later) ← readMode token rest
  let (identifier, after) ← expectIdentifier length words later
  return (⟨mode, identifier, some token.offset⟩, after)

/-- The body after `in`, with its offset. -/
def readBody (start : Token) : List Token → Except GrammarError (String × Nat)
  | [] => .error ⟨.expectedBody, start.offset⟩
  | token :: _ =>
      if token.kind ≠ .body then .error ⟨.expectedBody, start.offset⟩
      else if token.text.toList.getLast? = some ',' then
        .error ⟨.trailingComma, token.offset + token.text.length - 1⟩
      else .ok (token.text, token.offset)

theorem expectIdentifier_length_lt {length : Nat} {after : String} {tokens : List Token}
    {result : String × List Token}
    (read : expectIdentifier length after tokens = .ok result) :
    result.2.length < tokens.length := by
  unfold expectIdentifier at read
  split at read
  · simp at read
  · split at read
    · obtain rfl := Except.ok.inj read
      simp
    · simp at read

theorem readMode_length_le {token : Token} {tokens : List Token}
    {result : Mode String × String × List Token}
    (read : readMode token tokens = .ok result) :
    result.2.2.length ≤ tokens.length := by
  unfold readMode at read
  repeat' split at read
  all_goals
    first
      | (obtain rfl := Except.ok.inj read; simp)
      | simp at read

theorem readClause_length_lt {length : Nat} {token : Token} {tokens : List Token}
    {result : Clause String × List Token}
    (read : readClause length token tokens = .ok result) :
    result.2.length < tokens.length := by
  simp only [readClause, bind, Except.bind] at read
  split at read
  · simp at read
  · next announced modeRead =>
      split at read
      · simp at read
      · next identifier identifierRead =>
          obtain rfl := Except.ok.inj read
          have first := readMode_length_le modeRead
          have second := expectIdentifier_length_lt identifierRead
          exact Nat.lt_of_lt_of_le second first

/-- The clauses of a list as far as they could be read, and how the reading ended. -/
structure Reading where
  clauses : List (Clause String)
  ending : Except GrammarError (String × Nat)

/-- A reading with one more clause in front. -/
def Reading.push (clause : Clause String) (reading : Reading) : Reading :=
  { reading with clauses := clause :: reading.clauses }

/-- Read the tokens of a text of the given length. -/
def readTokens (length : Nat) (tokens : List Token) : Reading :=
  match tokens with
  | [] => ⟨[], .error ⟨.missingTerminal, length⟩⟩
  | token :: rest =>
      if token.kind = .comma then readTokens length rest
      else if token.isKeyword "in" then ⟨[], readBody token rest⟩
      else
        match _clauseRead : readClause length token rest with
        | .error error => ⟨[], .error error⟩
        | .ok (clause, later) => (readTokens length later).push clause
termination_by tokens.length
decreasing_by
  · simp
  · have shorter := readClause_length_lt _clauseRead
    simp only [List.length_cons] at shorter ⊢
    omega

/-- Read a text as far as possible. -/
def read (text : List Char) : Reading :=
  readTokens text.length (Token.scan text)

/-- The capture list of a reading that reached a body. -/
def Reading.list (reading : Reading) : Except GrammarError (CaptureList String) := do
  let (body, offset) ← reading.ending
  return ⟨reading.clauses, body, some offset⟩

/-- The events of a reading: one for each clause, and one for the whole list. -/
def Reading.events (reading : Reading) : List Event :=
  let matched := reading.clauses.map fun clause =>
    Event.clauseMatched clause.mode.label clause.identifier
  match reading.ending with
  | .ok _ => matched ++ [.listParsed reading.clauses.length]
  | .error _ => matched

/-- The capture list written by a text. -/
def parse (text : List Char) : Except GrammarError (CaptureList String) :=
  (read text).list

end CaptureList

end ClosureCapture
