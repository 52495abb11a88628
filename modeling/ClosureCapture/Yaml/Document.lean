import ClosureCapture.Value.Text
import ClosureCapture.Yaml.Block

/-!
# Documents

A text holds one document. Directives can stand before it if a mark announces it; a mark that
ends it, and comments, can follow. The marks stand at the start of a line, and no node reaches
over one: the text is cut at them first.
-/

namespace ClosureCapture.Yaml

/-- The text up to the first mark of a document at the start of a line, and the text from it
on. -/
def takeSection (lineStart : Bool) : List Char → List Char × List Char
  | [] => ([], [])
  | first :: rest =>
      if lineStart && separatesDocuments (first :: rest) then ([], first :: rest)
      else
        let (content, after) := takeSection (isBreak first) rest
        (first :: content, after)

theorem takeSection_append (lineStart : Bool) (text : List Char) :
    (takeSection lineStart text).1 ++ (takeSection lineStart text).2 = text := by
  induction text generalizing lineStart with
  | nil => rfl
  | cons first rest ih =>
      simp only [takeSection]
      split
      · rfl
      · simp [ih]

/-- Whether a section holds no more than comments. -/
def isBlankSection (text : List Char) (column : Nat) : Bool :=
  (Cursor.mk text column).next.rest.isEmpty

/-- Whether the text from a mark on holds no more than marks of ends and comments. -/
def endsText (text : List Char) : Bool :=
  match text with
  | [] => true
  | _ :: _ :: _ :: rest =>
      endsDocument text &&
        match _cut : takeSection false rest with
        | (content, after) => isBlankSection content 3 && endsText after
  | _ => false
termination_by text.length
decreasing_by
  have whole := congrArg List.length (takeSection_append false rest)
  simp only [_cut, List.length_append] at whole
  simp only [List.length_cons]
  omega

/-- The handles that every document has. -/
def standardHandles : Handles :=
  [("!", "!"), ("!!", "tag:yaml.org,2002:")]

/-- A directive before a document. -/
inductive Directive where
  /-- The version of the format. -/
  | version (major : List Char)
  /-- A handle for tags. -/
  | handle (name start : String)
  /-- A directive without meaning here. -/
  | other

/-- Whether a directive's line ends after spaces and a comment. -/
def endsDirective (line : List Char) : Bool :=
  (line.dropWhile (· == ' ')).head?.all (· == '#')

/-- The digits of a part of a version, which must be there and not too many, and the text after
them. -/
def readVersionPart (text : List Char) : Except Fault (List Char × List Char) :=
  let digits := text.takeWhile Char.isDigit
  if digits.isEmpty then .error .malformed
  else if digitLimit < digits.length then .error .outOfRange
  else .ok (digits, text.dropWhile Char.isDigit)

/-- The version that makes up the value of a directive. -/
def readVersion (line : List Char) : Except Fault Directive := do
  let (major, afterMajor) ← readVersionPart line
  match afterMajor with
  | '.' :: rest =>
      let (_, after) ← readVersionPart rest
      if after.head?.all (· == ' ') && endsDirective after then return .version major
      else .error .malformed
  | _ => .error .malformed

/-- The handle after its first exclamation mark, and the text after it. -/
def readHandleName (text : List Char) : Except Fault (String × List Char) :=
  let name := text.takeWhile isNameCharacter
  match text.dropWhile isNameCharacter with
  | '!' :: after => .ok ("!" ++ String.ofList name ++ "!", after)
  | after => if name.isEmpty then .ok ("!", after) else .error .malformed

/-- The handle and the beginning of tags that make up the value of a directive. -/
def readHandle (line : List Char) : Except Fault Directive :=
  match line with
  | '!' :: rest => do
      let (handle, after) ← readHandleName rest
      if after.head? = some ' ' then
        let (start, last) ← readTagText (after.dropWhile (· == ' '))
        if last.head?.all (· == ' ') && endsDirective last then return .handle handle start
        else .error .malformed
      else .error .malformed
  | _ => .error .malformed

/-- The directive on a line, after its percent sign. -/
def readDirective (line : List Char) : Except Fault Directive :=
  let name := line.takeWhile isNameCharacter
  let after := line.dropWhile isNameCharacter
  let value := after.dropWhile (· == ' ')
  if name.isEmpty || !after.head?.all (· == ' ') then .error .malformed
  else if name = "YAML".toList then readVersion value
  else if name = "TAG".toList then readHandle value
  else .ok .other

/-- Whether a directive may come after others. The version may be given once, and only the first
major one is known; a handle may be given once. -/
def Directive.mayFollow (earlier : List Directive) : Directive → Bool
  | .version major =>
      Text.readDigits 10 major == 1 && earlier.all fun
        | .version _ => false
        | _ => true
  | .handle name _ =>
      earlier.all fun
        | .handle given _ => given != name
        | _ => true
  | .other => true

/-- The directives that stand at the start of lines, among comments only, after earlier ones. -/
def readDirectives (earlier : List Directive) :
    (lines : Nat) → Cursor → Except Fault (List Directive)
  | 0, _ => .error .malformed
  | lines + 1, cursor =>
      match cursor.next with
      | ⟨[], _⟩ => .ok []
      | ⟨first :: rest, column⟩ =>
          if first = '%' ∧ column = 0 then do
            let directive ← readDirective (rest.takeWhile (!isBreak ·))
            if directive.mayFollow earlier then
              let others ← readDirectives (directive :: earlier) lines
                ⟨rest.dropWhile (!isBreak ·), 1⟩
              return directive :: others
            else .error .malformed
          else .error .malformed

/-- The handles given by directives, before those that every document has. -/
def handlesOf (directives : List Directive) : Handles :=
  let given := directives.filterMap fun
    | .handle name start => some (name, start)
    | _ => none
  given ++ standardHandles

/-- The root of the document in a text with the handles that hold in it; nothing when there is
no document. -/
def readDocument (text : List Char) : Except Fault (Option (Handles × Node)) := do
  let (front, marked) := takeSection true text
  let start := (Cursor.mk front 0).next
  if start.rest.isEmpty || (start.column = 0 && start.rest.head? = some '%') then
    let directives ← readDirectives [] (front.length + 1) ⟨front, 0⟩
    if marked.isEmpty && directives.isEmpty then return none
    else if startsDocument marked then
      let (content, after) := takeSection false (marked.drop 3)
      let node ← readWhole ⟨content, 3⟩
      if endsText after then return some (handlesOf directives, node) else .error .malformed
    else .error .malformed
  else
    let node ← readWhole ⟨front, 0⟩
    if endsText marked then return some (standardHandles, node) else .error .malformed

end ClosureCapture.Yaml
