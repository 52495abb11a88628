import ClosureCapture.Text.Hexadecimal
import ClosureCapture.Text.Utf8
import ClosureCapture.Yaml.Cursor
import ClosureCapture.Yaml.Fault

/-!
# Properties of nodes

A node can be given an anchor, by which it can be repeated, and a tag, which says what it is. A
tag is written out between angles or abbreviated by a handle.
-/

namespace ClosureCapture.Yaml

/-- The tag of a node as written. -/
inductive Tag where
  | verbatim (name : String)
  | shorthand (handle suffix : String)
  deriving DecidableEq, Repr

/-- The beginnings of tags by their handles. -/
abbrev Handles := List (String × String)

/-- The full name of a tag. -/
def Tag.name (handles : Handles) : Tag → Except Fault String
  | .verbatim name => .ok name
  | .shorthand handle suffix =>
      match handles.lookup handle with
      | some start => .ok (start ++ suffix)
      | none => .error .malformed

/-- The tag that leaves the kind of a node open. -/
def Tag.open : Tag :=
  .verbatim "!"

/-- The properties written before a node. -/
structure Properties where
  anchor : Option String := none
  tag : Option Tag := none
  deriving DecidableEq, Repr

/-- Whether no property is given. -/
def Properties.isEmpty (properties : Properties) : Bool :=
  properties.anchor.isNone && properties.tag.isNone

/-- Both of two groups of properties; none may be given twice. -/
def Properties.merge (first second : Properties) : Except Fault Properties :=
  if (first.anchor.isSome && second.anchor.isSome) || (first.tag.isSome && second.tag.isSome) then
    .error .malformed
  else .ok ⟨first.anchor.or second.anchor, first.tag.or second.tag⟩

/-- A tag must not be abbreviated by an unknown handle. -/
def Properties.checkHandle (handles : Handles) (properties : Properties) : Except Fault Unit :=
  match properties.tag with
  | none => .ok ()
  | some tag => (tag.name handles).map fun _ => ()

/-- Whether a character may stand in the name of an anchor or a handle. -/
def isNameCharacter (character : Char) : Bool :=
  character.isAlphanum || character == '-' || character == '_'

/-- The characters besides a gap that may follow the name of an anchor. -/
def anchorEnds : List Char :=
  ['?', ':', ',', ']', '\x7d', '%', '@', '\x60']

/-- The name of an anchor, and the text after it. -/
def readAnchor (text : List Char) : Except Fault (String × List Char) :=
  let name := text.takeWhile isNameCharacter
  let after := text.dropWhile isNameCharacter
  if !name.isEmpty && (startsWithGap after || after.head?.any anchorEnds.contains) then
    .ok (String.ofList name, after)
  else .error .malformed

/-- Whether a character stands for itself in a tag. -/
def isTagCharacter (character : Char) : Bool :=
  character.isAlphanum || "-;/?:@&=+$,_.!~*'()[]".contains character

/-- The bytes of the tag characters and byte escapes at the start of a text, and what follows
them. -/
def takeTagBytes : List Char → List UInt8 × List Char
  | [] => ([], [])
  | '%' :: high :: low :: rest =>
      match Text.readHex? [high, low] with
      | some code =>
          let (bytes, after) := takeTagBytes rest
          (UInt8.ofNat code :: bytes, after)
      | none => ([], '%' :: high :: low :: rest)
  | first :: rest =>
      if isTagCharacter first then
        let (bytes, after) := takeTagBytes rest
        (UInt8.ofNat first.toNat :: bytes, after)
      else ([], first :: rest)

/-- The tag text at the start of a text, which must not be empty, and what follows it. -/
def readTagText (text : List Char) : Except Fault (String × List Char) :=
  match takeTagBytes text with
  | ([], _) => .error .malformed
  | (bytes, after) =>
      match Text.decodeUtf8 bytes with
      | .ok characters => .ok (String.ofList characters, after)
      | .error _ => .error .malformed

/-- The tag after its exclamation mark, before what must follow it is checked. -/
def readOpenTag (text : List Char) : Except Fault (Tag × List Char) :=
  match text with
  | '<' :: rest => do
      match ← readTagText rest with
      | (name, '>' :: after) => return (.verbatim name, after)
      | _ => .error .malformed
  | _ =>
      if startsWithGap text then .ok (Tag.open, text)
      else if (text.takeWhile fun next => next != ' ' && !isBreak next).contains '!' then
        match text.dropWhile isNameCharacter with
        | '!' :: rest => do
            let (suffix, after) ← readTagText rest
            let name := String.ofList (text.takeWhile isNameCharacter)
            return (.shorthand ("!" ++ name ++ "!") suffix, after)
        | _ => .error .malformed
      else do
        let (suffix, after) ← readTagText text
        return (.shorthand "!" suffix, after)

/-- The tag after its exclamation mark, and the text after it: a space or the end of the
line. -/
def readTag (text : List Char) : Except Fault (Tag × List Char) := do
  let (tag, after) ← readOpenTag text
  if after.head?.all fun next => next == ' ' || isBreak next then return (tag, after)
  else .error .malformed

/-- The property at a place, if one is there, and the place after it. -/
def readProperty (cursor : Cursor) : Except Fault (Option (Properties × Cursor)) :=
  match cursor.rest with
  | '&' :: rest => do
      let (name, after) ← readAnchor rest
      return some (⟨some name, none⟩, cursor.advance after)
  | '!' :: rest => do
      let (tag, after) ← readTag rest
      return some (⟨none, some tag⟩, cursor.advance after)
  | _ => .ok none

/-- The properties at a place, at most one of each, and the place after them. Inside brackets
they may stand on different lines. -/
def readProperties (inFlow : Bool) (cursor : Cursor) : Except Fault (Properties × Cursor) := do
  match ← readProperty cursor with
  | none => return ({}, cursor)
  | some (first, after) =>
      match ← readProperty (if inFlow then after.next else after.skipSpaces) with
      | none => return (first, after)
      | some (second, last) => return (← first.merge second, last)

end ClosureCapture.Yaml
