import ClosureCapture.Yaml.Reader

/-!
# Faults of the text of a document

The text of a document has a tree unless it breaks the rules of the format or names a character or
a version that does not exist.  No other fault comes from reading the text: the induction follows
the fuel of the readers, first inside brackets and then outside.
-/

namespace ClosureCapture.Yaml

variable {First Second : Type}

/-- An outcome without a fault other than those of a text: it breaks the rules of the format, or
names a thing that does not exist. -/
def Textual (outcome : Except Fault First) : Prop :=
  ∀ fault, outcome = .error fault → fault = .malformed ∨ fault = .outOfRange

@[simp]
theorem textual_ok (result : First) : Textual (.ok result) := by
  simp [Textual]

@[simp]
theorem textual_pure (result : First) : Textual (pure result) :=
  textual_ok result

@[simp]
theorem textual_malformed : Textual (.error .malformed : Except Fault First) := by
  simp [Textual]

@[simp]
theorem textual_outOfRange : Textual (.error .outOfRange : Except Fault First) := by
  simp [Textual]

theorem Textual.bind {outcome : Except Fault First} {next : First → Except Fault Second}
    (textual : Textual outcome) (later : ∀ result, Textual (next result)) :
    Textual (outcome >>= next) := by
  cases outcome with
  | ok result => exact later result
  | error fault =>
      rintro other failed
      obtain rfl := Except.error.inj failed
      exact textual fault rfl

theorem Textual.map {outcome : Except Fault First} (textual : Textual outcome)
    (change : First → Second) : Textual (outcome.map change) := by
  cases outcome with
  | ok result => exact textual_ok _
  | error fault => simpa [Textual, Except.map] using textual fault rfl

theorem textual_merge (first second : Properties) : Textual (first.merge second) := by
  rw [Properties.merge]
  split <;> simp

theorem textual_readAnchor (text : List Char) : Textual (readAnchor text) := by
  dsimp only [readAnchor]
  split <;> simp

theorem textual_readTagText (text : List Char) : Textual (readTagText text) := by
  rw [readTagText]
  split
  · simp
  · split <;> simp

theorem textual_readOpenTag (text : List Char) : Textual (readOpenTag text) := by
  unfold readOpenTag
  split
  · refine (textual_readTagText _).bind fun found => ?_
    split <;> simp
  · split
    · simp
    · split
      · split
        · exact (textual_readTagText _).bind fun found => textual_pure _
        · simp
      · exact (textual_readTagText _).bind fun found => textual_pure _

theorem textual_readTag (text : List Char) : Textual (readTag text) := by
  refine (textual_readOpenTag text).bind fun found => ?_
  dsimp only
  split <;> simp

theorem textual_readProperty (cursor : Cursor) : Textual (readProperty cursor) := by
  unfold readProperty
  split
  · exact (textual_readAnchor _).bind fun found => textual_pure _
  · exact (textual_readTag _).bind fun found => textual_pure _
  · simp

theorem textual_readProperties (inFlow : Bool) (cursor : Cursor) :
    Textual (readProperties inFlow cursor) := by
  refine (textual_readProperty cursor).bind fun found => ?_
  split
  · simp
  · refine (textual_readProperty _).bind fun other => ?_
    split
    · simp
    · exact (textual_merge _ _).bind fun merged => textual_pure _

theorem textual_addProperties (more : Properties) (node : Node) :
    Textual (node.addProperties more) := by
  cases node with
  | scalar | sequence | mapping => exact (textual_merge _ _).bind fun merged => textual_pure _
  | reference => rw [Node.addProperties]; split <;> simp

theorem textual_readEscape (text : List Char) : Textual (readEscape text) := by
  unfold readEscape
  split
  · simp
  · split
    · simp
    · split
      · refine Textual.map ?_ _
        rw [characterOf]
        split
        · simp
        · split <;> simp
      · simp
    · split <;> simp

theorem textual_readQuoted (double : Bool) (text : List Char) :
    Textual (readQuoted double text) := by
  fun_induction readQuoted double text with
  | case4 first rest noQuote backslash fault failed =>
      have textual := textual_readEscape rest
      rwa [failed] at textual
  | case2 | case5 | case7 | case8 | case10 =>
      rename_i ih
      exact ih.bind fun found => textual_pure _
  | case1 | case3 | case6 | case9 => simp

theorem textual_readBlockHeader (text : List Char) : Textual (readBlockHeader text) := by
  have digit : ∀ rest, Textual (takeIndentation rest) := by
    intro rest
    unfold takeIndentation
    split
    · simp
    · split
      · simp
      · split <;> simp
  unfold readBlockHeader
  refine (digit _).bind fun found => ?_
  dsimp only
  repeat' split
  all_goals simp

theorem textual_readBlockContent (floor : Nat) (properties : Properties) (cursor : Cursor) :
    Textual (readBlockContent floor properties cursor) := by
  refine Textual.bind ?_ fun found => textual_pure _
  refine (textual_readBlockHeader _).bind fun found => ?_
  dsimp only
  repeat' split
  all_goals simp

/-- With some fuel, nothing inside brackets has another fault. -/
structure FlowTextual (fuel : Nat) : Prop where
  content : ∀ inFlow floor properties cursor,
    Textual (readContent inFlow floor properties fuel cursor)
  node : ∀ cursor, Textual (readFlowNode fuel cursor)
  value : ∀ cursor, Textual (readFlowValue fuel cursor)
  member : ∀ cursor, Textual (readMember fuel cursor)
  items : ∀ cursor, Textual (readItems fuel cursor)
  entries : ∀ cursor, Textual (readEntries fuel cursor)

namespace FlowTextual

variable {fuel : Nat} (textual : FlowTextual fuel)

include textual

theorem content_succ (inFlow : Bool) (floor : Nat) (properties : Properties) (cursor : Cursor) :
    Textual (readContent inFlow floor properties (fuel + 1) cursor) := by
  unfold readContent
  split
  · refine (textual_readAnchor _).bind fun found => ?_
    exact (textual_addProperties _ _).bind fun node => textual_pure _
  · exact (textual_readQuoted _ _).bind fun found => textual_pure _
  · exact (textual_readQuoted _ _).bind fun found => textual_pure _
  · exact (textual.items _).bind fun found => textual_pure _
  · exact (textual.entries _).bind fun found => textual_pure _
  · split
    · simp
    · split <;> simp

theorem value_succ (cursor : Cursor) : Textual (readFlowValue (fuel + 1) cursor) := by
  unfold readFlowValue
  split
  · simp
  · exact textual.node _

theorem member_succ (cursor : Cursor) : Textual (readMember (fuel + 1) cursor) := by
  unfold readMember
  split
  · dsimp only
    split
    · refine (textual_ok _).bind fun found => ?_
      split
      · exact (textual.value _).bind fun value => textual_pure _
      · simp
    · refine (textual.value _).bind fun found => ?_
      split
      · exact (textual.value _).bind fun value => textual_pure _
      · simp
  · refine (textual.node _).bind fun found => ?_
    dsimp only
    split
    · split
      · exact (textual.value _).bind fun value => textual_pure _
      · simp
    · simp

theorem items_succ (cursor : Cursor) : Textual (readItems (fuel + 1) cursor) := by
  unfold readItems
  split
  · simp
  · refine (textual.member _).bind fun found => ?_
    dsimp only
    split
    · exact (textual.items _).bind fun items => textual_pure _
    · simp
    · simp

theorem entries_succ (cursor : Cursor) : Textual (readEntries (fuel + 1) cursor) := by
  unfold readEntries
  split
  · simp
  · refine (textual.member _).bind fun found => ?_
    dsimp only
    split
    · exact (textual.entries _).bind fun entries => textual_pure _
    · simp
    · simp

end FlowTextual

theorem flowTextual (fuel : Nat) : FlowTextual fuel := by
  induction fuel with
  | zero =>
      constructor <;>
        simp [readContent, readFlowNode, readFlowValue, readMember, readItems, readEntries]
  | succ fuel ih =>
      refine ⟨ih.content_succ, fun cursor => ?_, ih.value_succ, ih.member_succ, ih.items_succ,
        ih.entries_succ⟩
      exact (textual_readProperties _ _).bind fun found => ih.content _ _ _ _

theorem textual_readKey? (fuel : Nat) (cursor : Cursor) : Textual (readKey? fuel cursor) := by
  refine (textual_readProperties _ _).bind fun found => ?_
  exact ((flowTextual fuel).content _ _ _ _).bind fun key => textual_pure _

/-- With some fuel, nothing outside brackets has another fault. -/
structure BlockTextual (fuel : Nat) : Prop where
  node : ∀ floor beside fresh properties cursor,
    Textual (readNode floor beside fresh properties fuel cursor)
  items : ∀ column cursor, Textual (readBlockItems column fuel cursor)
  entries : ∀ column cursor, Textual (readBlockEntries column fuel cursor)
  entry : ∀ column cursor, Textual (readBlockEntry column fuel cursor)

namespace BlockTextual

variable {fuel : Nat} (textual : BlockTextual fuel)

include textual

theorem sequence (properties : Properties) (column : Nat) (cursor : Cursor) :
    Textual (do
      let (items, after) ← readBlockItems column fuel cursor
      return (Node.sequence properties items, after)) :=
  (textual.items column cursor).bind fun _ => textual_pure _

theorem mapping (properties : Properties) (column : Nat) (cursor : Cursor) :
    Textual (do
      let (entries, after) ← readBlockEntries column fuel cursor
      return (Node.mapping properties entries, after)) :=
  (textual.entries column cursor).bind fun _ => textual_pure _

theorem node_succ (floor : Nat) (beside fresh : Bool) (properties : Properties)
    (cursor : Cursor) : Textual (readNode floor beside fresh properties (fuel + 1) cursor) := by
  rw [readNode]
  dsimp only
  split
  · simp
  · split
    · split
      · exact textual.sequence _ _ _
      · split
        · exact textual_readBlockContent _ _ _
        · simp
    · split
      · split
        · exact textual.sequence _ _ _
        · simp
      · split
        · split
          · exact textual.mapping _ _ _
          · simp
        · split
          · exact textual_readBlockContent _ _ _
          · refine (textual_readProperties _ _).bind fun own => ?_
            split
            · exact (textual_merge _ _).bind fun merged => textual.node _ _ _ _ _
            · split
              · exact (textual_merge _ _).bind fun merged => textual_readBlockContent _ _ _
              · refine (textual_readKey? fuel _).bind fun key => ?_
                split
                · exact textual.mapping _ _ _
                · refine ((flowTextual fuel).content _ _ _ _).bind fun found => ?_
                  exact (textual_addProperties _ _).bind fun node => textual_pure _

theorem items_succ (column : Nat) (cursor : Cursor) :
    Textual (readBlockItems column (fuel + 1) cursor) := by
  rw [readBlockItems]
  refine (textual.node _ _ _ _ _).bind fun item => ?_
  dsimp only
  split
  · exact (textual.items _ _).bind fun items => textual_pure _
  · simp

theorem entries_succ (column : Nat) (cursor : Cursor) :
    Textual (readBlockEntries column (fuel + 1) cursor) := by
  rw [readBlockEntries]
  refine (textual.entry _ _).bind fun entry => ?_
  dsimp only
  split
  · simp
  · split
    · exact (textual.entries _ _).bind fun entries => textual_pure _
    · simp

theorem entry_succ (column : Nat) (cursor : Cursor) :
    Textual (readBlockEntry column (fuel + 1) cursor) := by
  rw [readBlockEntry]
  split
  · refine (textual.node _ _ _ _ _).bind fun key => ?_
    dsimp only
    split
    · exact (textual.node _ _ _ _ _).bind fun value => textual_pure _
    · simp
  · refine (textual_readKey? fuel _).bind fun key => ?_
    split
    · exact (textual.node _ _ _ _ _).bind fun value => textual_pure _
    · simp

end BlockTextual

theorem blockTextual (fuel : Nat) : BlockTextual fuel := by
  induction fuel with
  | zero => constructor <;> simp [readNode, readBlockItems, readBlockEntries, readBlockEntry]
  | succ fuel ih => exact ⟨ih.node_succ, ih.items_succ, ih.entries_succ, ih.entry_succ⟩

theorem textual_readWhole (cursor : Cursor) : Textual (readWhole cursor) := by
  refine ((blockTextual _).node _ _ _ _ _).bind fun found => ?_
  dsimp only
  split <;> simp

theorem textual_readVersionPart (text : List Char) : Textual (readVersionPart text) := by
  dsimp only [readVersionPart]
  split
  · simp
  · split <;> simp

theorem textual_readVersion (line : List Char) : Textual (readVersion line) := by
  refine (textual_readVersionPart _).bind fun major => ?_
  dsimp only
  split
  · refine (textual_readVersionPart _).bind fun minor => ?_
    split <;> simp
  · simp

theorem textual_readHandleName (text : List Char) : Textual (readHandleName text) := by
  dsimp only [readHandleName]
  split
  · simp
  · split <;> simp

theorem textual_readHandle (line : List Char) : Textual (readHandle line) := by
  unfold readHandle
  split
  · refine (textual_readHandleName _).bind fun handle => ?_
    dsimp only
    split
    · refine (textual_readTagText _).bind fun start => ?_
      split <;> simp
    · simp
  · simp

theorem textual_readDirective (line : List Char) : Textual (readDirective line) := by
  dsimp only [readDirective]
  split
  · simp
  · split
    · exact textual_readVersion _
    · split
      · exact textual_readHandle _
      · simp

theorem textual_readDirectives (earlier : List Directive) (lines : Nat) (cursor : Cursor) :
    Textual (readDirectives earlier lines cursor) := by
  induction lines generalizing earlier cursor with
  | zero => simp [readDirectives]
  | succ lines ih =>
      unfold readDirectives
      split
      · simp
      · split
        · refine (textual_readDirective _).bind fun directive => ?_
          split
          · exact (ih _ _).bind fun others => textual_pure _
          · simp
        · simp

theorem textual_readDocument (text : List Char) : Textual (readDocument text) := by
  unfold readDocument
  dsimp only
  split
  · refine (textual_readDirectives _ _ _).bind fun directives => ?_
    split
    · simp
    · split
      · refine (textual_readWhole _).bind fun node => ?_
        split <;> simp
      · simp
  · refine (textual_readWhole _).bind fun node => ?_
    split <;> simp

theorem textual_name (handles : Handles) (tag : Tag) : Textual (tag.name handles) := by
  cases tag with
  | verbatim => simp [Tag.name]
  | shorthand =>
      rw [Tag.name]
      split <;> simp

theorem textual_checkHandle (handles : Handles) (properties : Properties) :
    Textual (properties.checkHandle handles) := by
  rw [Properties.checkHandle]
  split
  · simp
  · exact (textual_name _ _).map _

theorem textual_add (anchors : Anchors) (properties : Properties) (node : Node) :
    Textual (anchors.add properties node) := by
  rw [Anchors.add]
  split
  · simp
  · split <;> simp

mutual
theorem textual_resolve (handles : Handles) (anchors : Anchors) (node : Node) :
    Textual (node.resolve handles anchors) := by
  cases node with
  | scalar properties plain text =>
      refine (textual_checkHandle _ _).bind fun _ => ?_
      exact (textual_add _ _ _).bind fun _ => textual_pure _
  | sequence properties items =>
      rw [Node.resolve]
      refine (textual_checkHandle _ _).bind fun _ => ?_
      refine (textual_resolveItems _ _ items).bind fun _ => ?_
      exact (textual_add _ _ _).bind fun _ => textual_pure _
  | mapping properties entries =>
      rw [Node.resolve]
      refine (textual_checkHandle _ _).bind fun _ => ?_
      refine (textual_resolveEntries _ _ entries).bind fun _ => ?_
      exact (textual_add _ _ _).bind fun _ => textual_pure _
  | reference anchor =>
      rw [Node.resolve]
      split <;> simp

theorem textual_resolveItems (handles : Handles) (anchors : Anchors) (items : List Node) :
    Textual (resolveItems handles anchors items) := by
  cases items with
  | nil => simp [resolveItems]
  | cons item items =>
      rw [resolveItems]
      refine (textual_resolve _ _ item).bind fun _ => ?_
      exact (textual_resolveItems _ _ items).bind fun _ => textual_pure _

theorem textual_resolveEntries (handles : Handles) (anchors : Anchors)
    (entries : List (Node × Node)) : Textual (resolveEntries handles anchors entries) := by
  cases entries with
  | nil => simp [resolveEntries]
  | cons entry entries =>
      obtain ⟨key, value⟩ := entry
      rw [resolveEntries]
      refine (textual_resolve _ _ key).bind fun _ => ?_
      refine (textual_resolve _ _ value).bind fun _ => ?_
      exact (textual_resolveEntries _ _ entries).bind fun _ => textual_pure _
end

end ClosureCapture.Yaml
