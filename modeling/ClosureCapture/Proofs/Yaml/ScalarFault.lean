import ClosureCapture.Proofs.Result.Chaining
import ClosureCapture.Proofs.Yaml.Float
import ClosureCapture.Proofs.Yaml.TextFault

/-!
# Where documents without a value come from

A well-formed document has no value if a scalar in its tree has none.  Without a tag this is a
number or a date that does not exist.  All the other faults need a scalar that is tagged as what it
is not.
-/

namespace ClosureCapture.Yaml

variable {First Second : Type} {handles : Handles}

/-! ### Scalars without a tag -/

/-- How the scalars of a kind are spelled that have no tag. -/
def Kind.Spells : Kind → List Char → Prop
  | .null, text => nullWords.contains text = true
  | .bool, text => isTruthWord text = true
  | .int, text => isInteger text = true
  | .float, text => isFloat text = true
  | .moment, text => isTimestamp text = true
  | .mergeKey, text => text = ['<', '<']
  | .defaultKey, text => text = ['=']
  | .string, _ => True
  | .binary, _ => False

theorem spells_kindOf (text : List Char) : (kindOf text).Spells text := by
  unfold kindOf
  repeat' split
  all_goals first | assumption | trivial

/-- A scalar without quotes and without a tag that has no value: a key with a role, a number with
too many digits or none, or a date or a moment that does not exist. -/
inductive Worthless : List Char → Fault → Prop
  | mergeKey : Worthless ['<', '<'] .malformed
  | defaultKey : Worthless ['='] .malformed
  | integer {text : List Char} : kindOf text = .int → Unreadable (splitSign text).2 →
      Worthless text .outOfRange
  | float {text : List Char} : kindOf text = .float → sixtiethLimit < (splitColons text).length →
      Worthless text .outOfRange
  | date {text : List Char} {date : Date} : kindOf text = .moment →
      takeDate text = some (date, []) → date.exists = false → Worthless text .outOfRange
  | moment {text rest : List Char} {date : Date} {moment : Moment} : kindOf text = .moment →
      takeDate text = some (date, rest) → readTime? date rest = some moment →
      moment.exists = false → Worthless text .outOfRange

theorem worthless_of_readTimestamp {text : List Char} {fault : Fault}
    (kind : kindOf text = .moment) (failed : readTimestamp text = .error fault) :
    Worthless text fault := by
  have spelled : isTimestamp text = true := by
    simpa only [kind, Kind.Spells] using spells_kindOf text
  unfold isTimestamp at spelled
  unfold readTimestamp at failed
  split at failed
  · next undated => simp [undated] at spelled
  · next date dated =>
      split at failed
      · cases failed
      · next missing =>
          obtain rfl := Except.error.inj failed
          exact .date kind dated (by simpa using missing)
  · next date rest nonempty dated =>
      rw [dated] at spelled
      have timed : (readTime? date rest).isSome = true := by
        cases rest with
        | nil => exact absurd rfl nonempty
        | cons => simpa using spelled
      split at failed
      · next untimed => simp [untimed] at timed
      · next moment found =>
          split at failed
          · cases failed
          · next missing =>
              obtain rfl := Except.error.inj failed
              exact .moment kind dated found (by simpa using missing)

theorem worthless_of_read {text : List Char} {fault : Fault}
    (failed : (kindOf text).read text = .error fault) : Worthless text fault := by
  have spelled := spells_kindOf text
  cases kind : kindOf text with
  | null | string => simp [kind, Kind.read] at failed
  | binary => simp [kind, Kind.Spells] at spelled
  | bool =>
      rw [kind] at failed spelled
      have known := (Bool.and_eq_true_iff.1 spelled).1
      obtain ⟨value, found⟩ := Option.isSome_iff_exists.1 known
      simp [Kind.read, found] at failed
  | int =>
      rw [kind] at failed spelled
      have unread := map_eq_error_iff.1 failed
      obtain ⟨rfl, unreadable⟩ := (readInteger_eq_error_iff spelled).1 unread
      exact .integer kind unreadable
  | float =>
      rw [kind] at failed spelled
      have unread := map_eq_error_iff.1 failed
      obtain ⟨rfl, long⟩ := (readFloat_eq_error_iff spelled).1 unread
      exact .float kind long
  | moment =>
      rw [kind] at failed
      exact worthless_of_readTimestamp kind failed
  | mergeKey =>
      rw [kind] at failed spelled
      obtain rfl := Except.error.inj failed
      exact spelled ▸ .mergeKey
  | defaultKey =>
      rw [kind] at failed spelled
      obtain rfl := Except.error.inj failed
      exact spelled ▸ .defaultKey

theorem Worthless.read {text : List Char} {fault : Fault} (worthless : Worthless text fault) :
    (kindOf text).read text = .error fault := by
  have spelled := spells_kindOf text
  cases worthless with
  | mergeKey | defaultKey => rfl
  | integer kind unreadable =>
      rw [kind] at spelled ⊢
      exact map_eq_error_iff.2 ((readInteger_eq_error_iff spelled).2 ⟨rfl, unreadable⟩)
  | float kind long =>
      rw [kind] at spelled ⊢
      exact map_eq_error_iff.2 ((readFloat_eq_error_iff spelled).2 ⟨rfl, long⟩)
  | date kind dated missing => simp [kind, Kind.read, readTimestamp, dated, missing]
  | @moment _ rest _ _ kind dated timed missing =>
      rw [kind]
      cases rest with
      | nil => cases timed
      | cons => simp [Kind.read, readTimestamp, dated, timed, missing]

/-- A scalar without quotes and without a tag is read as what it is spelled as, unless it is one of
those without a value. -/
theorem kindOf_read_eq_error_iff {text : List Char} {fault : Fault} :
    (kindOf text).read text = .error fault ↔ Worthless text fault :=
  ⟨worthless_of_read, Worthless.read⟩

/-! ### Nodes -/

/-- A node inside another, or that node itself. -/
inductive Node.Within : Node → Node → Prop
  | self (node : Node) : Within node node
  | item {inner item : Node} {properties : Properties} {items : List Node} :
      item ∈ items → Within inner item → Within inner (.sequence properties items)
  | key {inner : Node} {entry : Node × Node} {properties : Properties}
      {entries : List (Node × Node)} :
      entry ∈ entries → Within inner entry.1 → Within inner (.mapping properties entries)
  | value {inner : Node} {entry : Node × Node} {properties : Properties}
      {entries : List (Node × Node)} :
      entry ∈ entries → Within inner entry.2 → Within inner (.mapping properties entries)

/-- A node that stands for a scalar of a kind, but has no such value. -/
structure Node.Lacks (handles : Handles) (node : Node) (kind : Kind) (fault : Fault) : Prop where
  form : node.form handles = .ok (.scalar kind)
  readAs : node.readAs handles kind = .error fault

/-- A scalar without a value stands inside a node. -/
def Node.Blames (handles : Handles) (node : Node) (fault : Fault) : Prop :=
  ∃ inner kind, inner.Within node ∧ Node.Lacks handles inner kind fault

/-- Every defect is that of a malformed document or one to blame on something. -/
def Blamed (blames : Fault → Prop) (outcome : Except Defect First) : Prop :=
  ∀ defect, outcome = .error defect → defect.fault = .malformed ∨ blames defect.fault

section Blamed

variable {blames wider : Fault → Prop} {outcome : Except Defect First}

theorem blamed_ok (result : First) : Blamed blames (.ok result) := by
  simp [Blamed]

theorem blamed_malformed (depth : Nat) :
    Blamed blames (.error ⟨depth, .malformed⟩ : Except Defect First) := by
  simp [Blamed]

theorem Blamed.mono (blamed : Blamed blames outcome)
    (imp : ∀ fault, blames fault → wider fault) : Blamed wider outcome :=
  fun defect failed => (blamed defect failed).imp_right (imp _)

theorem blamed_here {found : Except Fault First}
    (blamed : ∀ fault, found = .error fault → fault = .malformed ∨ blames fault) :
    Blamed blames (Defect.here found) := by
  cases found with
  | ok result => exact blamed_ok result
  | error fault =>
      intro defect failed
      obtain rfl := Except.error.inj failed
      exact blamed fault rfl

theorem Blamed.below (blamed : Blamed blames outcome) :
    Blamed blames (Defect.below outcome) := by
  cases outcome with
  | ok result => exact blamed_ok result
  | error defect =>
      intro deeper failed
      obtain rfl := Except.error.inj failed
      exact blamed defect rfl

theorem Blamed.map (blamed : Blamed blames outcome) (change : First → Second) :
    Blamed blames (outcome.map change) := by
  cases outcome with
  | ok result => exact blamed_ok _
  | error defect =>
      intro same failed
      obtain rfl := Except.error.inj failed
      exact blamed defect rfl

theorem Blamed.bind (blamed : Blamed blames outcome) {next : First → Except Defect Second}
    (later : ∀ result, outcome = .ok result → Blamed blames (next result)) :
    Blamed blames (outcome >>= next) := by
  cases outcome with
  | ok result => exact later result rfl
  | error defect =>
      intro same failed
      obtain rfl := Except.error.inj failed
      exact blamed defect rfl

theorem Blamed.together (blamed : Blamed blames outcome) {other : Except Defect Second}
    (otherBlamed : Blamed blames other) : Blamed blames (Defect.together outcome other) := by
  intro defect failed
  cases outcome with
  | ok result =>
      cases other with
      | ok found => cases failed
      | error fault =>
          obtain rfl := Except.error.inj failed
          exact otherBlamed _ rfl
  | error fault =>
      cases other with
      | ok found =>
          obtain rfl := Except.error.inj failed
          exact blamed _ rfl
      | error second =>
          rw [Defect.together, Except.error.injEq] at failed
          split at failed
          · exact failed ▸ otherBlamed _ rfl
          · exact failed ▸ blamed _ rfl

theorem Blamed.append {first second : Except Defect (List First)} (blamed : Blamed blames first)
    (otherBlamed : Blamed blames second) : Blamed blames (Defect.append first second) :=
  (blamed.together otherBlamed).map _

theorem Blamed.cons {others : Except Defect (List First)} (blamed : Blamed blames outcome)
    (otherBlamed : Blamed blames others) : Blamed blames (Defect.cons outcome others) :=
  (blamed.together otherBlamed).map _

end Blamed

theorem taggedForm_malformed {properties : Properties} {own : Form} {fault : Fault}
    (failed : taggedForm handles properties own = .error fault) : fault = .malformed := by
  unfold taggedForm at failed
  split at failed
  · cases failed
  · next tag _ =>
      rcases bind_eq_error_iff.1 failed with unnamed | ⟨name, -, unknown⟩
      · cases tag with
        | verbatim => cases unnamed
        | shorthand =>
            rw [Tag.name] at unnamed
            split at unnamed
            · cases unnamed
            · exact (Except.error.inj unnamed).symm
      · split at unknown
        · cases unknown
        · split at unknown
          · cases unknown
          · exact (Except.error.inj unknown).symm

theorem Node.form_malformed {node : Node} {fault : Fault}
    (failed : node.form handles = .error fault) : fault = .malformed := by
  cases node with
  | reference => exact (Except.error.inj failed).symm
  | _ => exact taggedForm_malformed failed

theorem blamed_form (blames : Fault → Prop) (node : Node) :
    Blamed blames (Defect.here (node.form handles)) :=
  blamed_here fun _ failed => .inl (Node.form_malformed failed)

theorem blamed_readAs {node : Node} {kind : Kind}
    (formed : node.form handles = .ok (.scalar kind)) :
    Blamed (node.Blames handles) (Defect.here (node.readAs handles kind)) :=
  blamed_here fun _ failed => .inr ⟨node, kind, .self node, formed, failed⟩

/-- Items one of which is to blame. -/
def BlamesItem (handles : Handles) (items : List Node) (fault : Fault) : Prop :=
  ∃ item ∈ items, item.Blames handles fault

/-- Entries one of whose keys or values is to blame. -/
def BlamesEntry (handles : Handles) (entries : List (Node × Node)) (fault : Fault) : Prop :=
  ∃ entry ∈ entries, entry.1.Blames handles fault ∨ entry.2.Blames handles fault

theorem BlamesItem.sequence {items : List Node} {fault : Fault}
    (blames : BlamesItem handles items fault) (properties : Properties) :
    (Node.sequence properties items).Blames handles fault := by
  obtain ⟨item, member, inner, kind, within, lacks⟩ := blames
  exact ⟨inner, kind, .item member within, lacks⟩

theorem BlamesEntry.mapping {entries : List (Node × Node)} {fault : Fault}
    (blames : BlamesEntry handles entries fault) (properties : Properties) :
    (Node.mapping properties entries).Blames handles fault := by
  obtain ⟨entry, member, blamed⟩ := blames
  rcases blamed with ⟨inner, kind, within, lacks⟩ | ⟨inner, kind, within, lacks⟩
  · exact ⟨inner, kind, .key member within, lacks⟩
  · exact ⟨inner, kind, .value member within, lacks⟩

theorem BlamesItem.later {items : List Node} {fault : Fault}
    (blames : BlamesItem handles items fault) (item : Node) :
    BlamesItem handles (item :: items) fault := by
  obtain ⟨other, member, blamed⟩ := blames
  exact ⟨other, .tail _ member, blamed⟩

theorem BlamesEntry.later {entries : List (Node × Node)} {fault : Fault}
    (blames : BlamesEntry handles entries fault) (entry : Node × Node) :
    BlamesEntry handles (entry :: entries) fault := by
  obtain ⟨other, member, blamed⟩ := blames
  exact ⟨other, .tail _ member, blamed⟩

mutual
theorem Node.scalarText_malformed {fault : Fault} (node : Node)
    (failed : node.scalarText handles = .error fault) : fault = .malformed := by
  cases node with
  | scalar => cases failed
  | mapping properties entries =>
      rw [Node.scalarText] at failed
      exact defaultText_malformed entries failed
  | sequence | reference => exact (Except.error.inj failed).symm

theorem defaultText_malformed {fault : Fault} (entries : List (Node × Node))
    (failed : defaultText handles entries = .error fault) : fault = .malformed := by
  cases entries with
  | nil => exact (Except.error.inj failed).symm
  | cons entry entries =>
      obtain ⟨key, value⟩ := entry
      rw [defaultText] at failed
      split at failed
      · exact Node.scalarText_malformed value failed
      · exact defaultText_malformed entries failed
end

theorem readAs_string_malformed {node : Node} {fault : Fault}
    (failed : node.readAs handles .string = .error fault) : fault = .malformed := by
  rcases bind_eq_error_iff.1 failed with textless | ⟨text, -, unread⟩
  · exact Node.scalarText_malformed node textless
  · cases unread

theorem blamed_key {key : Node} {form : Form} (formed : key.form handles = .ok form) :
    Blamed (key.Blames handles) (Defect.here (key.key handles form)) := by
  unfold Node.key
  split
  · exact blamed_here fun _ failed => .inl (readAs_string_malformed failed)
  · exact blamed_readAs formed
  · exact blamed_malformed 0

mutual
theorem blamed_value (handles : Handles) (node : Node) :
    Blamed (node.Blames handles) (node.value handles) := by
  cases node with
  | scalar properties plain text =>
      rw [Node.value]
      refine (blamed_form _ _).bind fun form formed => ?_
      have formed := Defect.here_eq_ok_iff.1 formed
      split
      · exact (blamed_readAs formed).bind fun scalar _ => blamed_ok _
      · exact blamed_malformed 1
  | sequence properties items =>
      rw [Node.value]
      refine (blamed_form _ _).bind fun form formed => ?_
      split
      · exact blamed_malformed 0
      · refine Blamed.bind ?_ fun _ _ => blamed_ok _
        exact (blamed_itemValues handles items).below.mono fun _ blames => blames.sequence _
      · refine Blamed.bind ?_ fun _ _ => blamed_ok _
        exact (blamed_pairValues handles items).below.mono fun _ blames => blames.sequence _
      · exact blamed_malformed 1
  | mapping properties entries =>
      have contents : Blamed ((Node.mapping properties entries).Blames handles)
          (if canMerge handles entries then
            Except.map Entries.ofPairs (Defect.below
              (Defect.append (entryValues handles entries).1 (entryValues handles entries).2))
          else .error ⟨1, .malformed⟩) := by
        split
        · obtain ⟨merged, own⟩ := blamed_entryValues handles entries
          exact ((merged.append own).below.map _).mono fun _ blames => blames.mapping _
        · exact blamed_malformed 1
      rw [Node.value]
      dsimp only
      refine (blamed_form _ _).bind fun form formed => ?_
      have formed := Defect.here_eq_ok_iff.1 formed
      split
      · exact (blamed_readAs formed).bind fun scalar _ => blamed_ok _
      · exact contents.bind fun _ _ => blamed_ok _
      · exact contents.bind fun _ _ => blamed_ok _
      · exact blamed_malformed 1
  | reference anchor =>
      rw [Node.value]
      exact blamed_malformed 0

theorem blamed_itemValues (handles : Handles) (items : List Node) :
    Blamed (BlamesItem handles items) (itemValues handles items) := by
  cases items with
  | nil =>
      rw [itemValues]
      exact blamed_ok _
  | cons item items =>
      rw [itemValues]
      exact ((blamed_value handles item).mono fun _ blames => ⟨item, by simp, blames⟩).cons
        ((blamed_itemValues handles items).mono fun _ blames => blames.later item)

theorem blamed_pairValues (handles : Handles) (items : List Node) :
    Blamed (BlamesItem handles items) (pairValues handles items) := by
  fun_cases pairValues handles items with
  | case1 => exact blamed_ok _
  | case2 properties key value items pair =>
      have first : Blamed ((Node.mapping properties [(key, value)]).Blames handles) pair := by
        refine Blamed.map (Blamed.together ?_ ?_) _
        · refine (blamed_value handles key).mono fun fault blames => ?_
          exact BlamesEntry.mapping ⟨(key, value), by simp, .inl blames⟩ properties
        · refine (blamed_value handles value).mono fun fault blames => ?_
          exact BlamesEntry.mapping ⟨(key, value), by simp, .inr blames⟩ properties
      exact (first.mono fun _ blames => ⟨_, by simp, blames⟩).cons
        ((blamed_pairValues handles items).mono fun _ blames => blames.later _)
  | case3 => exact blamed_malformed 0

theorem blamed_entryValues (handles : Handles) (entries : List (Node × Node)) :
    Blamed (BlamesEntry handles entries) (entryValues handles entries).1 ∧
      Blamed (BlamesEntry handles entries) (entryValues handles entries).2 := by
  cases entries with
  | nil =>
      rw [entryValues]
      exact ⟨blamed_ok _, blamed_ok _⟩
  | cons entry entries =>
      obtain ⟨key, value⟩ := entry
      obtain ⟨merged, own⟩ := blamed_entryValues handles entries
      have mergedLater := merged.mono fun _ blames => blames.later (key, value)
      have ownLater := own.mono fun _ blames => blames.later (key, value)
      rw [entryValues]
      dsimp only
      split
      · refine ⟨?_, ownLater⟩
        refine Blamed.append ?_ mergedLater
        exact (blamed_takenEntries handles value).mono fun _ blames =>
          ⟨(key, value), by simp, .inr blames⟩
      · next form formed =>
          refine ⟨mergedLater, Blamed.cons (Blamed.together ?_ ?_) ownLater⟩
          · exact (blamed_key formed).mono fun _ blames => ⟨(key, value), by simp, .inl blames⟩
          · exact (blamed_value handles value).mono fun _ blames =>
              ⟨(key, value), by simp, .inr blames⟩
      · next fault unformed =>
          rw [Node.form_malformed unformed]
          exact ⟨mergedLater, blamed_malformed 0⟩

theorem blamed_takenEntries (handles : Handles) (node : Node) :
    Blamed (node.Blames handles) (takenEntries handles node) := by
  cases node with
  | mapping properties entries =>
      obtain ⟨merged, own⟩ := blamed_entryValues handles entries
      rw [takenEntries]
      exact (merged.append own).mono fun _ blames => blames.mapping properties
  | sequence properties items =>
      rw [takenEntries]
      exact (blamed_takenItems handles items).mono fun _ blames => blames.sequence properties
  | scalar | reference => exact blamed_malformed 0

theorem blamed_takenItems (handles : Handles) (items : List Node) :
    Blamed (BlamesItem handles items) (takenItems handles items) := by
  fun_cases takenItems handles items with
  | case1 => exact blamed_ok _
  | case2 properties entries items merged own valued =>
      obtain ⟨mergedBlamed, ownBlamed⟩ := blamed_entryValues handles entries
      rw [valued] at mergedBlamed ownBlamed
      refine Blamed.append ?_ ?_
      · exact (blamed_takenItems handles items).mono fun _ blames => blames.later _
      · exact (mergedBlamed.append ownBlamed).mono fun _ blames =>
          ⟨_, by simp, blames.mapping properties⟩
  | case3 => exact blamed_malformed 0
end

/-! ### Documents -/

/-- The tag of a node as written, if it has one. -/
def Node.tag? : Node → Option Tag
  | .scalar properties _ _ | .sequence properties _ | .mapping properties _ => properties.tag
  | .reference _ => none

theorem readAs_scalar (properties : Properties) (plain : Bool) (text : List Char) (kind : Kind) :
    (Node.scalar properties plain text).readAs handles kind = kind.read text := by
  cases kind <;> rfl

/-- A node without a tag that is to blame is a scalar that has no value by its spelling. -/
theorem Node.Lacks.worthless {node : Node} {kind : Kind} {fault : Fault}
    (lacks : node.Lacks handles kind fault) (untagged : node.tag? = none) :
    ∃ properties text, node = .scalar properties true text ∧ Worthless text fault := by
  obtain ⟨formed, failed⟩ := lacks
  cases node with
  | scalar properties plain text =>
      rw [Node.tag?] at untagged
      cases plain with
      | true =>
          simp only [Node.form, taggedForm, untagged, Bool.true_or, if_true, Except.ok.injEq,
            Form.scalar.injEq] at formed
          subst formed
          refine ⟨properties, text, rfl, kindOf_read_eq_error_iff.1 ?_⟩
          rwa [readAs_scalar] at failed
      | false =>
          simp only [Node.form, taggedForm, untagged, Option.isSome_none, Bool.or_self,
            Bool.false_eq_true, if_false, Except.ok.injEq, Form.scalar.injEq] at formed
          subst formed
          cases failed
  | sequence properties items =>
      rw [Node.tag?] at untagged
      simp [Node.form, taggedForm, untagged] at formed
  | mapping properties entries =>
      rw [Node.tag?] at untagged
      simp [Node.form, taggedForm, untagged] at formed
  | reference anchor => cases formed

/-- The tree that a text holds, with its references replaced. -/
def HoldsTree (text : List Char) (handles : Handles) (node : Node) : Prop :=
  ∃ root anchors, readDocument (dropOrderMark (unifyBreaks text)) = .ok (some (handles, root)) ∧
    root.resolve handles [] = .ok (node, anchors)

/-- Where the fault of a text comes from that is not malformed. -/
inductive Origin (text : List Char) : Fault → Prop
  /-- The text names a character or a version that does not exist, and has no tree. -/
  | wording : (∀ handles node, ¬HoldsTree text handles node) → Origin text .outOfRange
  /-- A scalar without a tag is spelled as a number or a date that does not exist. -/
  | spelling {handles : Handles} {node : Node} {properties : Properties} {content : List Char} :
      HoldsTree text handles node → (Node.scalar properties true content).Within node →
      properties.tag = none → Worthless content .outOfRange → Origin text .outOfRange
  /-- A node is tagged as a scalar of a kind that it is not. -/
  | tag {handles : Handles} {node inner : Node} {kind : Kind} {fault : Fault} :
      HoldsTree text handles node → inner.Within node → inner.tag?.isSome = true →
      inner.Lacks handles kind fault → Origin text fault

theorem Worthless.malformed_or_outOfRange {text : List Char} {fault : Fault}
    (worthless : Worthless text fault) : fault = .malformed ∨ fault = .outOfRange := by
  cases worthless <;> simp

theorem Origin.of_blames {text : List Char} {node : Node} {fault : Fault}
    (holds : HoldsTree text handles node) (blames : node.Blames handles fault)
    (wellFormed : fault ≠ .malformed) : Origin text fault := by
  obtain ⟨inner, kind, within, lacks⟩ := blames
  cases tagged : inner.tag? with
  | some tag => exact .tag holds within (by rw [tagged]; rfl) lacks
  | none =>
      obtain ⟨properties, content, rfl, worthless⟩ := lacks.worthless tagged
      obtain rfl := worthless.malformed_or_outOfRange.resolve_left wellFormed
      exact .spelling holds within tagged worthless

/-- Whenever a text has a fault and is not malformed, the fault is that of a scalar in its tree or
of a character or version that does not exist. -/
theorem origin_of_read {text : List Char} {fault : Fault} (failed : read text = .error fault)
    (wellFormed : fault ≠ .malformed) : Origin text fault := by
  unfold read at failed
  split at failed
  · rcases bind_eq_error_iff.1 failed with unread | ⟨document, found, failed⟩
    · obtain rfl := (textual_readDocument _ fault unread).resolve_left wellFormed
      refine .wording ?_
      rintro handles node ⟨root, anchors, found, -⟩
      simp [unread] at found
    · cases document with
      | none => cases failed
      | some document =>
          obtain ⟨handles, root⟩ := document
          rcases bind_eq_error_iff.1 failed with unresolved | ⟨⟨node, anchors⟩, resolved, failed⟩
          · obtain rfl := (textual_resolve _ _ _ fault unresolved).resolve_left wellFormed
            refine .wording ?_
            rintro others node ⟨other, anchors, same, resolved⟩
            have both := Option.some.inj (Except.ok.inj (found.symm.trans same))
            obtain ⟨rfl, rfl⟩ := Prod.mk.inj both
            simp [unresolved] at resolved
          · obtain ⟨defect, valued, rfl⟩ := mapError_eq_error_iff.1 failed
            have blames := (blamed_value handles node defect valued).resolve_left wellFormed
            exact .of_blames ⟨root, anchors, found, resolved⟩ blames wellFormed
  · exact absurd (Except.error.inj failed).symm wellFormed

end ClosureCapture.Yaml
