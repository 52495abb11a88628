import ClosureCapture.Proofs.Settings.Outcome

/-!
# Settings follow the highest layer

A name is given something by an override, or else by a variable of the environment, or else by the
settings file: this is its winner.  A call that loads settings depends on the winners alone, but
for one thing: where what is not a number is among several unknown keys, the order in which they
are reported depends on the order in which they come.
-/

namespace ClosureCapture.Settings

/-! ### One layer -/

/-- The named values of those items that have one. -/
def layer {Item Held : Type} (name : Item → String) (value? : Item → Option Held)
    (items : List Item) : List (String × Held) :=
  items.filterMap fun item => (value? item).map fun value => (name item, value)

section Layer

variable {Item Held : Type} {name : Item → String} {value? : Item → Option Held}
  {items : List Item}

theorem names_layer_sublist :
    ((layer name value? items).map Prod.fst).Sublist (items.map name) := by
  induction items with
  | nil => exact List.Sublist.slnil
  | cons item items ih =>
      cases given : value? item with
      | none => simpa [layer, given] using ih.cons (name item)
      | some value => simpa [layer, given] using ih

theorem lookup_layer (names : (items.map name).Nodup) (key : String) :
    (layer name value? items).lookup key = (items.find? (name · == key)).bind value? := by
  induction items with
  | nil => rfl
  | cons item items ih =>
      rw [List.map_cons, List.nodup_cons] at names
      have later := ih names.2
      by_cases equal : name item = key
      · subst equal
        have absent : (layer name value? items).lookup (name item) = none :=
          Entries.lookup_eq_none_of_notMem fun member =>
            names.1 (names_layer_sublist.subset member)
        cases given : value? item with
        | none => simpa [layer, given] using absent
        | some value => simp [layer, given]
      · have different : (key == name item) = false := beq_false_of_ne (Ne.symm equal)
        cases given : value? item with
        | none => simpa [layer, given, equal] using later
        | some value => simpa [layer, given, equal, List.lookup_cons, different] using later

end Layer

/-- What an override gives, null being nothing. -/
def given? : Given → Option Given
  | .document (.scalar .null) => none
  | given => some given

theorem givenOverrides_ofFields (overrides : List (String × Given)) :
    givenOverrides (Entries.ofFields overrides) =
      Entries.ofFields (layer Prod.fst (fun field => given? field.2) overrides) := by
  induction overrides with
  | nil => rfl
  | cons field overrides ih =>
      obtain ⟨name, given⟩ := field
      simp only [givenOverrides, Entries.ofFields, layer] at ih
      cases given with
      | document value =>
          cases value with
          | scalar scalar =>
              cases scalar <;> simpa [givenOverrides, Entries.ofFields, layer, given?] using ih
          | list | map | other =>
              simpa [givenOverrides, Entries.ofFields, layer, given?] using ih
      | policy => simpa [givenOverrides, Entries.ofFields, layer, given?] using ih

/-- What a variable says, an empty one saying nothing. -/
def variableValue? (environment : Environment) (name : String) : Option Value :=
  (environment.lookup name).bind fun value =>
    if value.isEmpty then none else some (.string (String.ofList (Text.trim value.toList)))

theorem ofEnvironment_eq (environment : Environment) :
    ofEnvironment environment =
      Entries.ofFields
        (layer Prod.snd (fun pair => variableValue? environment pair.1) variableKeys) := by
  rw [ofEnvironment, layer, Entries.ofFields, List.map_filterMap]
  apply List.filterMap_congr
  rintro ⟨name, key⟩ -
  cases found : environment.lookup name with
  | none => simp [variableValue?, found]
  | some value => by_cases empty : value = "" <;> simp [variableValue?, found, empty]

/-! ### Calls -/

/-- A call that loads settings, with the entries of the file that it reads. -/
structure Call where
  platform : Platform
  folder : Folder
  given : Option String
  environment : Environment
  overrides : List (String × Given)
  file : Entries
  lawful : platform.Lawful
  fileEntries_eq : fileEntries platform folder given = .ok file
  nodup_overrides : (overrides.map Prod.fst).Nodup

namespace Call

variable (call : Call)

def outcome : Except LoadFault Settings :=
  loadOn call.platform call.folder call.given call.environment (Entries.ofFields call.overrides)

def override? (name : String) : Option Given :=
  (call.overrides.find? (·.1 == name)).bind fun field => given? field.2

def environmentValue? (name : String) : Option Value :=
  (variableKeys.find? (·.2 == name)).bind fun pair => variableValue? call.environment pair.1

/-- What a name is given in the highest layer that gives it something. -/
def winner? (name : String) : Option Given :=
  (call.override? name).or
    (((call.environmentValue? name).or (call.file.field? name)).map Given.document)

/-- The keys of the file that are no texts.  Only the file can have them. -/
def foreignKeys : List Scalar :=
  call.file.foreign.map Prod.fst

def entries : Entries Given :=
  merged call.file call.environment (Entries.ofFields call.overrides)

theorem outcome_eq : call.outcome = ofEntries call.platform call.entries := by
  rw [outcome, loadOn, call.fileEntries_eq]
  rfl

theorem entries_eq :
    call.entries =
      (call.file.overlay
        (Entries.ofFields
          (layer Prod.snd (fun pair => variableValue? call.environment pair.1)
            variableKeys))).asGiven.overlay
        (Entries.ofFields (layer Prod.fst (fun field => given? field.2) call.overrides)) := by
  rw [entries, merged, ofEnvironment_eq, givenOverrides_ofFields]

theorem distinct_entries : call.entries.Distinct :=
  (distinct_asGiven
    ((distinct_of_fileEntries call.lawful call.fileEntries_eq).overlay _)).overlay _

theorem foreign_entries : call.entries.foreign = call.file.foreign.asGiven := by
  rw [entries_eq, Entries.foreign_overlay_ofFields, foreign_asGiven,
    Entries.foreign_overlay_ofFields]

theorem foreignKeys_eq : call.entries.foreign.map Prod.fst = call.foreignKeys := by
  rw [foreign_entries, Entries.asGiven, List.map_map]
  rfl

/-- The merged entries give what the winners are. -/
theorem field?_entries (name : String) : call.entries.field? name = call.winner? name := by
  have keys : (variableKeys.map Prod.snd).Nodup := by decide
  rw [entries_eq,
    Entries.field?_overlay_ofFields (call.nodup_overrides.sublist names_layer_sublist),
    field?_asGiven, Entries.field?_overlay_ofFields (keys.sublist names_layer_sublist),
    lookup_layer call.nodup_overrides, lookup_layer keys]
  rfl

/-- Calls with the same winners, also of the keys that are no texts. -/
structure SameWinners (call other : Call) : Prop where
  named : ∀ name, call.winner? name = other.winner? name
  foreign : call.file.foreign.Perm other.file.foreign

/-- Calls that differ in what one name is given, below a layer that gives it something. -/
structure DifferBelow (name : String) (call other : Call) : Prop where
  overrides : call.overrides = other.overrides
  environment : ∀ key, key ≠ name → call.environmentValue? key = other.environmentValue? key
  fields : ∀ key, key ≠ name → call.file.field? key = other.file.field? key
  foreign : call.file.foreign.Perm other.file.foreign
  shadowed : (call.override? name).isSome = true ∨
    (call.environmentValue? name).isSome = true ∧
      call.environmentValue? name = other.environmentValue? name

variable {call} {other : Call}

theorem SameWinners.outcome (same : call.SameWinners other) :
    call.outcome = other.outcome ∨ RefusedAlike call.outcome other.outcome := by
  have fields : ∀ name, call.entries.field? name = other.entries.field? name := by
    intro name
    rw [field?_entries, field?_entries, same.named name]
  have foreign : call.entries.foreign.Perm other.entries.foreign := by
    rw [foreign_entries, foreign_entries]
    exact same.foreign.map _
  rw [outcome_eq, outcome_eq]
  exact ofEntries_of_perm call.lawful other.lawful call.distinct_entries
    (Entries.perm_of_field? call.distinct_entries other.distinct_entries fields foreign) fields

theorem DifferBelow.sameWinners {name : String} (differ : DifferBelow name call other) :
    call.SameWinners other := by
  have overrides : ∀ key, call.override? key = other.override? key := by
    intro key
    rw [override?, override?, differ.overrides]
  refine ⟨fun key => ?_, differ.foreign⟩
  by_cases equal : key = name
  · subst equal
    rcases differ.shadowed with overridden | ⟨set, agree⟩
    · obtain ⟨value, found⟩ := Option.isSome_iff_exists.1 overridden
      simp [winner?, ← overrides, found]
    · obtain ⟨value, found⟩ := Option.isSome_iff_exists.1 set
      simp [winner?, ← overrides, ← agree, found]
  · rw [winner?, winner?, overrides, differ.environment key equal, differ.fields key equal]

/-! ### Keys in another order -/

/-- The platform that lists some keys in the given order. -/
def arranging (platform : Platform) (keys : List Scalar) : Platform :=
  { platform with
    listing := fun members => if members.isPerm keys then keys else platform.listing members }

theorem lawful_arranging {platform : Platform} (lawful : platform.Lawful) {keys : List Scalar}
    (unbroken : Scalar.Unbroken keys) : (arranging platform keys).Lawful where
  distinct := lawful.distinct
  perm members := by
    change (if members.isPerm keys then keys else platform.listing members).Perm members
    split
    · next same => exact (List.isPerm_iff.1 same).symm
    · exact lawful.perm members
  unbroken members := by
    change Scalar.Unbroken (if members.isPerm keys then keys else platform.listing members)
    split
    · exact unbroken
    · exact lawful.unbroken members

/-- The call with some keys listed in another order. -/
def arranged (call : Call) {keys : List Scalar} (unbroken : Scalar.Unbroken keys) : Call where
  platform := arranging call.platform keys
  folder := call.folder
  given := call.given
  environment := call.environment
  overrides := call.overrides
  file := call.file
  lawful := lawful_arranging call.lawful unbroken
  fileEntries_eq := call.fileEntries_eq
  nodup_overrides := call.nodup_overrides

/-- Unknown keys are refused in the order in which they are listed. -/
theorem refused_iff {keys : List Scalar} (undefined : .float .nan ∈ keys) :
    call.outcome = .error (.refused (.unknownKeys keys)) ↔
      (unknownKeys call.entries).Pairwise Scalar.Comparable ∧
        call.platform.listing (unknownKeys call.entries) = keys ∧
        keys.all Scalar.isShowable = true := by
  rw [outcome_eq]
  by_cases known : unknownKeys call.entries = []
  · have unlisted : call.platform.listing (unknownKeys call.entries) ≠ keys := by
      rintro rfl
      simp [known, (call.lawful.perm _).mem_iff] at undefined
    refine iff_of_false (fun refused => ?_) fun listed => unlisted listed.2.1
    have concerns := concerns_of_ofEntries call.lawful call.distinct_entries refused
    have member := (mem_unknownKeys_iff call.distinct_entries).2 ((concerns _).1 undefined)
    simp [known] at member
  by_cases sortable : (unknownKeys call.entries).Pairwise Scalar.Comparable
  · rw [ofEntries_of_checkKeys (checkKeys_of_sortable known sortable), Except.error.injEq,
      LoadFault.ofError_eq_refused_iff]
    simp only [SettingsError.unknownKeys.injEq, SettingsError.isShowable, sortable, true_and]
    exact and_congr_right fun same => same ▸ Iff.rfl
  · rw [ofEntries_of_checkKeys (checkKeys_of_unsortable known sortable)]
    simp [sortable]

/-- On the standard platform, unknown keys none of which is out of place are reported in the order
in which they come. -/
theorem outcome_of_unbroken (call : Call) (standard : call.platform = .standard)
    {keys : List Scalar} (unknown : unknownKeys call.entries = keys)
    (undefined : .float .nan ∈ keys) (sortable : Scalar.comparable keys = true)
    (unbroken : Scalar.Unbroken keys) (showable : keys.all Scalar.isShowable = true) :
    call.outcome = .error (.refused (.unknownKeys keys)) := by
  refine (refused_iff undefined).2 ⟨?_, ?_, showable⟩
  · rw [unknown]
    exact Scalar.comparable_iff.1 sortable
  · rw [standard, unknown]
    exact unbroken.sort_eq

/-- Where the order of unknown keys is open, another order is reported for the same winners. -/
theorem exists_other_order {keys : List Scalar}
    (refused : call.outcome = .error (.refused (.unknownKeys keys)))
    (undefined : .float .nan ∈ keys) {key : Scalar} (member : key ∈ keys)
    (defined : key ≠ .float .nan) :
    ∃ other : Call, call.SameWinners other ∧ other.outcome ≠ call.outcome := by
  obtain ⟨sortable, listed, showable⟩ := (refused_iff undefined).1 refused
  obtain ⟨others, perm, unbroken, different⟩ :=
    Scalar.exists_ne_unbroken undefined member defined keys
  have permUnknown : (unknownKeys call.entries).Perm others :=
    (call.lawful.perm _).symm.trans (listed ▸ perm.symm)
  have otherRefused : (call.arranged unbroken).outcome =
      .error (.refused (.unknownKeys others)) :=
    (refused_iff (perm.mem_iff.2 undefined)).2
      ⟨sortable, if_pos (List.isPerm_iff.2 permUnknown), perm.all_eq.trans showable⟩
  refine ⟨call.arranged unbroken, ⟨fun _ => rfl, .refl _⟩, ?_⟩
  rw [otherRefused, refused]
  simpa using different

end Call

/-- A call that loads settings depends on the winners alone, whatever the platform: another call
with the same winners has the same outcome, settings are their winners or defaults, and a refusal
is about winners.  In particular nothing depends on what a name is given below a layer that gives
it something.  The exception are refusals of several unknown keys one of which is not a number: the
order in which these are reported is open. -/
theorem load_determined_by_winners (call : Call) :
    (∀ other : Call, call.SameWinners other →
        call.outcome = other.outcome ∨ RefusedAlike call.outcome other.outcome) ∧
      (∀ keys, call.outcome = .error (.refused (.unknownKeys keys)) → .float .nan ∈ keys →
        (∃ key ∈ keys, key ≠ .float .nan) →
          ∃ other : Call, call.SameWinners other ∧ other.outcome ≠ call.outcome) ∧
      (∀ settings, call.outcome = .ok settings → settings.Follows call.winner?) ∧
      (∀ error, call.outcome = .error (.refused error) →
        error.Concerns call.winner? call.foreignKeys) ∧
      ∀ name (other : Call), call.DifferBelow name other →
        call.outcome = other.outcome ∨ RefusedAlike call.outcome other.outcome := by
  have winners : call.entries.field? = call.winner? := funext call.field?_entries
  refine ⟨fun other same => same.outcome, ?_, ?_, ?_, fun name other differ =>
    differ.sameWinners.outcome⟩
  · rintro keys refused undefined ⟨key, member, defined⟩
    exact Call.exists_other_order refused undefined member defined
  · intro settings loaded
    rw [call.outcome_eq] at loaded
    rw [← winners]
    exact (ofEntries_eq_ok_iff.1 loaded).2.1
  · intro error refused
    rw [call.outcome_eq] at refused
    have concerns := concerns_of_ofEntries call.lawful call.distinct_entries refused
    rwa [winners, call.foreignKeys_eq] at concerns

/-- The entries of a map of scalars. -/
def scalarEntries? : Value → Option (List (Scalar × Scalar))
  | .map entries => entries.mapM fun (key, value) =>
      match value with
      | .scalar scalar => some (key, scalar)
      | _ => none
  | _ => none

theorem eq_map_of_scalarEntries? {value : Value} {pairs : List (Scalar × Scalar)}
    (found : scalarEntries? value = some pairs) :
    value = .map (pairs.map fun pair => (pair.1, .scalar pair.2)) := by
  cases value with
  | map entries =>
      rw [Value.map.injEq]
      rw [scalarEntries?] at found
      induction entries generalizing pairs with
      | nil =>
          obtain rfl := Option.some.inj found
          rfl
      | cons entry entries ih =>
          rw [List.mapM_cons] at found
          obtain ⟨⟨key, scalar⟩, first, found⟩ := Option.bind_eq_some_iff.1 found
          obtain ⟨others, later, found⟩ := Option.bind_eq_some_iff.1 found
          obtain rfl := Option.some.inj found
          obtain ⟨entryKey, value⟩ := entry
          cases value with
          | scalar held =>
              obtain ⟨rfl, rfl⟩ := Prod.mk.inj (Option.some.inj first)
              rw [List.map_cons, ← ih later]
          | list | map | other => simp at first
  | scalar | list | other => simp [scalarEntries?] at found

/-- The call that loads a settings file with some entries, and nothing else. -/
theorem exists_call_of_readBytes {content : List UInt8} {pairs : List (Scalar × Scalar)}
    (found : (Yaml.readBytes content).toOption.bind scalarEntries? = some pairs)
    (nonempty : pairs ≠ []) :
    ∃ call : Call, call.platform = .standard ∧ call.overrides = [] ∧ call.environment = [] ∧
      call.file = pairs.map fun pair => (pair.1, .scalar pair.2) := by
  obtain ⟨value, read, scalars⟩ := Option.bind_eq_some_iff.1 found
  obtain rfl := eq_map_of_scalarEntries? scalars
  cases outcome : Yaml.readBytes content with
  | error fault => simp [outcome, Except.toOption] at read
  | ok value =>
      obtain rfl : value = _ := by simpa [outcome, Except.toOption] using read
      have stored : Folder.read ⟨[(["capture.yaml"], .file content)]⟩ "capture.yaml" =
          .ok content := by with_unfolding_all rfl
      have document : Platform.standard.readYaml content = _ := outcome
      refine ⟨⟨.standard, _, some "capture.yaml", [], [], _, Platform.lawful_standard,
        (loadFile_eq_ok_iff stored).2 ?_, List.nodup_nil⟩, rfl, rfl, rfl, rfl⟩
      rw [readFile, if_pos (by decide), document]
      simp [Value.isVoid, nonempty]

/-- The same three unknown keys in a settings file are reported in the order in which they come, if
what is not a number is between the two others. -/
theorem load_determined_by_winners_nan :
    ∃ first second : Call, first.platform = .standard ∧ second.platform = .standard ∧
      first.SameWinners second ∧
      first.outcome = .error (.refused (.unknownKeys [.int 216, .float .nan, .int 192])) ∧
      second.outcome = .error (.refused (.unknownKeys [.int 192, .float .nan, .int 216])) ∧
      RefusedAlike first.outcome second.outcome := by
  have falling : (Yaml.readBytes (encodeText "216: 0\n.nan: 0\n192: 0\n".toList)).toOption.bind
      scalarEntries? = some [(.int 216, .int 0), (.float .nan, .int 0), (.int 192, .int 0)] := by
    decide +kernel
  have rising : (Yaml.readBytes (encodeText "192: 0\n.nan: 0\n216: 0\n".toList)).toOption.bind
      scalarEntries? = some [(.int 192, .int 0), (.float .nan, .int 0), (.int 216, .int 0)] := by
    decide +kernel
  obtain ⟨first, standard, overrides, environment, file⟩ :=
    exists_call_of_readBytes falling (by simp)
  obtain ⟨second, otherStandard, otherOverrides, otherEnvironment, otherFile⟩ :=
    exists_call_of_readBytes rising (by simp)
  have keys : unknownKeys first.entries = [.int 216, .float .nan, .int 192] := by
    rw [Call.entries, overrides, environment, file]
    rfl
  have otherKeys : unknownKeys second.entries = [.int 192, .float .nan, .int 216] := by
    rw [Call.entries, otherOverrides, otherEnvironment, otherFile]
    rfl
  have refused := first.outcome_of_unbroken standard keys (by simp) (by decide +kernel)
    (by decide +kernel) (by decide +kernel)
  have otherRefused := second.outcome_of_unbroken otherStandard otherKeys (by simp)
    (by decide +kernel) (by decide +kernel) (by decide +kernel)
  have same : first.SameWinners second := by
    refine ⟨fun name => ?_, ?_⟩
    · rw [Call.winner?, Call.winner?, Call.override?, Call.override?, Call.environmentValue?,
        Call.environmentValue?, overrides, otherOverrides, environment, otherEnvironment, file,
        otherFile]
      simp [Entries.field?_cons, Scalar.same, Scalar.quantity?]
    · rw [file, otherFile]
      exact (List.reverse_perm _).symm
  have alike := ((load_determined_by_winners first).1 second same).resolve_left
    (by simp [refused, otherRefused])
  exact ⟨first, second, standard, otherStandard, same, refused, otherRefused, alike⟩

end ClosureCapture.Settings
