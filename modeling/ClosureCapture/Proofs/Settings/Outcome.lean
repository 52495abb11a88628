import ClosureCapture.Proofs.Settings.File

/-!
# What entries make of settings

The settings of some entries are those of their names, each checked on its own, once all keys are
known.  Entries in another order therefore have the same outcome on every platform, unless what is
not a number is among their unknown keys, and a refusal tells which of the entries it is about.
-/

namespace ClosureCapture

/-- The values that name one of some kinds are the texts of their labels. -/
theorem Value.label_isSome_iff {Kind : Type} (kinds : List Kind) (label : Kind → String)
    {value : Value} :
    (value.text?.bind fun word => kinds.find? (label · == word)).isSome = true ↔
      value ∈ (kinds.map label).map Value.string := by
  rw [Option.isSome_bind]
  unfold Value.text?
  split
  · next text => simp
  · next other =>
      have unlike : ∀ kind ∈ kinds, Value.string (label kind) ≠ value := fun kind _ equal =>
        other _ equal.symm
      simpa using unlike

theorem Target.ofValue?_isSome_iff {value : Value} :
    (Target.ofValue? value).isSome = true ↔ value ∈ Target.labels.map Value.string :=
  Value.label_isSome_iff [Target.rust, .python] Target.label

theorem Block.Layout.ofValue?_isSome_iff {value : Value} :
    (Block.Layout.ofValue? value).isSome = true ↔ value ∈ Block.Layout.labels.map Value.string :=
  Value.label_isSome_iff [Block.Layout.inline, .pretty] Block.Layout.label

/-- What a refusal says about what is given for names and about the keys that are no texts. -/
def SettingsError.Concerns (given : String → Option Given) (foreign : List Scalar) :
    SettingsError → Prop
  | .unknownKeys keys =>
      ∀ key, key ∈ keys ↔
        (∃ name, key = .string name ∧ name ∉ Settings.keys ∧ (given name).isSome = true) ∨
          key ∈ foreign
  | .invalidPolicy value =>
      (given "alias_policy").map Given.value = some value ∧
        (given "alias_policy").bind Settings.policyOf? = none
  | .invalidTarget value =>
      (given "target").map Given.value = some value ∧ value ∉ Target.labels.map Value.string
  | .invalidLayout value =>
      (given "render_mode").map Given.value = some value ∧
        value ∉ Block.Layout.labels.map Value.string
  | .invalidName key value =>
      key ∈ ["macro_name", "ref_type", "ref_mut_type"] ∧
        (given key).map Given.value = some value ∧ Text.isName value.display = false
  | .fileNotFound _ | .malformedFile | .notAMap _ => False

theorem LoadFault.ofError_eq_refused_iff {error other : SettingsError} :
    ofError error = .refused other ↔ error = other ∧ error.isShowable = true := by
  unfold ofError
  cases error.isShowable <;> simp

namespace Settings

/-- Settings that are what is given for their names, or the defaults of names without anything. -/
structure Follows (settings : Settings) (given : String → Option Given) : Prop where
  aliasPolicy :
    (given "alias_policy").elim (some AliasPolicy.strict) policyOf? = some settings.aliasPolicy
  target : settings.target = ((given "target").map Given.value).getD (.string "rust")
  renderMode : settings.renderMode = ((given "render_mode").map Given.value).getD (.string "inline")
  macroName : settings.macroName = ((given "macro_name").map Given.value).getD (.string "capture")
  refType : settings.refType = ((given "ref_type").map Given.value).getD (.string "SharedRef")
  refMutType : settings.refMutType =
    ((given "ref_mut_type").map Given.value).getD (.string "MutRef")

variable {platform otherPlatform : Platform} {entries others : Entries Given} {fault : LoadFault}

/-- What is given for a name, as a value. -/
def valueOf? (entries : Entries Given) (name : String) : Option Value :=
  (entries.field? name).map Given.value

/-! ### Entries as they are given -/

section AsGiven

variable {entries : Entries}

theorem field?_asGiven (name : String) :
    entries.asGiven.field? name = (entries.field? name).map Given.document := by
  induction entries with
  | nil => rfl
  | cons entry entries ih =>
      obtain ⟨key, value⟩ := entry
      change Entries.field? ((key, Given.document value) :: Entries.asGiven entries) name = _
      rw [Entries.field?_cons, Entries.field?_cons, ih]
      split <;> rfl

theorem foreign_asGiven : entries.asGiven.foreign = entries.foreign.asGiven := by
  simp only [Entries.foreign, Entries.asGiven, List.filter_map]
  rfl

theorem distinct_asGiven (distinct : entries.Distinct) : entries.asGiven.Distinct :=
  List.pairwise_map.2 distinct

end AsGiven

/-! ### One setting -/

theorem policyIn_eq_ok_iff {default policy : AliasPolicy} :
    policyIn entries default = .ok policy ↔
      (entries.field? "alias_policy").elim (some default) policyOf? = some policy := by
  unfold policyIn
  cases entries.field? "alias_policy" with
  | none => simp
  | some given => cases named : policyOf? given <;> simp [named]

theorem policyIn_eq_error_iff {default : AliasPolicy} :
    policyIn entries default = .error fault ↔
      ∃ value, valueOf? entries "alias_policy" = some value ∧
        (entries.field? "alias_policy").bind policyOf? = none ∧
        fault = .ofError (.invalidPolicy value) := by
  unfold policyIn valueOf?
  cases entries.field? "alias_policy" with
  | none => simp
  | some given => cases named : policyOf? given <;> simp [named, eq_comm]

section Value

variable {key : String} {default value : Value} {passes : Value → Bool}
  {error : Value → SettingsError}

theorem valueIn_eq_ok_iff :
    valueIn entries key default passes error = .ok value ↔
      value = (valueOf? entries key).getD default ∧ (valueOf? entries key).all passes = true := by
  unfold valueIn valueOf?
  cases entries.field? key with
  | none => simp [eq_comm]
  | some given => cases passed : passes given.value <;> simp [passed, eq_comm]

theorem valueIn_eq_error_iff :
    valueIn entries key default passes error = .error fault ↔
      ∃ given, valueOf? entries key = some given ∧ passes given = false ∧
        fault = .ofError (error given) := by
  unfold valueIn valueOf?
  cases entries.field? key with
  | none => simp
  | some given => cases passed : passes given.value <;> simp [passed, @eq_comm _ _ fault]

end Value

/-! ### The keys -/

theorem unknownKeys_perm (perm : entries.Perm others) :
    (unknownKeys entries).Perm (unknownKeys others) :=
  (perm.map _).filter _

theorem pairwise_unknownKeys (distinct : entries.Distinct)
    (defined : .float .nan ∉ unknownKeys entries) :
    (unknownKeys entries).Pairwise fun first second => first.same second = false := by
  have apart : (unknownKeys entries).Pairwise fun first second =>
      first.same second = false ∨ first = .float .nan :=
    List.Pairwise.filter _ (List.pairwise_map.2 distinct)
  refine apart.imp_of_mem ?_
  intro first second member _ different
  exact different.resolve_right fun undefined => defined (undefined ▸ member)

theorem checkKeys_of_known (known : unknownKeys entries = []) :
    checkKeys platform entries = .ok () := by
  simp [checkKeys, known]

theorem checkKeys_of_sortable (unknown : unknownKeys entries ≠ [])
    (sortable : (unknownKeys entries).Pairwise Scalar.Comparable) :
    checkKeys platform entries =
      .error (.ofError (.unknownKeys (platform.listing (unknownKeys entries)))) := by
  have listed := Scalar.comparable_iff.2 sortable
  simp [checkKeys, Platform.listing?, unknown, listed]

theorem checkKeys_of_unsortable (unknown : unknownKeys entries ≠ [])
    (unsortable : ¬(unknownKeys entries).Pairwise Scalar.Comparable) :
    checkKeys platform entries = .error .unorderedKeys := by
  have unlisted := mt Scalar.comparable_iff.1 unsortable
  simp [checkKeys, Platform.listing?, unknown, unlisted]

theorem unknownKeys_of_checkKeys (checked : checkKeys platform entries = .ok ()) :
    unknownKeys entries = [] := by
  by_contra unknown
  by_cases sortable : (unknownKeys entries).Pairwise Scalar.Comparable
  · simp [checkKeys_of_sortable unknown sortable] at checked
  · simp [checkKeys_of_unsortable unknown sortable] at checked

/-- The unknown keys are the names without a setting and the keys that are no texts. -/
theorem mem_unknownKeys_iff (distinct : entries.Distinct) {key : Scalar} :
    key ∈ unknownKeys entries ↔
      (∃ name, key = .string name ∧ name ∉ keys ∧ (entries.field? name).isSome = true) ∨
        key ∈ entries.foreign.map Prod.fst := by
  have named : ∀ name, (∃ value, (Scalar.string name, value) ∈ entries) ↔
      (entries.field? name).isSome = true := by
    intro name
    simp only [Entries.mem_iff_field? distinct, Option.isSome_iff_exists]
  by_cases text : key.isText = true
  · obtain ⟨name, rfl⟩ := Scalar.isText_iff.1 text
    simp [unknownKeys, isKnownKey, Entries.foreign, Scalar.isText, ← named, and_comm]
  · have unknown : isKnownKey key = false := by
      cases key <;> simp_all [isKnownKey, Scalar.isText]
    have unnamed : ∀ name, key ≠ .string name := fun name equal =>
      text (Scalar.isText_iff.2 ⟨name, equal⟩)
    simp [unknownKeys, unknown, unnamed, Entries.foreign, text]

/-! ### All settings -/

theorem ofEntries_eq_ok_iff {settings : Settings} :
    ofEntries platform entries = .ok settings ↔
      unknownKeys entries = [] ∧ settings.Follows entries.field? ∧
        (valueOf? entries "target").all (fun value => (Target.ofValue? value).isSome) = true ∧
        (valueOf? entries "render_mode").all
          (fun value => (Block.Layout.ofValue? value).isSome) = true ∧
        ∀ key ∈ ["macro_name", "ref_type", "ref_mut_type"],
          (valueOf? entries key).all (Text.isName ·.display) = true := by
  rw [ofEntries]
  simp only [bind_eq_ok_iff, pure, Except.pure, Except.ok.injEq]
  constructor
  · rintro ⟨_, known, policy, policed, target, targeted, mode, laidOut, name, named, shared,
      sharedNamed, mutable, mutableNamed, rfl⟩
    obtain ⟨targetEq, targetPasses⟩ := valueIn_eq_ok_iff.1 targeted
    obtain ⟨modeEq, modePasses⟩ := valueIn_eq_ok_iff.1 laidOut
    obtain ⟨nameEq, namePasses⟩ := valueIn_eq_ok_iff.1 named
    obtain ⟨sharedEq, sharedPasses⟩ := valueIn_eq_ok_iff.1 sharedNamed
    obtain ⟨mutableEq, mutablePasses⟩ := valueIn_eq_ok_iff.1 mutableNamed
    refine ⟨unknownKeys_of_checkKeys known, ?_, targetPasses, modePasses, ?_⟩
    · exact ⟨policyIn_eq_ok_iff.1 policed, targetEq, modeEq, nameEq, sharedEq, mutableEq⟩
    · simp [namePasses, sharedPasses, mutablePasses]
  · rintro ⟨known, follows, targetPasses, modePasses, namesPass⟩
    refine ⟨(), checkKeys_of_known known, _, policyIn_eq_ok_iff.2 follows.aliasPolicy, _,
      valueIn_eq_ok_iff.2 ⟨follows.target, targetPasses⟩, _,
      valueIn_eq_ok_iff.2 ⟨follows.renderMode, modePasses⟩, _,
      valueIn_eq_ok_iff.2 ⟨follows.macroName, namesPass _ (by simp)⟩, _,
      valueIn_eq_ok_iff.2 ⟨follows.refType, namesPass _ (by simp)⟩, _,
      valueIn_eq_ok_iff.2 ⟨follows.refMutType, namesPass _ (by simp)⟩, rfl⟩

/-- Settings whose values have passed their checks. -/
structure Checked (settings : Settings) : Prop where
  target : settings.target ∈ Target.labels.map Value.string
  renderMode : settings.renderMode ∈ Block.Layout.labels.map Value.string
  names : ∀ name ∈ [settings.macroName, settings.refType, settings.refMutType],
    Text.isName name.display = true

theorem checked_of_ofEntries {settings : Settings}
    (loaded : ofEntries platform entries = .ok settings) : settings.Checked := by
  obtain ⟨-, follows, targetPasses, modePasses, namesPass⟩ := ofEntries_eq_ok_iff.1 loaded
  have passes : ∀ {key : String} {default : Value} {check : Value → Bool},
      (valueOf? entries key).all check = true → check default = true →
        check ((valueOf? entries key).getD default) = true := by
    intro key default check all passed
    cases found : valueOf? entries key with
    | none => exact passed
    | some value => simpa [found] using all
  refine ⟨?_, ?_, ?_⟩
  · rw [follows.target, ← Target.ofValue?_isSome_iff]
    exact passes targetPasses (by decide)
  · rw [follows.renderMode, ← Block.Layout.ofValue?_isSome_iff]
    exact passes modePasses (by decide)
  · intro name member
    simp only [List.mem_cons, List.not_mem_nil, or_false] at member
    rcases member with rfl | rfl | rfl
    · rw [follows.macroName]
      exact passes (namesPass _ (by simp)) (by decide)
    · rw [follows.refType]
      exact passes (namesPass _ (by simp)) (by decide)
    · rw [follows.refMutType]
      exact passes (namesPass _ (by simp)) (by decide)

theorem ofEntries_eq_error (failed : ofEntries platform entries = .error fault) :
    checkKeys platform entries = .error fault ∨ ∃ error, fault = .ofError error ∧
      error.Concerns entries.field? (entries.foreign.map Prod.fst) := by
  rw [ofEntries] at failed
  simp only [bind_eq_error_iff] at failed
  obtain unknown | ⟨_, _, unpoliced | ⟨_, _, untargeted | ⟨_, _, unlaid | ⟨_, _, unnamed |
    ⟨_, _, unshared | ⟨_, _, unmutable | ⟨_, _, done⟩⟩⟩⟩⟩⟩⟩ := failed
  · exact .inl unknown
  · obtain ⟨value, given, unlike, rfl⟩ := policyIn_eq_error_iff.1 unpoliced
    exact .inr ⟨_, rfl, given, unlike⟩
  · obtain ⟨value, given, unlike, rfl⟩ := valueIn_eq_error_iff.1 untargeted
    exact .inr ⟨_, rfl, given, mt Target.ofValue?_isSome_iff.2 (by simpa using unlike)⟩
  · obtain ⟨value, given, unlike, rfl⟩ := valueIn_eq_error_iff.1 unlaid
    exact .inr ⟨_, rfl, given, mt Block.Layout.ofValue?_isSome_iff.2 (by simpa using unlike)⟩
  · obtain ⟨value, given, unlike, rfl⟩ := valueIn_eq_error_iff.1 unnamed
    exact .inr ⟨_, rfl, by simp, given, unlike⟩
  · obtain ⟨value, given, unlike, rfl⟩ := valueIn_eq_error_iff.1 unshared
    exact .inr ⟨_, rfl, by simp, given, unlike⟩
  · obtain ⟨value, given, unlike, rfl⟩ := valueIn_eq_error_iff.1 unmutable
    exact .inr ⟨_, rfl, by simp, given, unlike⟩
  · simp [pure, Except.pure] at done

/-- A refusal is about what the entries give. -/
theorem concerns_of_ofEntries (lawful : platform.Lawful) (distinct : entries.Distinct)
    {error : SettingsError} (failed : ofEntries platform entries = .error (.refused error)) :
    error.Concerns entries.field? (entries.foreign.map Prod.fst) := by
  rcases ofEntries_eq_error failed with unchecked | ⟨other, same, concerns⟩
  · have unknown : unknownKeys entries ≠ [] := by
      intro known
      simp [checkKeys_of_known known] at unchecked
    by_cases sortable : (unknownKeys entries).Pairwise Scalar.Comparable
    · rw [checkKeys_of_sortable unknown sortable, Except.error.injEq,
        LoadFault.ofError_eq_refused_iff] at unchecked
      obtain ⟨rfl, -⟩ := unchecked
      intro key
      rw [(lawful.perm _).mem_iff, mem_unknownKeys_iff distinct]
    · simp [checkKeys_of_unsortable unknown sortable] at unchecked
  · obtain ⟨rfl, -⟩ := LoadFault.ofError_eq_refused_iff.1 same.symm
    exact concerns

/-! ### Entries in another order -/

theorem ofEntries_of_checkKeys (failed : checkKeys platform entries = .error fault) :
    ofEntries platform entries = .error fault := by
  rw [ofEntries, failed]
  rfl

theorem ofEntries_congr (checked : checkKeys platform entries = checkKeys otherPlatform others)
    (fields : ∀ name, entries.field? name = others.field? name) :
    ofEntries platform entries = ofEntries otherPlatform others := by
  simp only [ofEntries, policyIn, nameIn, valueIn, checked, fields]

/-- Two refusals of the same unknown keys, what is not a number being among them: they can be told
apart by the order of the keys, and by nothing else. -/
def RefusedAlike (first second : Except LoadFault Settings) : Prop :=
  ∃ keys others, first = .error (.refused (.unknownKeys keys)) ∧
    second = .error (.refused (.unknownKeys others)) ∧ keys.Perm others ∧ .float .nan ∈ keys

/-- Sorted keys in another order are reported alike. -/
theorem refusedKeys_of_perm {keys others : List Scalar} (unbroken : Scalar.Unbroken keys)
    (otherUnbroken : Scalar.Unbroken others) (perm : keys.Perm others)
    (sortable : keys.Pairwise Scalar.Comparable)
    (different : .float .nan ∉ keys →
      keys.Pairwise fun first second => first.same second = false) :
    let refused (keys : List Scalar) : Except LoadFault Settings :=
      .error (.ofError (.unknownKeys keys))
    refused keys = refused others ∨ RefusedAlike (refused keys) (refused others) := by
  have showable : SettingsError.isShowable (.unknownKeys others) =
      SettingsError.isShowable (.unknownKeys keys) := perm.symm.all_eq
  by_cases undefined : .float .nan ∈ keys
  · simp only [LoadFault.ofError, showable]
    split
    · exact .inr ⟨keys, others, rfl, rfl, perm, undefined⟩
    · exact .inl rfl
  · left
    rw [unbroken.eq_of_perm otherUnbroken perm sortable (different undefined) undefined]

/-- Entries in another order, on another platform, have the same outcome up to the order of unknown
keys of which one is not a number. -/
theorem ofEntries_of_perm (lawful : platform.Lawful) (otherLawful : otherPlatform.Lawful)
    (distinct : entries.Distinct) (perm : entries.Perm others)
    (fields : ∀ name, entries.field? name = others.field? name) :
    ofEntries platform entries = ofEntries otherPlatform others ∨
      RefusedAlike (ofEntries platform entries) (ofEntries otherPlatform others) := by
  have permKeys := unknownKeys_perm perm
  by_cases known : unknownKeys entries = []
  · have otherKnown : unknownKeys others = [] := List.nil_perm.1 (known ▸ permKeys)
    exact .inl (ofEntries_congr
      ((checkKeys_of_known known).trans (checkKeys_of_known otherKnown).symm) fields)
  have otherUnknown : unknownKeys others ≠ [] := fun empty =>
    known (List.perm_nil.1 (empty ▸ permKeys))
  by_cases sortable : (unknownKeys entries).Pairwise Scalar.Comparable
  · have otherSortable := (permKeys.pairwise_iff Scalar.Comparable.symm).1 sortable
    have permListed : (platform.listing (unknownKeys entries)).Perm
        (otherPlatform.listing (unknownKeys others)) :=
      (lawful.perm _).trans (permKeys.trans (otherLawful.perm _).symm)
    rw [ofEntries_of_checkKeys (checkKeys_of_sortable known sortable),
      ofEntries_of_checkKeys (checkKeys_of_sortable otherUnknown otherSortable)]
    refine refusedKeys_of_perm (lawful.unbroken _) (otherLawful.unbroken _) permListed
      (((lawful.perm _).pairwise_iff Scalar.Comparable.symm).2 sortable) fun defined => ?_
    rw [(lawful.perm _).pairwise_iff fun {first second} same =>
      Scalar.same_comm second first ▸ same]
    exact pairwise_unknownKeys distinct (mt (lawful.perm _).mem_iff.2 defined)
  · have otherUnsortable := mt (permKeys.pairwise_iff Scalar.Comparable.symm).2 sortable
    rw [ofEntries_of_checkKeys (checkKeys_of_unsortable known sortable),
      ofEntries_of_checkKeys (checkKeys_of_unsortable otherUnknown otherUnsortable)]
    exact .inl rfl

end Settings

end ClosureCapture
