import ClosureCapture.Proofs.Settings.Outcome

/-!
# Which settings get through

Targets and layouts are checked as values and names by their display forms.  The display form of a
value that is no text starts with a digit or has a sign or bracket in it, so that it is no name,
but for five words.
-/

namespace ClosureCapture

namespace Text

/-- Characters that no name has and that show in numbers, dates, bytes and collections. -/
def stops : List Char := ['.', '+', '-', '[', '\x7b', '\'', '"']

theorem isName_of_mem_stops {text : String} {stop : Char} (isStop : stop ∈ stops)
    (member : stop ∈ text.toList) : isName text = false := by
  have none : stops.any isNamePart = false := by decide +kernel
  rw [Bool.eq_false_iff]
  intro name
  exact List.any_eq_false.1 none stop isStop (isNamePart_of_isName name member)

theorem isNameStart_of_isDigit {digit : Char} (isDigit : digit.isDigit = true) :
    isNameStart digit = false := by
  have all : ∀ code < 58, 48 ≤ code → isNameStart (Char.ofNat code) = false := by decide +kernel
  have bounds : (decide ('0'.val ≤ digit.val) && decide (digit.val ≤ '9'.val)) = true := isDigit
  simp only [Bool.and_eq_true, decide_eq_true_eq, UInt32.le_iff_toNat_le] at bounds
  have atLeast : 48 ≤ digit.toNat := bounds.1
  have atMost : digit.toNat ≤ 57 := bounds.2
  rw [← Char.ofNat_toNat digit]
  exact all digit.toNat (by omega) atLeast

theorem isName_toString (number : Nat) : isName (toString number) = false := by
  rw [Bool.eq_false_iff]
  intro name
  obtain ⟨first, rest, spelled, starts, -⟩ := exists_cons_of_isName name
  have digits : (toString number).toList = Nat.toDigits 10 number := by
    simp [toString, Nat.repr]
  have isDigit : first.isDigit = true :=
    Nat.isDigit_of_mem_toDigits (by decide) (by decide) (digits ▸ spelled ▸ List.mem_cons_self ..)
  rw [isNameStart_of_isDigit isDigit] at starts
  exact Bool.noConfusion starts

end Text

/-- Wherever its point is, a decimal number has a point or a signed exponent. -/
theorem Binary64.exists_stop_decimalText (digits : List Char) (point : Int) :
    ∃ stop ∈ Text.stops, stop ∈ decimalText digits point := by
  unfold decimalText
  split
  · refine ⟨'.', by decide, ?_⟩
    split
    · simp
    · split
      · simp
      · simp
  · by_cases negative : point - 1 < 0
    · exact ⟨'-', by decide, by simp [negative]⟩
    · exact ⟨'+', by decide, by simp [negative]⟩

theorem Binary64.exists_stop_text (negative : Bool) (mantissa : Nat) (exponent : Int) :
    ∃ stop ∈ Text.stops, stop ∈ (Binary64.finite negative mantissa exponent).text.toList := by
  have magnitude : ∃ stop ∈ Text.stops,
      stop ∈ if mantissa = 0 then ['0', '.', '0'] else positiveText mantissa exponent := by
    split
    · exact ⟨'.', by decide, by decide⟩
    · exact exists_stop_decimalText _ _
  obtain ⟨stop, isStop, member⟩ := magnitude
  refine ⟨stop, isStop, ?_⟩
  rw [text, String.toList_ofList]
  cases negative with
  | false => exact member
  | true => exact List.mem_cons_of_mem _ member

theorem Date.hyphen_mem_text (date : Date) : '-' ∈ date.text.toList := by
  simp [Date.text]

theorem Moment.hyphen_mem_text (moment : Moment) : '-' ∈ moment.text.toList := by
  simp [Moment.text, moment.date.hyphen_mem_text]

theorem exists_stop_bytesLiteral (bytes : List UInt8) :
    ∃ stop ∈ Text.stops, stop ∈ (bytesLiteral bytes).toList := by
  refine ⟨Text.quoteFor (bytes.map fun byte => Char.ofNat byte.toNat), ?_, by simp [bytesLiteral]⟩
  rw [Text.quoteFor]
  split <;> decide

/-- The values other than texts that are shown as names. -/
def wordValues : List Value :=
  [.null, .bool true, .bool false, .scalar (.float .nan), .scalar (.float (.infinity false))]

theorem Scalar.exists_text_or_mem_wordValues {scalar : Scalar}
    (named : Text.isName scalar.display = true) :
    (∃ text, scalar = .string text) ∨ Value.scalar scalar ∈ wordValues := by
  -- A character that no name has refutes the remaining cases.
  have stopped : ∀ {stop : Char}, stop ∈ Text.stops → stop ∉ scalar.display.toList := by
    intro stop isStop member
    rw [Text.isName_of_mem_stops isStop member] at named
    exact Bool.noConfusion named
  cases scalar with
  | null => exact .inr (by simp [wordValues])
  | bool value => exact .inr (by cases value <;> simp [wordValues])
  | int value =>
      cases value with
      | ofNat number =>
          have unnamed : Text.isName (Scalar.int (.ofNat number)).display = false :=
            Text.isName_toString number
          rw [unnamed] at named
          exact Bool.noConfusion named
      | negSucc number =>
          have negative : (Scalar.int (.negSucc number)).display = "-" ++ toString (number + 1) :=
            rfl
          exact absurd (by simp [negative]) (stopped (show '-' ∈ Text.stops by decide))
  | float value =>
      cases value with
      | nan => exact .inr (by simp [wordValues])
      | infinity negative =>
          cases negative with
          | false => exact .inr (by simp [wordValues])
          | true => exact absurd (by decide) (stopped (show '-' ∈ Text.stops by decide))
      | finite negative mantissa exponent =>
          obtain ⟨stop, isStop, member⟩ := Binary64.exists_stop_text negative mantissa exponent
          exact absurd member (stopped isStop)
  | string text => exact .inl ⟨text, rfl⟩
  | bytes value =>
      obtain ⟨stop, isStop, member⟩ := exists_stop_bytesLiteral value
      exact absurd member (stopped isStop)
  | date value => exact absurd value.hyphen_mem_text (stopped (by decide))
  | moment value => exact absurd value.hyphen_mem_text (stopped (by decide))

theorem Value.isName_display_iff {value : Value} :
    Text.isName value.display = true ↔
      (∃ text, value = .string text ∧ Text.isName text = true) ∨ value ∈ wordValues := by
  constructor
  · intro named
    cases value with
    | scalar scalar =>
        rcases Scalar.exists_text_or_mem_wordValues named with ⟨text, rfl⟩ | word
        · exact .inl ⟨text, rfl, named⟩
        · exact .inr word
    | list items =>
        have opened : '[' ∈ (Value.list items).display.toList := by
          simp [Value.display, Value.literal]
        rw [Text.isName_of_mem_stops (by decide) opened] at named
        exact Bool.noConfusion named
    | map entries =>
        have opened : '\x7b' ∈ (Value.map entries).display.toList := by
          simp [Value.display, Value.literal]
        rw [Text.isName_of_mem_stops (by decide) opened] at named
        exact Bool.noConfusion named
    | other object =>
        rw [Value.display, object.display_notName] at named
        exact Bool.noConfusion named
  · rintro (⟨text, rfl, named⟩ | word)
    · exact named
    · simp only [wordValues, List.mem_cons, List.not_mem_nil, or_false] at word
      rcases word with rfl | rfl | rfl | rfl | rfl
      all_goals decide +kernel

namespace Settings

variable {folder : Folder} {given : Option String} {environment : Environment}
  {overrides : Entries} {settings : Settings}

theorem checked_of_loadOn {platform : Platform} {changes : Entries Given}
    (loaded : loadOn platform folder given environment changes = .ok settings) :
    settings.Checked := by
  obtain ⟨file, -, merged⟩ := bind_eq_ok_iff.1 loaded
  exact checked_of_ofEntries merged

/-- Loaded settings have a known target and a known layout, and their names are texts that are
names, unless they are one of the words that stand for other values. -/
theorem load_legal_unless_word
    (loaded : load folder given environment overrides = .ok settings) :
    settings.target ∈ Target.labels.map Value.string ∧
      settings.renderMode ∈ Block.Layout.labels.map Value.string ∧
      ∀ name ∈ [settings.macroName, settings.refType, settings.refMutType],
        (∃ text, name = .string text ∧ Text.isName text = true) ↔ name ∉ wordValues := by
  have checked := checked_of_loadOn loaded
  refine ⟨checked.target, checked.renderMode, ?_⟩
  intro name member
  constructor
  · rintro ⟨text, rfl, -⟩
    simp [wordValues]
  · intro noWord
    exact (Value.isName_display_iff.1 (checked.names name member)).resolve_right noWord

/-- A truth value gets through as a macro name. -/
theorem load_legal_unless_word_true :
    ∃ settings, load ⟨[]⟩ none [] [(.string "macro_name", .bool true)] = .ok settings ∧
      settings.macroName = .bool true ∧ settings.target ∈ Target.labels.map Value.string ∧
      ¬ ∃ text, settings.macroName = .string text ∧ Text.isName text = true := by
  have loaded : load ⟨[]⟩ none [] [(.string "macro_name", .bool true)] =
      .ok { macroName := .bool true } := by with_unfolding_all rfl
  obtain ⟨target, -, legal⟩ := load_legal_unless_word loaded
  refine ⟨_, loaded, rfl, target, ?_⟩
  rw [legal (.bool true) (by simp)]
  simp [wordValues]

end Settings

end ClosureCapture
