import ClosureCapture.Expansion
import ClosureCapture.Proofs.Lambda.Meaning

/-!
# The text of nested calls

Scopes become a text if and only if all captured names and methods are names of the language.  The
text opens a lambda for each scope, the outermost first, holds the body in parentheses, and closes
the lambdas in the opposite order, each with its argument behind it.  Otherwise the fault is about
the innermost binding with a word that is no name, and about its captured name before its method.
-/

namespace ClosureCapture

/-- The captured name of a binding, then its method if it has one. -/
def Binding.names (binding : Binding) : List String :=
  binding.name :: binding.mode.method?.toList

namespace Lambda

/-! ### Names -/

/-- A name of the language that is none of its keywords. -/
structure IsHostName (name : String) : Prop where
  spelled : ∃ first rest, name.toList = first :: rest ∧ Text.isNameStart first = true ∧
    ∀ part ∈ rest, Text.isNamePart part = true
  unreserved : name ∉ reservedWords

theorem isUsable_iff {name : String} : isUsable name = true ↔ IsHostName name := by
  rw [isUsable, Bool.and_eq_true, Bool.not_eq_true', List.contains_eq_mem, decide_eq_false_iff_not]
  constructor
  · rintro ⟨isName, unreserved⟩
    obtain ⟨first, rest, spelled, starts, parts⟩ := Text.exists_cons_of_isName isName
    exact ⟨⟨first, rest, spelled, starts, List.all_eq_true.1 parts⟩, unreserved⟩
  · rintro ⟨⟨first, rest, spelled, starts, parts⟩, unreserved⟩
    refine ⟨?_, unreserved⟩
    rw [Text.isName, spelled]
    exact Bool.and_eq_true_iff.2 ⟨starts, List.all_eq_true.2 parts⟩

theorem accepted_iff {binding : Binding} :
    Accepted binding ↔ ∀ name ∈ binding.names, IsHostName name := by
  simp only [Binding.names, List.forall_mem_cons, Option.mem_toList, ← isUsable_iff]
  exact ⟨fun accepted => ⟨accepted.name, accepted.method⟩, fun ⟨name, method⟩ => ⟨name, method⟩⟩

/-- The first word of a binding that is no name. -/
def Offends (binding : Binding) (name : String) : Prop :=
  ∃ before after, binding.names = before ++ name :: after ∧
    (∀ other ∈ before, IsHostName other) ∧ ¬ IsHostName name

theorem checkName_of_isHostName {name : String} (isName : IsHostName name) :
    checkName name = .ok () :=
  if_pos (isUsable_iff.2 isName)

theorem checkName_of_not_isHostName {name : String} (noName : ¬ IsHostName name) :
    checkName name = .error ⟨name⟩ :=
  if_neg fun usable => noName (isUsable_iff.1 usable)

/-- The name is checked before the method. -/
theorem value_eq_error_of_offends {binding : Binding} {name : String}
    (offends : Offends binding name) (wrappers : Wrappers) :
    value wrappers binding = .error ⟨name⟩ := by
  obtain ⟨captured, mode⟩ := binding
  obtain ⟨before, after, split, names, noName⟩ := offends
  cases before with
  | nil =>
      obtain ⟨rfl, -⟩ := List.cons.inj split
      simp only [value, checkName_of_not_isHostName noName]
      rfl
  | cons first before =>
      obtain ⟨rfl, called⟩ := List.cons.inj split
      have named := checkName_of_isHostName (names captured List.mem_cons_self)
      cases mode with
      | method method =>
          obtain ⟨rfl, rfl⟩ : before = [] ∧ name = method := by
            cases before <;> simp_all [Mode.method?]
          simp only [value, named, checkName_of_not_isHostName noName]
          rfl
      | _ => simp [Mode.method?] at called

theorem exists_offends {binding : Binding} (refused : ¬ Accepted binding) :
    ∃ name, Offends binding name := by
  by_cases named : IsHostName binding.name
  · have called : ∃ method ∈ binding.mode.method?, ¬ IsHostName method := by
      by_contra none
      push Not at none
      exact refused ⟨isUsable_iff.2 named, fun method member => isUsable_iff.2 (none method member)⟩
    obtain ⟨method, member, noName⟩ := called
    refine ⟨method, [binding.name], [], ?_, by simpa using named, noName⟩
    rw [Binding.names, Option.mem_def.1 member]
    rfl
  · exact ⟨binding.name, [], _, rfl, by simp, named⟩

/-! ### The text -/

/-- What stands behind a body: a line break if the last line holds `#`. -/
def bodyEnd (body : String) : String :=
  if '#' ∈ Text.lastLine body.toList then "\n" else ""

/-- The text of bindings, the first outermost, around a body. -/
def written (wrappers : Wrappers) (bindings : List Binding) (body : String) : String :=
  String.join (bindings.map fun binding => "(lambda " ++ binding.name ++ ": ") ++
    ("(" ++ body ++ bodyEnd body ++ ")") ++
    String.join (bindings.reverse.map fun binding =>
      ")(" ++ (wrappers.argument binding).text ++ ")")

theorem closeBody_eq (body : String) : closeBody body = body ++ bodyEnd body := by
  simp only [closeBody, endsInComment, bodyEnd, List.contains_iff_mem]
  split <;> simp

theorem written_cons (wrappers : Wrappers) (binding : Binding) (bindings : List Binding)
    (body : String) :
    written wrappers (binding :: bindings) body =
      "(lambda " ++ binding.name ++ ": " ++ written wrappers bindings body ++ ")(" ++
        (wrappers.argument binding).text ++ ")" := by
  simp [written, String.append_assoc]

/-! ### Rendering -/

theorem nested_of_accepted {scope : Scope}
    (accepted : ∀ binding ∈ scope.bindings, Accepted binding) (wrappers : Wrappers) :
    nested wrappers scope = .ok (written wrappers scope.bindings scope.innermost) := by
  induction scope with
  | body text =>
      rw [nested, closeBody_eq]
      simp [written, Scope.bindings, Scope.innermost, String.append_assoc]
  | bind binding inner ih =>
      obtain ⟨acceptedHere, acceptedInside⟩ := List.forall_mem_cons.1 accepted
      rw [nested, ih acceptedInside, acceptedHere.value_eq, Scope.bindings, Scope.innermost,
        written_cons]
      rfl

/-- The innermost of some bindings that has a word that is no name, and the first such word. -/
def OffendsInnermost (bindings : List Binding) (name : String) : Prop :=
  ∃ outer binding inner, bindings = outer ++ binding :: inner ∧ Offends binding name ∧
    ∀ other ∈ inner, ∀ word ∈ other.names, IsHostName word

theorem nested_of_offends {scope : Scope} {name : String}
    (offends : OffendsInnermost scope.bindings name) (wrappers : Wrappers) :
    nested wrappers scope = .error ⟨name⟩ := by
  induction scope with
  | body text =>
      obtain ⟨outer, binding, inner, split, -⟩ := offends
      simp [Scope.bindings] at split
  | bind first rest ih =>
      obtain ⟨outer, binding, inner, split, offending, named⟩ := offends
      cases outer with
      | nil =>
          -- The scopes inside are rendered, so that the fault is the one of the outermost binding.
          obtain ⟨rfl, rfl⟩ := List.cons.inj split
          have inside :=
            nested_of_accepted (fun other member => accepted_iff.2 (named other member)) wrappers
          rw [nested, inside]
          simp only [bind, Except.bind, value_eq_error_of_offends offending]
      | cons other outer =>
          obtain ⟨rfl, deeper⟩ := List.cons.inj split
          rw [nested, ih ⟨outer, binding, inner, deeper, offending, named⟩]
          rfl

theorem exists_offendsInnermost {bindings : List Binding}
    (refused : ¬ ∀ binding ∈ bindings, Accepted binding) :
    ∃ name, OffendsInnermost bindings name := by
  induction bindings with
  | nil => simp at refused
  | cons binding bindings ih =>
      by_cases inside : ∀ other ∈ bindings, Accepted other
      · have here : ¬ Accepted binding := fun accepted =>
          refused (List.forall_mem_cons.2 ⟨accepted, inside⟩)
        obtain ⟨name, offends⟩ := exists_offends here
        exact ⟨name, [], binding, bindings, rfl, offends,
          fun other member => accepted_iff.1 (inside other member)⟩
      · obtain ⟨name, outer, other, inner, rfl, offends⟩ := ih inside
        exact ⟨name, binding :: outer, other, inner, rfl, offends⟩

theorem nested_eq_ok_iff {wrappers : Wrappers} {scope : Scope} {text : String} :
    nested wrappers scope = .ok text ↔
      (∀ binding ∈ scope.bindings, Accepted binding) ∧
        text = written wrappers scope.bindings scope.innermost := by
  constructor
  · intro rendered
    have accepted : ∀ binding ∈ scope.bindings, Accepted binding := by
      by_contra refused
      obtain ⟨name, offends⟩ := exists_offendsInnermost refused
      simp [nested_of_offends offends] at rendered
    rw [nested_of_accepted accepted] at rendered
    exact ⟨accepted, (Except.ok.inj rendered).symm⟩
  · rintro ⟨accepted, rfl⟩
    exact nested_of_accepted accepted wrappers

theorem nested_eq_error_iff {wrappers : Wrappers} {scope : Scope} {fault : NameFault} :
    nested wrappers scope = .error fault ↔ OffendsInnermost scope.bindings fault.name := by
  constructor
  · intro failed
    have refused : ¬ ∀ binding ∈ scope.bindings, Accepted binding := by
      intro accepted
      simp [nested_of_accepted accepted] at failed
    obtain ⟨name, offends⟩ := exists_offendsInnermost refused
    rw [nested_of_offends offends] at failed
    obtain rfl := Except.error.inj failed
    exact offends
  · intro offends
    exact nested_of_offends offends wrappers

/-- Scopes are rendered if and only if all of their words are names of the language.  The text is
fixed then.  Otherwise the fault, which is reported without a place, is about the first word of the
innermost binding that is no name. -/
theorem render_exactly_on_names (wrappers : Wrappers) (outermost : Binding) (inside : Scope) :
    let scope := Scope.bind outermost inside
    (∀ text, render wrappers scope = .ok text ↔
      (∀ binding ∈ scope.bindings, ∀ name ∈ binding.names, IsHostName name) ∧
        text = written wrappers scope.bindings scope.innermost) ∧
    (∀ fault, render wrappers scope = .error fault ↔
      OffendsInnermost scope.bindings fault.name) ∧
    ∀ name, (ExpansionError.name ⟨name⟩).diagnostic? =
      some ⟨"'" ++ name ++ "' is not a valid Python identifier", none⟩ := by
  intro scope
  refine ⟨fun text => ?_, fun fault => nested_eq_error_iff, fun name => rfl⟩
  simp only [← accepted_iff]
  exact nested_eq_ok_iff

end Lambda

end ClosureCapture
