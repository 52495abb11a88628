import ClosureCapture.Proofs.Lambda.Evaluation

/-!
# The meaning of rendered scopes

A capture list says how its clauses rebind names one after the other, each reading the value that
its name has before.  This file proves that the rendered scopes of a list do just that and then
evaluate its body.

References are calls of the wrappers by their names, and a clause can capture such a name.  A call
behind a clause that gives the name of a wrapper a new value finds this value in place of the
wrapper, so the theorem is about lists in which no reference comes behind such a clause.
-/

namespace ClosureCapture.Lambda

universe u

/-! ### Reading back what is rendered -/

theorem isNamePart_of_isUsable {name : String} (usable : isUsable name = true) :
    ∀ character ∈ name.toList, Text.isNamePart character = true := by
  intro character member
  simp only [isUsable, Bool.and_eq_true] at usable
  exact Text.isNamePart_of_isName usable.1 member

theorem steady_of_isUsable {name : String} (usable : isUsable name = true) :
    Steady name.toList := by
  have silent : loudCharacters.any Text.isNamePart = false := by decide +kernel
  refine steady_of_quiet fun character member loud => ?_
  exact List.any_eq_false.1 silent character loud (isNamePart_of_isUsable usable character member)

/-- The signs that stand behind a name in an expression. -/
def signs : List Char := ['(', ')', '.', ':']

theorem isNamePart_of_mem_signs {sign : Char} (member : sign ∈ signs) :
    Text.isNamePart sign = false := by
  have none : signs.any Text.isNamePart = false := by decide +kernel
  simpa using List.any_eq_false.1 none sign member

theorem takeName_end {name : String} (usable : isUsable name = true) :
    takeName name.toList = (name, []) := by
  have parts := isNamePart_of_isUsable usable
  rw [takeName, List.takeWhile_eq_self_iff.2 parts, List.dropWhile_eq_nil_iff.2 parts,
    String.ofList_toList]

theorem takeName_sign {name : String} (usable : isUsable name = true) {sign : Char}
    (member : sign ∈ signs) (behind : List Char) :
    takeName (name.toList ++ sign :: behind) = (name, sign :: behind) := by
  have parts := isNamePart_of_isUsable usable
  have ends : ¬ Text.isNamePart sign = true := by simp [isNamePart_of_mem_signs member]
  rw [takeName, List.takeWhile_append_of_pos parts, List.dropWhile_append_of_pos parts,
    List.takeWhile_cons_of_neg ends, List.dropWhile_cons_of_neg ends, List.append_nil,
    String.ofList_toList]

/-- No argument starts with a parenthesis. -/
theorem readArgument_group (text : List Char) : readArgument ('(' :: text) = none := by
  have ends : ¬ Text.isNamePart '(' = true := by
    simp [isNamePart_of_mem_signs (show '(' ∈ signs by decide)]
  have unnamed : isUsable "" = false := rfl
  simp [readArgument, takeName, List.takeWhile_cons_of_neg ends, unnamed]

namespace Argument

/-- The text of an argument. -/
def text : Argument → String
  | .name word => word
  | .call function argument => function ++ "(" ++ argument ++ ")"
  | .method object word => object ++ "." ++ word ++ "()"

/-- The names in an argument. -/
def names : Argument → List String
  | .name word => [word]
  | .call function argument => [function, argument]
  | .method object word => [object, word]

theorem readArgument_text {argument : Argument}
    (usable : ∀ name ∈ argument.names, isUsable name = true) :
    readArgument argument.text.toList = some argument := by
  cases argument with
  | name word =>
      have named := usable word (by simp [names])
      simp [readArgument, text, takeName_end named, named]
  | call function argument =>
      have called := usable function (by simp [names])
      have given := usable argument (by simp [names])
      have spelled : (call function argument).text.toList =
          function.toList ++ '(' :: (argument.toList ++ ')' :: []) := by
        simp [text]
      simp [readArgument, spelled, takeName_sign called (show '(' ∈ signs by decide),
        takeName_sign given (show ')' ∈ signs by decide), called, given]
  | method object word =>
      have named := usable object (by simp [names])
      have called := usable word (by simp [names])
      have spelled : (method object word).text.toList =
          object.toList ++ '.' :: (word.toList ++ '(' :: [')']) := by
        simp [text]
      simp [readArgument, spelled, takeName_sign named (show '.' ∈ signs by decide),
        takeName_sign called (show '(' ∈ signs by decide), named, called]

theorem steady_text {argument : Argument}
    (usable : ∀ name ∈ argument.names, isUsable name = true) :
    Steady argument.text.toList := by
  have steady : ∀ name ∈ argument.names, Steady name.toList :=
    fun name member => steady_of_isUsable (usable name member)
  cases argument with
  | name word => exact steady word (by simp [names])
  | call function argument =>
      have given := (steady argument (by simp [names])).balanced.group
      simpa [text] using (steady function (by simp [names])).append given
  | method object word =>
      have dot : Steady ['.'] := steady_of_quiet (by simp [loudCharacters])
      have nothing : Balanced [] := ⟨.code, rfl, rfl⟩
      have empty : Steady ['(', ')'] := nothing.group
      have called := (dot.append (steady word (by simp [names]))).append empty
      simpa [text] using (steady object (by simp [names])).append called

end Argument

theorem strip_append_newline (text : List Char) : strip (text ++ ['\n']) = strip text := by
  rw [strip, List.rdropWhile_concat_pos _ _ _ (by decide), strip]

theorem strip_closeBody (body : String) : strip (closeBody body).toList = strip body.toList := by
  unfold closeBody
  split
  · rw [String.toList_append]
    exact strip_append_newline body.toList
  · rfl

theorem strip_group (inside : List Char) :
    strip ('(' :: (inside ++ [')'])) = '(' :: (inside ++ [')']) := by
  rw [← List.cons_append, strip, List.rdropWhile_concat_neg _ _ _ (by decide),
    List.cons_append, List.dropWhile_cons_of_neg (by decide)]

theorem readForm_group {inside : List Char} (balanced : Balanced inside) :
    readForm ('(' :: (inside ++ [')'])) = .group inside := by
  simp [readForm, readArgument_group, balanced.takeGroup []]

theorem readForm_invocation {function inner text : List Char} {parameter : String}
    {argument : Argument} (balancedFunction : Balanced function)
    (isLambda : readLambda function = some (parameter, inner)) (balancedText : Balanced text)
    (isArgument : readArgument text = some argument) :
    readForm ('(' :: (function ++ ')' :: '(' :: (text ++ [')']))) =
      .invocation parameter inner argument := by
  simp [readForm, readInvocation, readArgument_group, balancedFunction.takeGroup,
    balancedText.takeGroup [], isLambda, isArgument]

theorem isPrimary_group {inside : List Char} (balanced : Balanced inside) :
    isPrimary ('(' :: (inside ++ [')'])) = true := by
  simp [isPrimary, balanced.takeGroup []]

theorem isPrimary_invocation {function text : List Char} (balancedFunction : Balanced function)
    (balancedText : Balanced text) :
    isPrimary ('(' :: (function ++ ')' :: '(' :: (text ++ [')']))) = true := by
  simp [isPrimary, balancedFunction.takeGroup, balancedText.takeGroup []]

/-- The text of a lambda. -/
def lambdaText (parameter : String) (inner : List Char) : List Char :=
  ['l', 'a', 'm', 'b', 'd', 'a', ' '] ++ (parameter.toList ++ ':' :: ' ' :: inner)

theorem readLambda_lambdaText {parameter : String} (usable : isUsable parameter = true)
    {inner : List Char} (primary : isPrimary inner = true) :
    readLambda (lambdaText parameter inner) = some (parameter, inner) := by
  have taken := takeName_sign usable (show ':' ∈ signs by decide) (' ' :: inner)
  simp only [lambdaText, List.cons_append, List.nil_append, readLambda, taken]
  rw [if_pos ⟨usable, primary⟩]

theorem steady_lambdaText {parameter : String} (usable : isUsable parameter = true)
    {inner : List Char} (steady : Steady inner) : Steady (lambdaText parameter inner) := by
  have keyword : Steady ['l', 'a', 'm', 'b', 'd', 'a', ' '] :=
    steady_of_quiet (by simp [loudCharacters])
  have colon : Steady [':', ' '] := steady_of_quiet (by simp [loudCharacters])
  exact keyword.append ((steady_of_isUsable usable).append (colon.append steady))

/-! ### Evaluating rendered scopes -/

/-- Wrappers that can be called by their names. -/
structure Wrappers.Usable (wrappers : Wrappers) : Prop where
  shared : isUsable wrappers.shared = true
  mutable : isUsable wrappers.mutable = true

/-- A binding of a name, by a method with a name where it has one. -/
structure Accepted (binding : Binding) : Prop where
  name : isUsable binding.name = true
  method : ∀ method ∈ binding.mode.method?, isUsable method = true

instance (binding : Binding) : Decidable (Accepted binding) :=
  decidable_of_iff
    (isUsable binding.name = true ∧ ∀ method ∈ binding.mode.method?, isUsable method = true)
    ⟨fun ⟨name, method⟩ => ⟨name, method⟩, fun accepted => ⟨accepted.name, accepted.method⟩⟩

/-- The argument that the name of a binding is rebound to. -/
def Wrappers.argument (wrappers : Wrappers) (binding : Binding) : Argument :=
  match binding.mode with
  | .move => .name binding.name
  | .ref => .call wrappers.shared binding.name
  | .refMut => .call wrappers.mutable binding.name
  | .method method => .method binding.name method

theorem Accepted.value_eq {binding : Binding} (accepted : Accepted binding)
    (wrappers : Wrappers) :
    value wrappers binding = .ok (wrappers.argument binding).text := by
  obtain ⟨name, mode⟩ := binding
  have named : checkName name = .ok () := if_pos accepted.name
  cases mode with
  | method method =>
      have called : checkName method = .ok () := if_pos (accepted.method method rfl)
      simp only [value, named, called]
      rfl
  | _ =>
      simp only [value, named]
      rfl

theorem Accepted.isUsable_of_mem_names {binding : Binding} (accepted : Accepted binding)
    {wrappers : Wrappers} (usable : wrappers.Usable) :
    ∀ name ∈ (wrappers.argument binding).names, isUsable name = true := by
  obtain ⟨name, mode⟩ := binding
  cases mode with
  | move => simpa [Wrappers.argument, Argument.names] using accepted.name
  | ref => simpa [Wrappers.argument, Argument.names] using ⟨usable.shared, accepted.name⟩
  | refMut => simpa [Wrappers.argument, Argument.names] using ⟨usable.mutable, accepted.name⟩
  | method method =>
      simpa [Wrappers.argument, Argument.names] using
        ⟨accepted.name, accepted.method method rfl⟩

section

variable {m : Type u → Type u} {Meaning : Type u} [Monad m] (host : Host m Meaning)

/-- Entering scopes: each argument is evaluated where it stands, the wrappers included. -/
def Host.enter (wrappers : Wrappers) (surroundings : Surroundings m Meaning) : Scope → m Meaning
  | .body text => host.evaluate text.toList surroundings
  | .bind binding inner => do
      let value ← host.argument surroundings (wrappers.argument binding)
      enter wrappers (host.bind surroundings binding.name value) inner

theorem Host.evaluate_closeBody (body : String) (surroundings : Surroundings m Meaning) :
    host.evaluate (closeBody body).toList surroundings =
      host.evaluate body.toList surroundings :=
  host.evaluate_of_strip_eq (strip_closeBody body) surroundings

/-- Nested scopes are a group, or a group that is called, and evaluating them enters them. -/
theorem Host.exists_nested_eq {wrappers : Wrappers} (usable : wrappers.Usable) {scope : Scope}
    (accepted : ∀ binding ∈ scope.bindings, Accepted binding)
    (bindable : ∀ binding ∈ scope.bindings, host.canonical binding.name ≠ unbindable)
    (complete : Complete scope.innermost.toList) :
    ∃ text, nested wrappers scope = .ok text ∧ Steady text.toList ∧
      isPrimary text.toList = true ∧
      ∀ surroundings, host.evaluate text.toList surroundings =
        host.enter wrappers surroundings scope := by
  induction scope with
  | body body =>
      have balanced : Balanced (closeBody body).toList := complete.balanced_closeBody
      have spelled : ("(" ++ closeBody body ++ ")").toList =
          '(' :: ((closeBody body).toList ++ [')']) := by
        simp
      refine ⟨_, rfl, ?_⟩
      rw [spelled]
      refine ⟨balanced.group, isPrimary_group balanced, fun surroundings => ?_⟩
      have form : readForm (strip ('(' :: ((closeBody body).toList ++ [')']))) =
          .group (closeBody body).toList := by
        rw [strip_group, readForm_group balanced]
      rw [host.evaluate_of_group form, host.evaluate_closeBody]
      rfl
  | bind binding inner ih =>
      have acceptedHere := accepted binding (by simp [Scope.bindings])
      obtain ⟨inside, rendered, steady, primary, entered⟩ :=
        ih (fun other member => accepted other (by simp [Scope.bindings, member]))
          (fun other member => bindable other (by simp [Scope.bindings, member])) complete
      have names := acceptedHere.isUsable_of_mem_names usable
      have function := (steady_lambdaText acceptedHere.name steady).balanced
      have argument := (Argument.steady_text names).balanced
      have spelled : ("(lambda " ++ binding.name ++ ": " ++ inside ++ ")(" ++
            (wrappers.argument binding).text ++ ")").toList =
          '(' :: (lambdaText binding.name inside.toList ++ ')' :: '(' ::
            ((wrappers.argument binding).text.toList ++ [')'])) := by
        simp [lambdaText]
      refine ⟨"(lambda " ++ binding.name ++ ": " ++ inside ++ ")(" ++
        (wrappers.argument binding).text ++ ")", ?_, ?_⟩
      · simp only [nested, rendered, acceptedHere.value_eq wrappers]
        rfl
      rw [spelled]
      refine ⟨?_, isPrimary_invocation function argument, fun surroundings => ?_⟩
      · simpa using function.group.append argument.group
      · have form := readForm_invocation function
          (readLambda_lambdaText acceptedHere.name primary) argument
          (Argument.readArgument_text names)
        have stripped := strip_group (lambdaText binding.name inside.toList ++ ')' :: '(' ::
          (wrappers.argument binding).text.toList)
        simp only [List.append_assoc, List.cons_append] at stripped
        rw [← stripped] at form
        rw [host.evaluate_of_invocation form (bindable binding (by simp [Scope.bindings]))]
        simp only [entered]
        rfl

/-! ### Running the clauses -/

/-- What a mode makes of a value. -/
def Host.rebound (shared mutable value : Meaning) : Mode String → m Meaning
  | .move => pure value
  | .ref => host.call shared value
  | .refMut => host.call mutable value
  | .method method => host.method method value

/-- The surroundings behind clauses, which run from the first to the last: each of them rebinds
its identifier to what its mode makes of the previous value. -/
def Host.capture (shared mutable : Meaning) (surroundings : Surroundings m Meaning)
    (clauses : List (Clause String)) : m (Surroundings m Meaning) :=
  clauses.foldlM (fun current clause => do
    let previous ← host.read current clause.identifier
    let value ← host.rebound shared mutable previous clause.mode
    return host.bind current clause.identifier value) surroundings

/-- The name of the wrapper that a mode calls. -/
def Wrappers.name? (wrappers : Wrappers) : Mode String → Option String
  | .ref => some wrappers.shared
  | .refMut => some wrappers.mutable
  | _ => none

/-- No wrapper is called behind a clause that gives its name a new value. -/
def Hygienic (canonical : String → String) (wrappers : Wrappers)
    (clauses : List (Clause String)) : Prop :=
  clauses.Pairwise fun earlier later => earlier.mode ≠ .move →
    ∀ name ∈ wrappers.name? later.mode, canonical earlier.identifier ≠ canonical name

instance (canonical : String → String) (wrappers : Wrappers) (clauses : List (Clause String)) :
    Decidable (Hygienic canonical wrappers clauses) :=
  inferInstanceAs (Decidable (List.Pairwise _ clauses))

/-- The wrapper that a mode calls is found under its name. -/
def Host.Finds (wrappers : Wrappers) (shared mutable : Meaning)
    (surroundings : Surroundings m Meaning) : Mode String → Prop
  | .ref => host.read surroundings wrappers.shared = pure shared
  | .refMut => host.read surroundings wrappers.mutable = pure mutable
  | _ => True

namespace Host

variable {host} {wrappers : Wrappers} {shared mutable : Meaning}
  {surroundings : Surroundings m Meaning}

theorem read_bind_of_ne {name other : String}
    (different : host.canonical name ≠ host.canonical other) (value : Meaning) :
    host.read (host.bind surroundings name value) other = host.read surroundings other :=
  Function.update_of_ne (Ne.symm different) _ _

/-- A name can be bound to the value that it has. -/
theorem bind_eq_self {name : String} {value : Meaning}
    (found : host.read surroundings name = pure value) :
    host.bind surroundings name value = surroundings := by
  rw [bind, ← found]
  exact Function.update_eq_self _ _

theorem Finds.bind {mode : Mode String}
    (finds : host.Finds wrappers shared mutable surroundings mode) {name : String}
    (safe : ∀ wrapper ∈ wrappers.name? mode, host.canonical name ≠ host.canonical wrapper)
    (value : Meaning) :
    host.Finds wrappers shared mutable (host.bind surroundings name value) mode := by
  cases mode with
  | ref => exact (read_bind_of_ne (safe _ rfl) value).trans finds
  | refMut => exact (read_bind_of_ne (safe _ rfl) value).trans finds
  | _ => trivial

theorem Finds.exists_read_eq {mode : Mode String}
    (finds : host.Finds wrappers shared mutable surroundings mode) {wrapper : String}
    (called : wrapper ∈ wrappers.name? mode) :
    ∃ value, host.read surroundings wrapper = pure value := by
  cases mode with
  | ref =>
      obtain rfl := Option.some.inj called
      exact ⟨shared, finds⟩
  | refMut =>
      obtain rfl := Option.some.inj called
      exact ⟨mutable, finds⟩
  | _ => simp [Wrappers.name?] at called

variable [LawfulMonad m]

/-- Where the wrappers are found, an argument is what its mode makes of the name's value. -/
theorem Finds.argument_eq {binding : Binding}
    (finds : host.Finds wrappers shared mutable surroundings binding.mode) :
    host.argument surroundings (wrappers.argument binding) =
      host.read surroundings binding.name >>= fun previous =>
        host.rebound shared mutable previous binding.mode := by
  obtain ⟨name, mode⟩ := binding
  cases mode with
  | move => simp [Wrappers.argument, argument, rebound]
  | ref =>
      have found : host.read surroundings wrappers.shared = pure shared := finds
      simp [Wrappers.argument, argument, rebound, found]
  | refMut =>
      have found : host.read surroundings wrappers.mutable = pure mutable := finds
      simp [Wrappers.argument, argument, rebound, found]
  | method method => simp [Wrappers.argument, argument, rebound]

theorem capture_cons (clause : Clause String) (clauses : List (Clause String)) :
    host.capture shared mutable surroundings (clause :: clauses) =
      host.read surroundings clause.identifier >>= fun previous =>
        host.rebound shared mutable previous clause.mode >>= fun value =>
          host.capture shared mutable (host.bind surroundings clause.identifier value) clauses := by
  simp [capture]

/-- The scopes of hygienic clauses are entered as the clauses run. -/
theorem enter_ofBindings {clauses : List (Clause String)}
    (hygienic : Hygienic host.canonical wrappers clauses)
    (finds : ∀ clause ∈ clauses, host.Finds wrappers shared mutable surroundings clause.mode)
    (body : String) :
    host.enter wrappers surroundings (.ofBindings (clauses.map (·.binding)) body) =
      host.capture shared mutable surroundings clauses >>= host.evaluate body.toList := by
  induction clauses generalizing surroundings with
  | nil => simp [capture, Scope.ofBindings, enter]
  | cons clause clauses ih =>
      obtain ⟨here, later⟩ := List.pairwise_cons.1 hygienic
      have findsHere : host.Finds wrappers shared mutable surroundings clause.binding.mode :=
        finds clause (by simp)
      have findsLater : ∀ other ∈ clauses,
          host.Finds wrappers shared mutable surroundings other.mode :=
        fun other member => finds other (by simp [member])
      have entered : host.enter wrappers surroundings
            (.ofBindings ((clause :: clauses).map (·.binding)) body) =
          host.read surroundings clause.identifier >>= fun previous =>
            host.rebound shared mutable previous clause.mode >>= fun value =>
              host.enter wrappers (host.bind surroundings clause.identifier value)
                (.ofBindings (clauses.map (·.binding)) body) := by
        rw [← bind_assoc]
        exact congrArg (· >>= _) findsHere.argument_eq
      rw [entered, capture_cons]
      by_cases safe : ∀ other ∈ clauses, ∀ wrapper ∈ wrappers.name? other.mode,
          host.canonical clause.identifier ≠ host.canonical wrapper
      · have next : ∀ value, host.enter wrappers
              (host.bind surroundings clause.identifier value)
              (.ofBindings (clauses.map (·.binding)) body) =
            host.capture shared mutable (host.bind surroundings clause.identifier value) clauses >>=
              host.evaluate body.toList := by
          intro value
          exact ih later fun other member =>
            (findsLater other member).bind (safe other member) value
        simp only [next, bind_assoc]
      · -- A wrapper is captured, so it is moved, and what it is bound to is the wrapper itself.
        push Not at safe
        obtain ⟨other, member, wrapper, called, same⟩ := safe
        have moved : clause.mode = .move := by
          by_contra changed
          exact here other member changed wrapper called same
        obtain ⟨value, found⟩ := (findsLater other member).exists_read_eq called
        have foundHere : host.read surroundings clause.identifier = pure value := by
          rw [read, same]
          exact found
        simp only [foundHere, moved, rebound, pure_bind, bind_eq_self foundHere]
        exact ih later findsLater

end Host

theorem Host.exists_render_eq {wrappers : Wrappers} (usable : wrappers.Usable) (scope : Scope)
    (accepted : ∀ binding ∈ scope.bindings, Accepted binding)
    (bindable : ∀ binding ∈ scope.bindings, host.canonical binding.name ≠ unbindable)
    (complete : Complete scope.innermost.toList) :
    ∃ text, render wrappers scope = .ok text ∧
      ∀ surroundings, host.evaluate text.toList surroundings =
        host.enter wrappers surroundings scope := by
  cases scope with
  | body body => exact ⟨closeBody body, rfl, host.evaluate_closeBody body⟩
  | bind binding inner =>
      obtain ⟨text, rendered, -, -, entered⟩ :=
        host.exists_nested_eq usable accepted bindable complete
      exact ⟨text, rendered, entered⟩

/-- A capture list whose names are accepted is rendered as an expression, and where the wrappers
are found under their names, evaluating it runs the clauses from the first to the last and then
evaluates the body in the surroundings that they leave.  No reference may come behind a clause
that gives the name of its wrapper a new value, for it would call that value. -/
theorem Host.evaluate_render [LawfulMonad m] (list : CaptureList String) (wrappers : Wrappers)
    (shared mutable : Meaning) (surroundings : Surroundings m Meaning) (usable : wrappers.Usable)
    (sharedFound : host.read surroundings wrappers.shared = pure shared)
    (mutableFound : host.read surroundings wrappers.mutable = pure mutable)
    (accepted : ∀ clause ∈ list.clauses, Accepted clause.binding)
    (bindable : ∀ clause ∈ list.clauses, host.canonical clause.identifier ≠ unbindable)
    (hygienic : Hygienic host.canonical wrappers list.clauses)
    (complete : Complete list.body.toList) :
    ∃ text, render wrappers list.scope = .ok text ∧
      host.evaluate text.toList surroundings =
        host.capture shared mutable surroundings list.clauses >>=
          host.evaluate list.body.toList := by
  have ofClauses : ∀ {property : Binding → Prop},
      (∀ clause ∈ list.clauses, property clause.binding) →
        ∀ binding ∈ list.scope.bindings, property binding := by
    intro property holds
    simpa [CaptureList.scope] using holds
  have innermost : list.scope.innermost = list.body := Scope.innermost_ofBindings _ list.body
  obtain ⟨text, rendered, entered⟩ := host.exists_render_eq usable list.scope
    (ofClauses accepted) (ofClauses bindable) (by rwa [innermost])
  refine ⟨text, rendered, ?_⟩
  have finds : ∀ clause ∈ list.clauses,
      host.Finds wrappers shared mutable surroundings clause.mode := by
    intro clause _
    cases clause.mode with
    | ref => exact sharedFound
    | refMut => exact mutableFound
    | _ => trivial
  rw [entered]
  exact Host.enter_ofBindings hygienic finds list.body

end

/-- A host whose values are their own descriptions and whose other expressions are names with a
comment behind them. -/
def describing : Host (Except String) String where
  canonical := id
  call callee value := .ok (callee ++ "(" ++ value ++ ")")
  method name value := .ok (value ++ "." ++ name ++ "()")
  other text surroundings := surroundings (takeName text).1

/-- Some names and what they mean; no other name does. -/
def someNames : Surroundings (Except String) String
  | "x" => .ok "1"
  | "y" => .ok "2"
  | "SharedRef" => .ok "Shared"
  | "MutRef" => .ok "Mutable"
  | name => .error name

/-- Wrappers for the host that describes its values. -/
def describers : Wrappers := ⟨"SharedRef", "MutRef"⟩

theorem describers_usable : describers.Usable := ⟨by decide +kernel, by decide +kernel⟩

theorem describing_evaluate_commented (surroundings : Surroundings (Except String) String) :
    describing.evaluate "x # shared".toList surroundings = surroundings "x" := by
  have form : readForm (strip "x # shared".toList) = .other := by decide +kernel
  have named : (takeName (strip "x # shared".toList)).1 = "x" := by decide +kernel
  rw [describing.evaluate_of_other form, ← named]
  rfl

/-- A list that captures a name three times, and moves a wrapper. -/
def movedWrapper : CaptureList String where
  clauses := [⟨.ref, "x", none⟩, ⟨.method "clone", "x", none⟩, ⟨.move, "SharedRef", none⟩,
    ⟨.refMut, "y", none⟩, ⟨.ref, "x", none⟩]
  body := "x # shared"

theorem evaluate_render_movedWrapper :
    ∃ text, render describers movedWrapper.scope = .ok text ∧
      describing.evaluate text.toList someNames = .ok "Shared(Shared(1).clone())" := by
  obtain ⟨text, rendered, evaluated⟩ := describing.evaluate_render movedWrapper
    describers "Shared" "Mutable" someNames describers_usable rfl rfl (by decide +kernel)
    (by decide) (by decide) ⟨.comment, rfl, .inr rfl⟩
  refine ⟨text, rendered, evaluated.trans ?_⟩
  exact (congrArg _ (funext describing_evaluate_commented)).trans rfl

/-- A list with a reference behind a reference to its wrapper. -/
def wrappedWrapper : CaptureList String where
  clauses := [⟨.ref, "SharedRef", none⟩, ⟨.ref, "x", none⟩]
  body := "x # shared"

/-- The second reference calls what the first one has made of the wrapper. -/
theorem evaluate_render_wrappedWrapper :
    (∃ text, render describers wrappedWrapper.scope = .ok text ∧
      describing.evaluate text.toList someNames = .ok "Shared(Shared)(1)") ∧
    (describing.capture "Shared" "Mutable" someNames wrappedWrapper.clauses >>=
      describing.evaluate wrappedWrapper.body.toList) = .ok "Shared(1)" := by
  constructor
  · obtain ⟨text, rendered, entered⟩ := describing.exists_render_eq describers_usable
      wrappedWrapper.scope (by decide +kernel) (by decide) ⟨.comment, rfl, .inr rfl⟩
    refine ⟨text, rendered, (entered someNames).trans ?_⟩
    exact describing_evaluate_commented _
  · exact (congrArg _ (funext describing_evaluate_commented)).trans rfl

end ClosureCapture.Lambda
