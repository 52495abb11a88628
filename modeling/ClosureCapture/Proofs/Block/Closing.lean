import ClosureCapture.Proofs.Alias.Policies
import ClosureCapture.Proofs.CaptureList.Region

/-!
# Expansions keep delimiters closed

A block expression puts a text before the body that opens one brace for each scope, and a text
behind it that closes them.  The former is passed by a search wherever it stands.  The latter
cannot complete a comment or literal of the body, and begins with a line feed if the last line of
the body holds two slashes.  So the search through the body ends as it does in the capture list,
and meets every brace behind the body as code.
-/

namespace ClosureCapture

open Delimiter Delimiter.Search

namespace Block

/-! ### Statements -/

theorem exists_value {binding : Binding} (spelled : binding.IsSpelled) :
    ∃ text, (∀ character ∈ text, IsIdle character) ∧
      ((value binding).toList = text ∨ (value binding).toList = text ++ ['(', ')']) := by
  have idleName : ∀ character ∈ binding.name.toList, IsIdle character :=
    fun character member => (spelled.name character member).isIdle
  cases called : binding.mode with
  | move => exact ⟨_, idleName, .inl (by simp [value, called])⟩
  | ref =>
      refine ⟨'&' :: binding.name.toList, ?_, .inl (by simp [value, called])⟩
      exact List.forall_mem_cons.2 ⟨by decide, idleName⟩
  | refMut =>
      refine ⟨['&', 'm', 'u', 't', ' '] ++ binding.name.toList, ?_, .inl (by simp [value, called])⟩
      exact List.forall_mem_append.2 ⟨isIdle_of_all (by decide), idleName⟩
  | method method =>
      refine ⟨binding.name.toList ++ '.' :: method.toList, ?_, .inr (by simp [value, called])⟩
      refine List.forall_mem_append.2 ⟨idleName, List.forall_mem_cons.2 ⟨by decide, ?_⟩⟩
      exact fun character member => (spelled.method method called character member).isIdle

theorem passes_semicolon (rest : List Char) (nested : List Bracket) :
    Passes [';'] rest nested nested :=
  passes_mute (by decide) (by decide) (by decide) rest nested

theorem passes_statement {binding : Binding} (spelled : binding.IsSpelled) (rest : List Char)
    (nested : List Bracket) : Passes (statement binding).toList rest nested nested := by
  obtain ⟨text, idleText, called⟩ := exists_value spelled
  have idle : ∀ character ∈
      ['l', 'e', 't', ' '] ++ (binding.name.toList ++ ([' ', '=', ' '] ++ text)),
      IsIdle character := by
    refine List.forall_mem_append.2 ⟨isIdle_of_all (by decide), List.forall_mem_append.2 ⟨?_, ?_⟩⟩
    · exact fun character member => (spelled.name character member).isIdle
    · exact List.forall_mem_append.2 ⟨isIdle_of_all (by decide), idleText⟩
  rcases called with plain | call
  · have split : (statement binding).toList =
        (['l', 'e', 't', ' '] ++ (binding.name.toList ++ ([' ', '=', ' '] ++ text))) ++ [';'] := by
      simp [statement, plain]
    rw [split]
    exact (passes_idle idle (by decide) rest nested).append (passes_semicolon rest nested)
  · have split : (statement binding).toList =
        (['l', 'e', 't', ' '] ++ (binding.name.toList ++ ([' ', '=', ' '] ++ text))) ++
          ([Bracket.round.opening] ++ ([Bracket.round.closing] ++ [';'])) := by
      simp [statement, call, Bracket.opening, Bracket.closing]
    rw [split]
    apply (passes_idle idle (by decide) _ nested).append
    apply (passes_opening .round _ nested).append
    exact (passes_closing .round _ nested).append (passes_semicolon rest nested)

theorem getLast?_statement (binding : Binding) :
    (statement binding).toList.getLast? = some ';' := by
  rw [statement, String.toList_append]
  exact List.getLast?_concat

/-! ### Frames -/

/-- A text before and one behind a body that put scopes around it. -/
structure IsFrame (scope : Scope) (front back : List Char) : Prop where
  passes : ∀ rest nested, Passes front rest nested (List.replicate scope.depth .curly ++ nested)
  clear : front.getLast?.any Text.isWord = false
  closes : ∀ character ∈ back, Text.isBlank character = true ∨ character = Bracket.curly.closing
  count : back.count Bracket.curly.closing = scope.depth
  broken : endsInComment scope.innermost = true → back = [] ∨ ∃ rest, back = '\n' :: rest

theorem clear_of_isBlank {blanks : List Char}
    (allBlank : ∀ blank ∈ blanks, Text.isBlank blank = true) :
    blanks.getLast?.any Text.isWord = false := by
  cases isLast : blanks.getLast? with
  | none => rfl
  | some last => exact Text.isWord_of_isBlank (allBlank last (List.mem_of_getLast? isLast))

theorem clear_append {front back : List Char} (clearFront : front.getLast?.any Text.isWord = false)
    (clearBack : back.getLast?.any Text.isWord = false) :
    (front ++ back).getLast?.any Text.isWord = false := by
  rw [List.getLast?_append]
  cases isLast : back.getLast? with
  | none => exact clearFront
  | some last => simpa [isLast] using clearBack

theorem count_of_isBlank {blanks : List Char}
    (allBlank : ∀ blank ∈ blanks, Text.isBlank blank = true) :
    blanks.count Bracket.curly.closing = 0 := by
  apply List.count_eq_zero_of_not_mem
  intro member
  exact absurd (allBlank _ member) (by decide)

theorem isFrame_body {text : String} {front back : List Char}
    (blankFront : ∀ blank ∈ front, Text.isBlank blank = true)
    (blankBack : ∀ blank ∈ back, Text.isBlank blank = true)
    (broken : endsInComment text = true → back = [] ∨ ∃ rest, back = '\n' :: rest) :
    IsFrame (.body text) front back where
  passes := passes_blanks blankFront
  clear := clear_of_isBlank blankFront
  closes := fun character member => .inl (blankBack character member)
  count := count_of_isBlank blankBack
  broken := broken

theorem IsFrame.bind {binding : Binding} {inner : Scope}
    {front back lead gap space last : List Char} (frame : IsFrame inner front back)
    (spelled : binding.IsSpelled)
    (allBlank : ∀ blank ∈ lead ++ gap ++ space ++ last, Text.isBlank blank = true)
    (ended : endsInComment inner.innermost = true → back = [] → ∃ rest, last = '\n' :: rest) :
    IsFrame (.bind binding inner)
      (lead ++ ([Bracket.curly.opening] ++
        (gap ++ ((statement binding).toList ++ (space ++ front)))))
      (back ++ (last ++ [Bracket.curly.closing])) := by
  simp only [List.forall_mem_append] at allBlank
  obtain ⟨⟨⟨blankLead, blankGap⟩, blankSpace⟩, blankLast⟩ := allBlank
  constructor
  · intro rest nested
    have deeper : List.replicate (Scope.bind binding inner).depth Bracket.curly ++ nested =
        List.replicate inner.depth .curly ++ .curly :: nested := by
      rw [Scope.depth, List.replicate_succ', List.append_assoc, List.singleton_append]
    rw [deeper]
    apply (passes_blanks blankLead _ nested).append
    apply (passes_opening .curly _ nested).append
    apply (passes_blanks blankGap _ _).append
    apply (passes_statement spelled _ _).append
    exact (passes_blanks blankSpace _ _).append (frame.passes rest _)
  · have clearStatement : (statement binding).toList.getLast?.any Text.isWord = false := by
      rw [getLast?_statement]
      decide
    apply clear_append (clear_of_isBlank blankLead)
    apply clear_append (by decide)
    apply clear_append (clear_of_isBlank blankGap)
    apply clear_append clearStatement
    exact clear_append (clear_of_isBlank blankSpace) frame.clear
  · intro character member
    simp only [List.mem_append, List.mem_singleton] at member
    rcases member with inside | blank | rfl
    · exact frame.closes character inside
    · exact .inl (blankLast character blank)
    · exact .inr rfl
  · rw [List.count_append, List.count_append, frame.count, count_of_isBlank blankLast,
      List.count_singleton_self, Nat.zero_add]
    rfl
  · intro comment
    right
    rcases frame.broken comment with nothing | ⟨rest, rfl⟩
    · obtain ⟨rest, rfl⟩ := ended comment nothing
      exact ⟨_, by rw [nothing]; rfl⟩
    · exact ⟨_, rfl⟩

/-! ### The layouts are frames -/

theorem exists_frame_inline (scope : Scope)
    (spelled : ∀ binding ∈ scope.bindings, binding.IsSpelled) :
    ∃ front back, (inlineText scope).toList = front ++ (scope.innermost.toList ++ back) ∧
      IsFrame scope front back ∧ (back = [] → inlineText scope = scope.innermost) := by
  induction scope with
  | body text =>
      refine ⟨[], [], by simp [inlineText, Scope.innermost], ?_, fun _ => rfl⟩
      exact isFrame_body (by simp) (by simp) fun _ => .inl rfl
  | bind binding inner ih =>
      rw [Scope.bindings, List.forall_mem_cons] at spelled
      obtain ⟨front, back, split, frame, bare⟩ := ih spelled.2
      have last : ∃ last, (if endsInComment (inlineText inner) then "\n" else " ").toList = [last] ∧
          Text.isBlank last = true ∧ (endsInComment (inlineText inner) = true → last = '\n') := by
        split
        · exact ⟨'\n', rfl, by decide, fun _ => rfl⟩
        · next noComment => exact ⟨' ', rfl, by decide, fun comment => absurd comment noComment⟩
      obtain ⟨last, gap, blank, lineEnd⟩ := last
      refine ⟨_, _, ?_, @IsFrame.bind _ _ _ _ [] [' '] [' '] [last] frame spelled.1 ?_ ?_, by simp⟩
      · simp [inlineText, split, gap, Scope.innermost, Bracket.opening, Bracket.closing]
      · simp only [List.nil_append, List.cons_append, List.forall_mem_cons, List.not_mem_nil,
          false_implies, implies_true, and_true]
        exact ⟨by decide, by decide, blank⟩
      · -- With nothing behind the body, the text that is looked at is the body itself.
        intro comment nothing
        rw [← bare nothing] at comment
        exact ⟨[], by rw [lineEnd comment]⟩

theorem prettyLines_ne_nil (level : Nat) (scope : Scope) : prettyLines level scope ≠ [] := by
  cases scope <;> simp [prettyLines]

theorem toList_prettyLines_bind (level : Nat) (binding : Binding) (inner : Scope) :
    ("\n".intercalate (prettyLines level (.bind binding inner))).toList =
      (indentation level).toList ++ ('\x7b' :: '\n' :: ((indentation (level + 1)).toList ++
        ((statement binding).toList ++ ('\n' ::
          (("\n".intercalate (prettyLines (level + 1) inner)).toList ++
            ('\n' :: ((indentation level).toList ++ ['\x7d']))))))) := by
  rw [prettyLines, List.append_assoc, List.cons_append, List.cons_append, List.nil_append,
    String.intercalate_cons_cons, String.intercalate_cons_of_ne_nil (by simp),
    String.intercalate_append_of_ne_nil (prettyLines_ne_nil _ inner) (by simp)]
  simp

theorem isBlank_lineEnd : ∀ blank ∈ ['\n'], Text.isBlank blank = true := by
  intro blank member
  rw [List.mem_singleton.1 member]
  decide

theorem isBlank_indentation (level : Nat) :
    ∀ blank ∈ (indentation level).toList, Text.isBlank blank = true := by
  intro blank member
  rw [indentation, String.toList_ofList] at member
  rw [List.eq_of_mem_replicate member]
  decide

theorem exists_frame_pretty (level : Nat) (scope : Scope)
    (spelled : ∀ binding ∈ scope.bindings, binding.IsSpelled) :
    ∃ front back, ("\n".intercalate (prettyLines level scope)).toList =
      front ++ (scope.innermost.toList ++ back) ∧ IsFrame scope front back := by
  induction scope generalizing level with
  | body text =>
      refine ⟨(indentation level).toList, [], by simp [prettyLines, Scope.innermost], ?_⟩
      exact isFrame_body (isBlank_indentation level) (by simp) fun _ => .inl rfl
  | bind binding inner ih =>
      rw [Scope.bindings, List.forall_mem_cons] at spelled
      obtain ⟨front, back, split, frame⟩ := ih (level + 1) spelled.2
      have blank : ∀ level, ∀ blank ∈ '\n' :: (indentation level).toList,
          Text.isBlank blank = true :=
        fun level => List.forall_mem_append.2 ⟨isBlank_lineEnd, isBlank_indentation level⟩
      refine ⟨_, _, ?_, @IsFrame.bind _ _ _ _ (indentation level).toList
        ('\n' :: (indentation (level + 1)).toList) ['\n'] ('\n' :: (indentation level).toList)
        frame spelled.1 ?_ fun _ _ => ⟨_, rfl⟩⟩
      · rw [toList_prettyLines_bind, split]
        simp [Scope.innermost, Bracket.opening, Bracket.closing]
      · simp only [List.forall_mem_append]
        exact ⟨⟨⟨isBlank_indentation level, blank _⟩, isBlank_lineEnd⟩, blank _⟩

/-- A rendered list is its body in a frame, with a line feed behind a body whose last line holds
two slashes. -/
theorem exists_frame (layout : Layout) (scope : Scope)
    (spelled : ∀ binding ∈ scope.bindings, binding.IsSpelled) :
    ∃ front back, (render layout scope).toList = front ++ (scope.innermost.toList ++ back) ∧
      IsFrame scope front back ∧
      (endsInComment scope.innermost = true → ∃ rest, back = '\n' :: rest) := by
  cases scope with
  | body text =>
      by_cases comment : endsInComment text = true
      · refine ⟨[], ['\n'], by simp [render, closeBody, comment, Scope.innermost], ?_,
          fun _ => ⟨[], rfl⟩⟩
        exact isFrame_body (by simp) isBlank_lineEnd fun _ => .inr ⟨[], rfl⟩
      · refine ⟨[], [], by simp [render, closeBody, comment, Scope.innermost], ?_,
          fun found => absurd found comment⟩
        exact isFrame_body (by simp) (by simp) fun _ => .inl rfl
  | bind binding inner =>
      have framed : ∃ front back, (render layout (.bind binding inner)).toList =
          front ++ (inner.innermost.toList ++ back) ∧ IsFrame (.bind binding inner) front back := by
        cases layout with
        | inline =>
            obtain ⟨front, back, split, frame, -⟩ := exists_frame_inline _ spelled
            exact ⟨front, back, split, frame⟩
        | pretty => exact exists_frame_pretty 0 _ spelled
      obtain ⟨front, back, split, frame⟩ := framed
      refine ⟨front, back, split, frame, ?_⟩
      intro comment
      rcases frame.broken comment with nothing | broken
      · have count := frame.count
        simp [nothing, Scope.depth] at count
      · exact broken

/-! ### Line comments -/

theorem hasSlashes_cons {text : List Char} (found : hasSlashes text = true) (first : Char) :
    hasSlashes (first :: text) = true := by
  rw [hasSlashes.eq_def]
  split <;> simp_all

theorem hasSlashes_append (front inside : List Char) :
    hasSlashes (front ++ '/' :: '/' :: inside) = true := by
  induction front with
  | nil => rfl
  | cons first front ih => exact hasSlashes_cons ih first

theorem lastLine_append {line : List Char} (oneLine : '\n' ∉ line) (front : List Char) :
    Text.lastLine (front ++ line) = Text.lastLine front ++ line := by
  have kept : ∀ character ∈ line.reverse, (character != '\n') = true := by
    intro character member
    rw [bne_iff_ne]
    rintro rfl
    exact oneLine (List.mem_reverse.1 member)
  rw [Text.lastLine, List.reverse_append, List.takeWhile_append_of_pos kept, List.reverse_append,
    List.reverse_reverse]
  rfl

/-- A line comment on the last line of a text is noticed. -/
theorem endsInComment_of_eq_append {text : String} {front inside : List Char}
    (split : text.toList = front ++ '/' :: '/' :: inside) (oneLine : '\n' ∉ inside) :
    endsInComment text = true := by
  rw [endsInComment, split, lastLine_append (by simpa using oneLine)]
  exact hasSlashes_append _ inside

/-! ### The search through a frame -/

theorem passes_closers {text : List Char}
    (closes : ∀ character ∈ text,
      Text.isBlank character = true ∨ character = Bracket.curly.closing)
    (rest : List Char) (nested : List Bracket) :
    Passes text rest
      (List.replicate (text.count Bracket.curly.closing) .curly ++ nested) nested := by
  induction text with
  | nil => exact passes_nil rest nested
  | cons first text ih =>
      obtain ⟨closesFirst, closesText⟩ := List.forall_mem_cons.1 closes
      rcases closesFirst with blank | rfl
      · have different : first ≠ Bracket.curly.closing := by
          rintro rfl
          exact absurd blank (by decide)
        rw [List.count_cons_of_ne different]
        exact (passes_blank blank _ _).append (ih closesText)
      · rw [List.count_cons_self]
        exact (passes_closing .curly _ _).append (ih closesText)

theorem walk_closers {text before rest : List Char} (split : text = before ++ rest)
    (closes : ∀ character ∈ text,
      Text.isBlank character = true ∨ character = Bracket.curly.closing)
    (previous : Option Char) :
    Walk ⟨List.replicate (text.count Bracket.curly.closing) .curly, previous, text ++ [')']⟩
      ⟨List.replicate (rest.count Bracket.curly.closing) .curly, before.getLast?.or previous,
        rest ++ [')']⟩ := by
  subst split
  have walk := passes_closers (List.forall_mem_append.1 closes).1 (rest ++ [')'])
    (List.replicate (rest.count Bracket.curly.closing) .curly) previous
  rwa [List.replicate_append_replicate, ← List.count_append, ← List.append_assoc] at walk

/-- The search comes through a frame and the body in it with one brace open for each scope.  It may
have passed the line feed behind the body as the end of a comment. -/
theorem IsFrame.exists_walk {scope : Scope} {front back trail : List Char}
    (frame : IsFrame scope front back)
    (broken : endsInComment scope.innermost = true → ∃ rest, back = '\n' :: rest)
    (allBlank : ∀ blank ∈ trail, Text.isBlank blank = true)
    (closed : ∀ previous : Option Char, previous.any Text.isWord = false →
      (Search.mk [] previous (scope.innermost.toList ++ (trail ++ [')']))).close .round [] =
        .ok [')']) :
    ∃ last later, (later = back ∨ back = '\n' :: later) ∧
      Walk ⟨[], some '(', front ++ (scope.innermost.toList ++ (back ++ [')']))⟩
        ⟨List.replicate scope.depth .curly, last, later ++ [')']⟩ := by
  have plain : ∀ character ∈ back ++ [')'], Literal.IsPlain character := by
    refine List.forall_mem_append.2 ⟨?_, by simp [Literal.IsPlain]⟩
    intro character member
    rcases frame.closes character member with blank | rfl
    · exact not_mem_of_isBlank blank (by decide)
    · simp [Literal.IsPlain, Bracket.closing]
  have ended : ∀ before inside, scope.innermost.toList = before ++ '/' :: '/' :: inside →
      '\n' ∉ inside → ∃ rest, back ++ [')'] = '\n' :: rest := by
    intro before inside split oneLine
    obtain ⟨rest, rfl⟩ := broken (endsInComment_of_eq_append split oneLine)
    exact ⟨_, rfl⟩
  have clear : (front.getLast?.or (some '(')).any Text.isWord = false := by
    cases isLast : front.getLast? with
    | none => decide
    | some last => simpa [isLast] using frame.clear
  obtain ⟨last, rest, alternative, walk⟩ :=
    exists_walk_of_close allBlank plain ended (closed _ clear)
  have opening := frame.passes (scope.innermost.toList ++ (back ++ [')'])) [] (some '(')
  rw [List.append_nil] at opening
  have whole := opening.trans (walk.within (List.replicate scope.depth .curly))
  rcases alternative with rfl | same
  · exact ⟨last, back, .inl rfl, whole⟩
  · cases back with
    | nil => simp at same
    | cons first later =>
        obtain ⟨rfl, rfl⟩ := List.cons.inj same
        exact ⟨last, later, .inr rfl, whole⟩

end Block

/-- The search behind `(` comes to the rest of a text, and no comment or literal starts there. -/
def Delimiter.MeetsCode (text rest : List Char) : Prop :=
  ∃ search, Walk ⟨[], some '(', text⟩ search ∧ search.rest = rest ∧
    Literal.after? search.previous rest = none

namespace Block

/-- A body that a capture list closes is closed in its frame, and everything behind it is code, but
for a line feed that may end a comment. -/
theorem IsFrame.close_eq {scope : Scope} {front back trail : List Char}
    (frame : IsFrame scope front back)
    (broken : endsInComment scope.innermost = true → ∃ rest, back = '\n' :: rest)
    (allBlank : ∀ blank ∈ trail, Text.isBlank blank = true)
    (closed : ∀ previous : Option Char, previous.any Text.isWord = false →
      (Search.mk [] previous (scope.innermost.toList ++ (trail ++ [')']))).close .round [] =
        .ok [')']) :
    Delimiter.close .round [] (some '(')
        (front ++ (scope.innermost.toList ++ (back ++ [')']))) = .ok [')'] ∧
      ∀ before mark after, back ++ [')'] = before ++ mark :: after → mark ≠ '\n' →
        MeetsCode (front ++ (scope.innermost.toList ++ (back ++ [')']))) (mark :: after) := by
  obtain ⟨last, later, alternative, walk⟩ := frame.exists_walk broken allBlank closed
  have closes : ∀ character ∈ later,
      Text.isBlank character = true ∨ character = Bracket.curly.closing := by
    rcases alternative with rfl | rfl
    · exact frame.closes
    · exact (List.forall_mem_cons.1 frame.closes).2
  have count : scope.depth = later.count Bracket.curly.closing := by
    rw [← frame.count]
    rcases alternative with rfl | rfl
    · rfl
    · exact List.count_cons_of_ne (by decide)
  rw [count] at walk
  constructor
  · have ending := (walk.trans (walk_closers (List.append_nil later).symm closes last)).close_eq
      .round []
    simp only [Search.close, List.count_nil, List.replicate_zero, List.nil_append] at ending
    rw [ending]
    exact close_last (Literal.after?_mute (by decide) _ [])
  · intro before mark after split different
    obtain ⟨passed, behind⟩ : ∃ passed, later ++ [')'] = passed ++ mark :: after := by
      rcases alternative with rfl | rfl
      · exact ⟨before, split⟩
      · cases before with
        | nil => exact absurd (List.cons.inj split).1.symm different
        | cons first before => exact ⟨before, (List.cons.inj split).2⟩
    have mute : mark ∉ ['"', '\'', '/', 'b', 'r'] := by
      have member : mark ∈ later ++ [')'] := behind ▸ List.mem_append_right _ List.mem_cons_self
      rcases List.mem_append.1 member with inside | isLast
      · rcases closes mark inside with blank | rfl
        · exact not_mem_of_isBlank blank (by decide)
        · decide
      · rw [List.mem_singleton.1 isLast]
        decide
    obtain ⟨rest, same, inside⟩ := exists_append_of_append_eq_append behind (by simp)
    refine ⟨_, walk.trans (walk_closers inside closes last), same.symm, ?_⟩
    exact Literal.after?_mute mute _ after

end Block

namespace CaptureList

theorem depth_scope (list : CaptureList String) : list.scope.depth = list.clauses.length := by
  rw [scope]
  induction list.clauses with
  | nil => rfl
  | cons clause clauses ih => exact congrArg (· + 1) ih

theorem innermost_scope (list : CaptureList String) : list.scope.innermost = list.body :=
  Scope.innermost_ofBindings _ _

theorem exists_render_of_expandText {text : List Char} {list : CaptureList String}
    {target : Value} {settings : Settings} {expansion : String}
    (isRust : Target.ofValue? target = some .rust) (parsed : parse text = .ok list)
    (expanded : (expandText text target settings).outcome = .ok expansion) :
    ∃ layout, expansion = Block.render layout list.scope := by
  rw [(expandText_of_parse_ok parsed target settings).1, expand] at expanded
  split at expanded
  · simp at expanded
  · simp only [Scope.render, isRust] at expanded
    split at expanded
    · next layout _ => exact ⟨layout, (Except.ok.inj expanded).symm⟩
    · simp at expanded

/-- An argument text that is closed expands to a closed block expression, given that a blank stands
before its body.  The expansion is the body with a text before it and one behind it; the latter is
made of blanks and one brace for each clause.  Nothing of it and nothing behind it is taken into a
comment or literal of the body, but for a line feed that ends a comment. -/
theorem expandText_keeps_closed {text : List Char} {list : CaptureList String} {target : Value}
    {settings : Settings} {expansion : String} (isRust : Target.ofValue? target = some .rust)
    (parsed : parse text = .ok list) (spaced : list.SpacedBody text)
    (closed : Delimiter.close .round [] (some '(') (text ++ [')']) = .ok [')'])
    (expanded : (expandText text target settings).outcome = .ok expansion) :
    Delimiter.close .round [] (some '(') (expansion.toList ++ [')']) = .ok [')'] ∧
      ∃ front back, expansion.toList = front ++ (list.body.toList ++ back) ∧
        (∀ character ∈ back, Text.isBlank character = true ∨ character = '\x7d') ∧
        back.count '\x7d' = list.clauses.length ∧
        ∀ before mark after, back ++ [')'] = before ++ mark :: after → mark ≠ '\n' →
          Delimiter.MeetsCode (expansion.toList ++ [')']) (mark :: after) := by
  obtain ⟨layout, rfl⟩ := exists_render_of_expandText isRust parsed expanded
  have spelled : ∀ binding ∈ list.scope.bindings, binding.IsSpelled := by
    rw [scope, Scope.bindings_ofBindings]
    exact List.forall_mem_map.2 fun clause member =>
      (isWorded_of_parse parsed clause member).isSpelled
  obtain ⟨front, back, split, frame, broken⟩ := Block.exists_frame layout list.scope spelled
  obtain ⟨trail, allBlank, closedBody⟩ := exists_trail_of_close parsed spaced closed
  rw [← innermost_scope] at closedBody
  obtain ⟨closedBlock, code⟩ := frame.close_eq broken allBlank closedBody
  have whole : (Block.render layout list.scope).toList ++ [')'] =
      front ++ (list.scope.innermost.toList ++ (back ++ [')'])) := by
    rw [split, List.append_assoc, List.append_assoc]
  rw [whole]
  rw [innermost_scope] at split
  exact ⟨closedBlock, front, back, split, frame.closes, frame.count.trans list.depth_scope, code⟩

/-- The arguments `clone x, ref mut y in f("}") // )` with a line feed. -/
theorem expandText_keeps_closed_commented :
    ∃ list expansion,
      parse "clone x, ref mut y in f(\"\x7d\") // )\n".toList = .ok list ∧
      (expandText "clone x, ref mut y in f(\"\x7d\") // )\n".toList (.string "rust") {}).outcome =
        .ok expansion ∧
      Delimiter.close .round [] (some '(') (expansion.toList ++ [')']) = .ok [')'] ∧
      ∃ front back, expansion.toList = front ++ (list.body.toList ++ back) ∧
        (∀ character ∈ back, Text.isBlank character = true ∨ character = '\x7d') ∧
        back.count '\x7d' = 2 ∧
        ∀ before mark after, back ++ [')'] = before ++ mark :: after → mark ≠ '\n' →
          Delimiter.MeetsCode (expansion.toList ++ [')']) (mark :: after) := by
  have parsed : parse "clone x, ref mut y in f(\"\x7d\") // )\n".toList =
      .ok ⟨[⟨.method "clone", "x", some 0⟩, ⟨.refMut, "y", some 9⟩], "f(\"\x7d\") // )",
        some 22⟩ := by
    with_unfolding_all rfl
  have expanded :
      (expandText "clone x, ref mut y in f(\"\x7d\") // )\n".toList (.string "rust") {}).outcome =
        .ok "\x7b let x = x.clone(); \x7b let y = &mut y; f(\"\x7d\") // )\n\x7d \x7d" := by
    with_unfolding_all rfl
  have closed : Delimiter.close .round [] (some '(')
      ("clone x, ref mut y in f(\"\x7d\") // )\n".toList ++ [')']) = .ok [')'] := by
    with_unfolding_all rfl
  exact ⟨_, _, parsed, expanded, expandText_keeps_closed (by decide) parsed
    ⟨21, ' ', rfl, by with_unfolding_all rfl, by decide⟩ closed expanded⟩

end CaptureList

end ClosureCapture
