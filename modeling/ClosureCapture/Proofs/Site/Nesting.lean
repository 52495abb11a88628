import ClosureCapture.Proofs.Site.Segments

/-!
# Sites inside sites

The arguments of a site are scanned again for sites of their own.  The search for the closing
delimiter of the site has walked over the same characters before, with the delimiters of all
pairs on one stack.  The two agree: they skip the same comments and literals, and at every site
that the scan meets, the search has pushed a pair that it closes again before the arguments end.
So no site inside the arguments is broken.

A site that is cut out of its source is found again, alone and whole.
-/

namespace ClosureCapture

open Delimiter

/-! ### The search and the scan side by side -/

section

variable {inner : Bracket} {outer : List Bracket} {previous : Option Char}
variable {text more : List Char}

/-- On the way to a closing delimiter, what is skipped ends before the delimiter. -/
theorem after?_append_of_close (nonempty : text ≠ [])
    (closed : close inner outer previous (text ++ more) = .ok more) :
    Literal.after? previous (text ++ more) =
      (Literal.after? previous text).map (· ++ more) := by
  cases skipped : Literal.after? previous (text ++ more) with
  | none => rw [(Literal.after?_isLocal previous).none_of_append skipped]; rfl
  | some after =>
      obtain ⟨first, tail, rfl⟩ := List.exists_cons_of_ne_nil nonempty
      rw [List.cons_append] at skipped closed
      rw [close_skip skipped] at closed
      obtain ⟨rest, rfl⟩ := (close_eq_ok closed).1
      rw [← List.cons_append] at skipped
      rw [(Literal.after?_isLocal previous).some_of_append skipped]
      rfl

/-- A character of code leaves a stack behind that is closed at the same place. -/
theorem exists_close_of_code {first : Char} {tail : List Char}
    (code : Literal.after? previous (first :: tail) = none)
    (longer : more.length < (first :: tail).length)
    (closed : close inner outer previous (first :: tail) = .ok more) :
    ∃ inner outer, close inner outer (some first) tail = .ok more := by
  cases opens : Bracket.ofOpening? first with
  | some bracket =>
      rw [close_open code opens] at closed
      exact ⟨bracket, inner :: outer, closed⟩
  | none =>
  by_cases closes : Bracket.ofClosing? first = none
  · rw [close_plain code opens closes] at closed
    exact ⟨inner, outer, closed⟩
  by_cases right : first = inner.closing
  · subst right
    cases outer with
    | nil =>
        rw [close_last code] at closed
        obtain rfl := Except.ok.inj closed
        exact absurd longer (Nat.lt_irrefl _)
    | cons next others =>
        rw [close_pop code] at closed
        exact ⟨next, others, closed⟩
  · rw [close_mismatch code opens closes right] at closed
    simp at closed

/-- An open site is closed on the way, and the search goes on behind it with its old stack. -/
theorem exists_close_of_open? {name : String} (isName : Text.isName name = true)
    {other : Option Char} {bracket : Bracket} {inside : List Char}
    (opened : Site.open? name.toList other text = some (bracket, inside))
    (closed : close inner outer previous (text ++ more) = .ok more) :
    ∃ rest, close bracket [] (some bracket.opening) inside = .ok (bracket.closing :: rest) ∧
      close inner outer (some bracket.closing) (rest ++ more) = .ok more := by
  obtain ⟨path, before, behind, -, -, whole⟩ := Site.exists_head_of_open? opened
  have quiet := Site.isQuiet_head_of_open? isName opened whole
  rw [whole, List.append_assoc, List.cons_append, close_quiet_append quiet] at closed
  -- The pair of the site lies on top of the stack of the search.
  have stacked := close_append bracket [] inner outer (some bracket.opening) (inside ++ more)
  rw [List.nil_append, closed] at stacked
  cases closedInside : close bracket [] (some bracket.opening) (inside ++ more) with
  | error fault => simp [closedInside, Except.bind] at stacked
  | ok found =>
      simp only [closedInside, Except.bind] at stacked
      obtain ⟨after, rfl⟩ : ∃ after, found = bracket.closing :: after := by
        have last := (close_eq_ok closedInside).2
        cases found with
        | nil => simp at last
        | cons delimiter after => exact ⟨after, by simpa using last⟩
      rw [List.head?_cons, List.tail_cons] at stacked
      obtain ⟨rest, rfl⟩ := (close_eq_ok stacked.symm).1
      rw [← List.cons_append] at closedInside
      exact ⟨rest, close_of_append (by simp) closedInside, stacked.symm⟩

/-- Behind every segment that the scan cuts off, the search goes on to the same delimiter. -/
theorem exists_close_of_cutBefore {name : String} (isName : Text.isName name = true)
    {other : Option Char} (agree : other.any Text.isWord = previous.any Text.isWord)
    {segment : Segment} {rest : List Char} (cut : segment.CutBefore name.toList other rest)
    (closed : close inner outer previous (segment.text ++ rest ++ more) = .ok more) :
    ∃ inner outer, close inner outer segment.text.getLast? (rest ++ more) = .ok more := by
  have nonempty : segment.text ++ rest ≠ [] :=
    List.append_ne_nil_of_left_ne_nil (Segment.text_ne_nil_of_cutBefore cut) rest
  have skips := after?_append_of_close nonempty closed
  obtain ⟨first, tail, whole⟩ := List.exists_cons_of_ne_nil nonempty
  cases segment with
  | literal passed =>
      have skipped : Literal.after? previous (passed ++ rest) = some rest := by
        rw [← Literal.after?_congr agree]
        exact cut.2
      simp only [Segment.text] at skips closed whole ⊢
      rw [skipped, Option.map_some, whole, List.cons_append] at skips
      rw [whole, List.cons_append, close_skip skips, ← List.cons_append, ← whole,
        lastBefore_append, lastBefore_append_self] at closed
      exact ⟨inner, outer, closed⟩
  | code character =>
      have code : Literal.after? previous (character :: rest) = none := by
        rw [← Literal.after?_congr agree]
        exact cut.1
      simp only [Segment.text, List.cons_append, List.nil_append] at skips closed
      rw [code, Option.map_none] at skips
      have longer : more.length < (character :: (rest ++ more)).length := by
        rw [List.length_cons, List.length_append]
        omega
      exact exists_close_of_code skips longer closed
  | site call =>
      obtain ⟨remaining, found, later⟩ := exists_close_of_open? isName cut.opened closed
      obtain rfl : rest = remaining := by simpa [cut.closed] using found
      have last : (Segment.site call).text.getLast? = some call.bracket.closing :=
        List.getLast?_concat
      rw [last]
      exact ⟨inner, outer, later⟩

/-- A text that a search has walked over up to a closing delimiter holds no broken site. -/
theorem exists_scanFrom_of_close {name : String} (isName : Text.isName name = true)
    {other : Option Char} (agree : other.any Text.isWord = previous.any Text.isWord)
    (closed : close inner outer previous (text ++ more) = .ok more) (offset line : Nat) :
    ∃ segments, Segment.scanFrom name.toList offset line other text = .ok segments := by
  -- The stack changes with every segment, but that the search succeeds from there on remains.
  induction size : text.length using Nat.strongRecOn
    generalizing text inner outer previous other offset line with
  | ind length ih =>
  by_cases empty : text = []
  · exact ⟨[], by rw [empty, Segment.scanFrom_nil]⟩
  rcases Segment.exists_cutBefore_or_broken name.toList other empty with
    ⟨segment, rest, rfl, cut⟩ | ⟨-, bracket, inside, fault, opened, failed⟩
  · obtain ⟨inner, outer, later⟩ := exists_close_of_cutBefore isName agree cut closed
    have shorter : rest.length < length := by
      have positive := List.length_pos_iff.2 (Segment.text_ne_nil_of_cutBefore cut)
      rw [List.length_append] at size
      omega
    obtain ⟨segments, scanned⟩ := ih rest.length shorter rfl later
      (offset + segment.text.length) (line + Text.newlines segment.text) rfl
    exact ⟨segment :: segments, by rw [Segment.scanFrom_cut cut, scanned]; rfl⟩
  · obtain ⟨rest, found, -⟩ := exists_close_of_open? isName opened closed
    simp [failed] at found

end

/-- The arguments of a closed site can be cut into segments. -/
theorem Site.ClosedBefore.exists_scan_arguments {name : String} (isName : Text.isName name = true)
    {previous : Option Char} {rest : List Char} {call : Site}
    (closedBefore : call.ClosedBefore name.toList previous rest) :
    ∃ segments, Segment.scan name.toList call.arguments = .ok segments := by
  have agree : (none : Option Char).any Text.isWord =
      (some call.bracket.opening).any Text.isWord := by
    cases call.bracket <;> decide
  exact exists_scanFrom_of_close isName agree closedBefore.closed 0 1

theorem Site.mayFollow_of_open? {name text : List Char} {previous : Option Char}
    {result : Bracket × List Char} (opened : Site.open? name previous text = some result) :
    Site.mayFollow previous = true := by
  simp only [Site.open?] at opened
  split at opened
  · next follows => exact follows
  · simp at opened

/-- A closed site is closed in the same way when it is cut out of its source. -/
theorem Site.ClosedBefore.alone {name rest : List Char} {previous : Option Char} {call : Site}
    (closedBefore : call.ClosedBefore name previous rest) : call.ClosedBefore name none [] := by
  have marked : '!' ∈ call.text := by
    obtain ⟨path, blanks, gap, -, -, head⟩ := closedBefore.exists_head
    simp [Site.text, head]
  have agree : (none : Option Char).any Text.isWord = previous.any Text.isWord := by
    have follows := Site.mayFollow_of_open? closedBefore.opened
    cases previous with
    | none => rfl
    | some character =>
        simp only [Site.mayFollow, Option.all_some, Bool.and_eq_true] at follows
        simpa using follows.1.symm
  have rejoined : call.arguments ++ call.bracket.closing :: rest =
      (call.arguments ++ [call.bracket.closing]) ++ rest := by simp
  refine ⟨?_, ?_, ?_⟩
  · have code := (Literal.after?_isLocal previous).none_of_append closedBefore.code
    rw [List.append_nil, ← code]
    exact Literal.after?_congr agree _
  · have opened := closedBefore.opened
    rw [rejoined] at opened
    rw [List.append_nil]
    exact Site.open?_of_append marked rfl opened
  · have closed := closedBefore.closed
    rw [rejoined, ← List.singleton_append] at closed
    exact close_of_append (by simp) closed

/-- A closed site is found again, as the only segment, when it is cut out of its source. -/
theorem Site.ClosedBefore.scan_text {name rest : List Char} {previous : Option Char} {call : Site}
    (closedBefore : call.ClosedBefore name previous rest) :
    Segment.scan name call.text = .ok [.site call] := by
  refine Segment.scanFrom_eq_ok_iff.2 ⟨by simp [Segment.text], ?_, trivial⟩
  exact closedBefore.alone

end ClosureCapture
