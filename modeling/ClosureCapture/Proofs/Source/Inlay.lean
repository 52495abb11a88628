import ClosureCapture.Proofs.Block.Closing
import ClosureCapture.Proofs.Site.Path
import ClosureCapture.Proofs.Source.Independence
import Mathlib.Data.List.TakeWhile

/-!
# What stands in place of a site

A site is replaced by a block, by calls of lambdas or, when it captures nothing, by its own body,
with a line feed behind a body that may end in a comment.  A site that cannot be expanded stays.
In each case the text starts with something visible, has code in it, and ends in no comma.  This
file proves it and relates the text of segments to what they become.
-/

namespace ClosureCapture

namespace Text

/-- The last character of a text that is no blank. -/
def lastVisible (text : List Char) : Option Char :=
  text.reverse.find? (!isBlank ·)

theorem lastVisible_append (front back : List Char) :
    lastVisible (front ++ back) = (lastVisible back).or (lastVisible front) := by
  rw [lastVisible, List.reverse_append, List.find?_append]
  rfl

theorem lastVisible_of_isBlank {blanks : List Char}
    (allBlank : ∀ blank ∈ blanks, isBlank blank = true) : lastVisible blanks = none := by
  rw [lastVisible, List.find?_eq_none]
  intro blank member
  simp [allBlank blank (List.mem_reverse.1 member)]

theorem lastVisible_append_blanks (text : List Char) {blanks : List Char}
    (allBlank : ∀ blank ∈ blanks, isBlank blank = true) :
    lastVisible (text ++ blanks) = lastVisible text := by
  rw [lastVisible_append, lastVisible_of_isBlank allBlank, Option.none_or]

theorem lastVisible_blanks_append {blanks : List Char}
    (allBlank : ∀ blank ∈ blanks, isBlank blank = true) (text : List Char) :
    lastVisible (blanks ++ text) = lastVisible text := by
  rw [lastVisible_append, lastVisible_of_isBlank allBlank, Option.or_none]

theorem lastVisible_of_getLast? {text : List Char} {last : Char}
    (isLast : text.getLast? = some last) (visible : isBlank last = false) :
    lastVisible text = some last := by
  obtain ⟨front, rfl⟩ := List.getLast?_eq_some_iff.1 isLast
  simp [lastVisible, visible]

theorem getLast?_trimEnd (text : List Char) : (trimEnd text).getLast? = lastVisible text := by
  rw [trimEnd, List.getLast?_reverse, lastVisible]
  exact (List.find?_not_eq_head?_dropWhile isBlank text.reverse).symm

theorem getLast?_trim (text : List Char) : (trim text).getLast? = lastVisible text := by
  obtain ⟨blanks, split, blankBefore⟩ := exists_append_trimStart text
  rw [trim, getLast?_trimEnd, ← lastVisible_blanks_append blankBefore (trimStart text), ← split]

end Text

/-- A text as it stands in place of a site: it starts with no blank, it is more than blanks and
comments, and it ends in no comma. -/
structure IsInlay (text : List Char) : Prop where
  head : ∃ first rest, text = first :: rest ∧ Text.isBlank first = false
  content : ¬ OnlySpacing text
  last : Text.lastVisible text ≠ some ','

namespace IsInlay

variable {text : List Char}

theorem lastVisible_ne_none (isInlay : IsInlay text) : Text.lastVisible text ≠ none := by
  obtain ⟨first, rest, rfl, visible⟩ := isInlay.head
  rw [Text.lastVisible, Ne, List.find?_eq_none]
  intro blank
  simpa [visible] using blank first (by simp)

theorem append_blanks (isInlay : IsInlay text) {blanks : List Char}
    (allBlank : ∀ blank ∈ blanks, Text.isBlank blank = true) : IsInlay (text ++ blanks) where
  head := by
    obtain ⟨first, rest, rfl, visible⟩ := isInlay.head
    exact ⟨first, rest ++ blanks, rfl, visible⟩
  content := fun spacing => isInlay.content ((onlySpacing_append_blanks_iff allBlank).1 spacing)
  last := by
    rw [Text.lastVisible_append_blanks text allBlank]
    exact isInlay.last

/-- A line feed may stand behind the text. -/
theorem close {body : String} (isInlay : IsInlay body.toList) (commented : Bool) :
    IsInlay (if commented then body ++ "\n" else body).toList := by
  split
  · rw [String.toList_append]
    exact isInlay.append_blanks Block.isBlank_lineEnd
  · exact isInlay

/-- A text between two visible characters, of which the first starts no comment. -/
theorem of_ends {first last : Char} (isFirst : text.head? = some first)
    (isLast : text.getLast? = some last) (visibleFirst : Text.isBlank first = false)
    (visibleLast : Text.isBlank last = false) (noSlash : first ≠ '/') (noComma : last ≠ ',') :
    IsInlay text := by
  obtain ⟨rest, rfl⟩ := List.head?_eq_some_iff.1 isFirst
  refine ⟨⟨first, rest, rfl, visibleFirst⟩, ?_, ?_⟩
  · have stays := Comment.skip_of_visible visibleFirst (Comment.after?_of_ne_slash rest noSlash)
    rw [← Comment.skip_eq_nil_iff, stays]
    simp
  · rw [Text.lastVisible_of_getLast? isLast visibleLast]
    simpa using noComma

/-- A text with code in it stands in place of a site when the blanks around it are gone. -/
theorem trim (content : ¬ OnlySpacing text) (last : Text.lastVisible text ≠ some ',') :
    IsInlay (Text.trim text) := by
  obtain ⟨blanks, split, blankBefore⟩ := Text.exists_append_trimStart text
  obtain ⟨trail, ended, blankBehind⟩ := Text.exists_trimEnd_append (Text.trimStart text)
  have inside : ¬ OnlySpacing (Text.trim text ++ trail) := by
    obtain ⟨spacers, run⟩ := Spacer.exists_run_eq_blanks blankBefore
    rw [Text.trim, ← ended]
    intro spacing
    rw [split, ← run] at content
    exact content (spacing.run_append spacers)
  rw [onlySpacing_append_blanks_iff blankBehind] at inside
  refine ⟨?_, inside, ?_⟩
  · cases trimmed : Text.trim text with
    | nil =>
        rw [trimmed] at inside
        exact absurd (.closed []) inside
    | cons first rest =>
        have stops := List.head?_dropWhile_not Text.isBlank text
        rw [← Text.trimStart, ended, ← Text.trim, trimmed] at stops
        exact ⟨first, rest, rfl, by simpa using stops⟩
  · rwa [split, Text.lastVisible_blanks_append blankBefore, ended,
      Text.lastVisible_append_blanks _ blankBehind] at last

end IsInlay

/-! ### Bodies and expansions -/

namespace CaptureList

theorem getLast?_body_of_parse {text : List Char} {list : CaptureList String}
    (parsed : parse text = .ok list) : list.body.toList.getLast? ≠ some ',' := by
  obtain ⟨sentence, -, rfl⟩ := parse_eq_ok_iff.1 parsed
  exact sentence.body_getLast

theorem isInlay_body {text : List Char} {list : CaptureList String}
    (parsed : parse text = .ok list) : IsInlay list.body.toList := by
  obtain ⟨region, after, tokens, place, rfl, -, -, -, found⟩ := exists_region_of_parse parsed
  have content := Token.content_of_mem_scanBody found
  have noComma := getLast?_body_of_parse parsed
  rw [Token.scanBody_of_content content, List.mem_singleton, Token.mk.injEq] at found
  rw [found.2.1, String.toList_ofList] at noComma ⊢
  apply IsInlay.trim content
  rwa [← Text.getLast?_trim]

end CaptureList

theorem Block.isInlay_render (layout : Block.Layout) {scope : Scope}
    (body : IsInlay scope.innermost.toList) : IsInlay (Block.render layout scope).toList := by
  cases scope with
  | body text =>
      rw [Block.render, Block.closeBody]
      exact body.close _
  | bind binding inner =>
      have ends : (Block.render layout (.bind binding inner)).toList.head? = some '\x7b' ∧
          (Block.render layout (.bind binding inner)).toList.getLast? = some '\x7d' := by
        cases layout with
        | inline =>
            simp [Block.render, Block.inlineText, List.getLast?_cons, List.getLast?_append]
        | pretty =>
            rw [Block.render, Block.toList_prettyLines_bind]
            · simp [Block.indentation, List.getLast?_cons, List.getLast?_append]
            · simp
      exact .of_ends ends.1 ends.2 (by decide) (by decide) (by decide) (by decide)

theorem Lambda.isInlay_render {wrappers : Lambda.Wrappers} {scope : Scope} {text : String}
    (body : IsInlay scope.innermost.toList) (rendered : Lambda.render wrappers scope = .ok text) :
    IsInlay text.toList := by
  cases scope with
  | body inner =>
      obtain rfl := Except.ok.inj rendered
      rw [Lambda.closeBody]
      exact body.close _
  | bind binding inner =>
      obtain ⟨inside, -, rest⟩ := bind_eq_ok_iff.1 rendered
      obtain ⟨argument, -, joined⟩ := bind_eq_ok_iff.1 rest
      obtain rfl := Except.ok.inj joined
      refine @IsInlay.of_ends _ '(' ')' ?_ ?_ (by decide) (by decide) (by decide) (by decide)
      · simp
      · simp [List.getLast?_cons, List.getLast?_append]

theorem CaptureList.isInlay_expandText {text : List Char} {target : Value} {settings : Settings}
    {expansion : String} (expanded : (expandText text target settings).outcome = .ok expansion) :
    IsInlay expansion.toList := by
  cases parsed : parse text with
  | error fault =>
      rw [expandText_of_parse_error parsed target settings] at expanded
      simp at expanded
  | ok list =>
      have body : IsInlay list.scope.innermost.toList := by
        rw [innermost_scope]
        exact isInlay_body parsed
      rw [(expandText_of_parse_ok parsed target settings).1, expand] at expanded
      split at expanded
      · simp at expanded
      · simp only [Scope.render] at expanded
        split at expanded
        · split at expanded
          · obtain rfl := Except.ok.inj expanded
            exact Block.isInlay_render _ body
          · simp at expanded
        · split at expanded
          · next rendered =>
              obtain rfl := Except.ok.inj expanded
              exact Lambda.isInlay_render body rendered
          · simp at expanded
        · simp at expanded

/-! ### What segments become -/

theorem Site.ClosedBefore.isInlay {name : String} (isName : Text.isName name = true)
    {previous : Option Char} {rest : List Char} {call : Site}
    (closedBefore : call.ClosedBefore name.toList previous rest) : IsInlay call.text := by
  obtain ⟨path, blanks, gap, -, -, head⟩ := closedBefore.exists_head
  obtain ⟨letter, letters, spelled, visible⟩ := Text.exists_visible_of_isName isName
  obtain ⟨first, tail, split, visibleFirst⟩ :=
    Site.exists_visible_pathText path visible (letters ++ (blanks ++ '!' :: gap))
  have head_eq : call.head = first :: tail := by
    rw [head, ← split, spelled]
    simp
  have whole : call.text ++ rest = call.head ++
      call.bracket.opening :: (call.arguments ++ call.bracket.closing :: rest) := by
    simp [Site.text]
  have quiet : Delimiter.IsQuiet first :=
    Site.isQuiet_head_of_open? isName closedBefore.opened whole first (by simp [head_eq])
  refine @IsInlay.of_ends _ first call.bracket.closing ?_ List.getLast?_concat visibleFirst
    ?_ ?_ ?_
  · simp [Site.text, head_eq]
  · cases call.bracket <;> decide
  · rintro rfl
    exact absurd quiet.1 (by decide)
  · cases call.bracket <;> decide

namespace Segment

/-- What a segment becomes: a site becomes the text of its own expansion, all else stays. -/
def Becomes (settings : Settings) : Segment → List Char → Prop
  | .site call, text => ∃ part, settings.expandSource call.text = .ok part ∧ part.text = text
  | segment, text => text = segment.text

/-- What segments become, one after another. -/
inductive BecomeAll (settings : Settings) : List Segment → List Char → Prop
  | nil : BecomeAll settings [] []
  | cons {segment : Segment} {others : List Segment} {text rest : List Char} :
      segment.Becomes settings text → BecomeAll settings others rest →
      BecomeAll settings (segment :: others) (text ++ rest)

variable {settings : Settings} {name : String} {segments : List Segment} {text : List Char}

/-- Segments without a site before others stay as they are. -/
theorem BecomeAll.exists_behind {front others : List Segment}
    (siteless : ∀ call, .site call ∉ front) (become : BecomeAll settings (front ++ others) text) :
    ∃ rest, text = front.flatMap Segment.text ++ rest ∧ BecomeAll settings others rest := by
  induction front generalizing text with
  | nil => exact ⟨text, rfl, become⟩
  | cons segment front ih =>
      cases become with
      | @cons _ _ piece later becomes become =>
          obtain ⟨rest, rfl, behind⟩ :=
            ih (fun call member => siteless call (List.mem_cons_of_mem _ member)) become
          have same : piece = segment.text := by
            cases segment with
            | code | literal => exact becomes
            | site call => exact absurd List.mem_cons_self (siteless call)
          exact ⟨rest, by simp [same], behind⟩

variable (usable : settings.Usable name)

include usable

theorem becomeAll_of_ofSegments
    (closed : ∀ call, .site call ∈ segments →
      ∃ previous rest, call.ClosedBefore name.toList previous rest)
    {lines : Nat} {expansion : SourceExpansion}
    (expanded : SourceExpansion.ofSegments settings name.toList (1 + lines) segments =
      .ok expansion) :
    BecomeAll settings segments expansion.text := by
  induction segments generalizing lines expansion with
  | nil =>
      obtain rfl := Except.ok.inj expanded
      exact .nil
  | cons segment others ih =>
      obtain ⟨first, later, expandedFirst, expandedLater, rfl⟩ :=
        SourceExpansion.ofSegments_cons_eq_ok_iff.1 expanded
      rw [Nat.add_assoc] at expandedLater
      refine .cons ?_ (ih (fun call member => closed call (List.mem_cons_of_mem _ member))
        expandedLater)
      cases segment with
      | code character | literal passed =>
          obtain rfl := Except.ok.inj expandedFirst
          rfl
      | site call =>
          obtain ⟨previous, rest, closedBefore⟩ := closed call List.mem_cons_self
          obtain ⟨part, alone, low⟩ :=
            SourceExpansion.exists_expandSource_site usable closedBefore expandedFirst
          exact ⟨part, alone, low.text_eq.symm⟩

theorem Becomes.isInlay {previous : Option Char} {rest : List Char} {call : Site}
    (closedBefore : call.ClosedBefore name.toList previous rest)
    (becomes : (Segment.site call).Becomes settings text) : IsInlay text := by
  obtain ⟨part, expanded, rfl⟩ := becomes
  obtain ⟨alone, expandedAlone⟩ := SourceExpansion.exists_ofText usable 1 call.text
  obtain rfl := Except.ok.inj ((usable.expandSource expandedAlone).symm.trans expanded)
  rw [SourceExpansion.ofText_site closedBefore] at expandedAlone
  obtain ⟨inside, -, finished⟩ := bind_eq_ok_iff.1 expandedAlone
  obtain ⟨found, succeeded, -, outcome⟩ :=
    SourceExpansion.site_cases usable.renderable 1 call inside
  obtain rfl := Except.ok.inj (succeeded.symm.trans finished)
  rcases outcome with ⟨expansion, expands, replaced, -⟩ | ⟨error, diagnostic, -, -, kept, -⟩
  · rw [replaced]
    exact CaptureList.isInlay_expandText expands
  · rw [kept]
    exact closedBefore.isInlay usable.isName

/-- Where segments end in a comma once they are replaced, they ended in a comma before. -/
theorem BecomeAll.lastVisible (become : BecomeAll settings segments text)
    (closed : ∀ call, .site call ∈ segments →
      ∃ previous rest, call.ClosedBefore name.toList previous rest) :
    (Text.lastVisible text = none → Text.lastVisible (segments.flatMap Segment.text) = none) ∧
      (Text.lastVisible text = some ',' →
        Text.lastVisible (segments.flatMap Segment.text) = some ',') := by
  induction become with
  | nil => exact ⟨id, id⟩
  | @cons segment others piece rest becomes become ih =>
      obtain ⟨noneBehind, comma⟩ :=
        ih fun call member => closed call (List.mem_cons_of_mem _ member)
      have here : (Text.lastVisible piece = none → Text.lastVisible segment.text = none) ∧
          (Text.lastVisible piece = some ',' → Text.lastVisible segment.text = some ',') := by
        cases segment with
        | code | literal =>
            obtain rfl := becomes
            exact ⟨id, id⟩
        | site call =>
            obtain ⟨previous, rest, closedBefore⟩ := closed call List.mem_cons_self
            have isInlay := becomes.isInlay usable closedBefore
            exact ⟨fun nothing => absurd nothing isInlay.lastVisible_ne_none,
              fun isComma => absurd isComma isInlay.last⟩
      rw [List.flatMap_cons, Text.lastVisible_append, Text.lastVisible_append]
      cases last : Text.lastVisible rest with
      | none =>
          rw [noneBehind last]
          exact here
      | some character =>
          refine ⟨by simp, ?_⟩
          intro isComma
          rw [comma (last.trans (by simpa using isComma))]
          rfl

end Segment

end ClosureCapture
