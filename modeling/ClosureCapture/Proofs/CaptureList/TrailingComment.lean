import ClosureCapture.Proofs.CaptureList.Refusal
import ClosureCapture.Proofs.Source.Inlay

/-!
# Comments behind a capture list

The body of a capture list is all that follows `in`, without the blanks around it.  Comments count
as nothing when it is decided whether there is a body, but they are part of the body when its end
is looked at for a dangling comma.

So a comment behind a text that comes to a body hides a comma that dangles there, and a comma at
the end of a line comment dangles itself.  This file proves that a comment behind a text changes in
these two cases, and in no other, whether the text can be read.
-/

namespace ClosureCapture

open Delimiter Delimiter.Search

/-- A search through a text comes to a comment without its end. -/
def EndsInComment (text : List Char) : Prop :=
  ∃ nested previous comment,
    Walk ⟨[], none, text⟩ ⟨nested, previous, comment⟩ ∧ Comment.IsOpen comment

theorem endsInComment_of_passes {front comment : List Char} {spacers : List Spacer}
    (passes : Passes front (Spacer.run spacers ++ comment) [] [])
    (unclosed : Comment.IsOpen comment) :
    EndsInComment (front ++ (Spacer.run spacers ++ comment)) := by
  have walk := passes.append (passes_run spacers comment []) none
  rw [List.append_assoc] at walk
  exact ⟨[], _, comment, walk, unclosed⟩

theorem not_endsInComment {text : List Char} (noSlash : '/' ∉ text) : ¬ EndsInComment text := by
  rintro ⟨nested, previous, comment, walk, unclosed⟩
  have later : '/' ∈ comment := by cases unclosed <;> simp
  exact noSlash (walk.suffix.subset later)

theorem Text.lastVisible_ne_none {text : List Char} (content : ¬ OnlySpacing text) :
    lastVisible text ≠ none := by
  intro nothing
  apply content
  have allBlank : ∀ blank ∈ text, isBlank blank = true := by
    intro blank member
    have hidden := List.find?_eq_none.1 nothing blank (List.mem_reverse.2 member)
    simpa using hidden
  obtain ⟨spacers, rfl⟩ := Spacer.exists_run_eq_blanks allBlank
  exact .closed spacers

/-- A text stays more than blanks and comments when a blank follows it. -/
theorem not_onlySpacing_append {text tail : List Char} (content : ¬ OnlySpacing text)
    (starts : Text.StartsBlank tail) : ¬ OnlySpacing (text ++ tail) := by
  rw [← Comment.skip_eq_nil_iff] at content ⊢
  obtain ⟨first, rest, skipped⟩ := List.exists_cons_of_ne_nil content
  simp [Comment.skip_append_of_skip_eq_cons skipped starts]

theorem Text.startsBlank_space (text : List Char) : StartsBlank (' ' :: text) := by
  rintro first (_ | _)
  decide

section Behind

variable {comment : List Char}

theorem OnlySpacing.run_comment (spacers : List Spacer) (closed : Comment.IsClosed comment) :
    OnlySpacing (Spacer.run spacers ++ ' ' :: comment) := by
  have spaced := OnlySpacing.closed [.blank ' ' (by decide), .comment comment closed]
  simpa [Spacer.run, Spacer.text] using spaced.run_append spacers

theorem Comment.IsClosed.lastVisible_append (closed : IsClosed comment) (text : List Char) :
    Text.lastVisible (text ++ ' ' :: comment) = Text.lastVisible comment := by
  obtain ⟨rest, rfl⟩ := closed.exists_cons
  have visible : Text.lastVisible ('/' :: rest) ≠ none := by
    rw [Text.lastVisible, Ne, List.find?_eq_none]
    intro blank
    exact absurd (blank '/' (by simp)) (by decide)
  obtain ⟨last, isLast⟩ := Option.ne_none_iff_exists'.1 visible
  rw [List.append_cons, Text.lastVisible_append, isLast, Option.some_or]

end Behind

namespace CaptureList

/-- A text is a capture list, but for a comma that may dangle behind the body. -/
def ReachesBody (text : List Char) : Prop :=
  ∀ error, parse text = .error error → error.fault = .trailingComma

theorem exists_error_of_not_reachesBody {text : List Char} (astray : ¬ ReachesBody text) :
    ∃ error, parse text = .error error := by
  obtain ⟨error, failed⟩ := not_forall.1 astray
  exact ⟨error, (Classical.not_imp.1 failed).1⟩

/-! ### Texts with a body -/

/-- Behind `in`, only a comma at the end of the text is refused. -/
theorem reachesBody_append {region after : List Char} {phrases : List Phrase} {terminal : Nat}
    (isRegion : Token.IsRegion 0 region
      (phrases.flatMap Phrase.tokens ++ [⟨.keyword, "in", terminal⟩]))
    (ends : ∀ next ∈ after.head?, Text.isWord next = false) (content : ¬ OnlySpacing after) :
    ReachesBody (region ++ after) ∧
      ((∃ error, parse (region ++ after) = .error error) ↔
        Text.lastVisible (region ++ after) = some ',') := by
  have inBody : Text.lastVisible (region ++ after) = Text.lastVisible after := by
    obtain ⟨last, isLast⟩ := Option.ne_none_iff_exists'.1 (Text.lastVisible_ne_none content)
    rw [Text.lastVisible_append, isLast, Option.some_or]
  rw [ReachesBody, parse_append_of_phrases isRegion ends, Token.scanBody_of_content content,
    inBody, ← Text.getLast?_trim, readBody]
  simp only [ne_eq, not_true_eq_false, if_false, String.toList_ofList]
  split
  · next comma => simp [Except.map, comma]
  · next noComma => simp [Except.map, noComma]

/-- A text that comes to a body is phrases, `in` and the body. -/
theorem exists_scan_of_reachesBody {text : List Char} (reaches : ReachesBody text) :
    ∃ (phrases : List Phrase) (terminal : Nat) (body : String) (place : Nat),
      Token.scan text = phrases.flatMap Phrase.tokens ++
        [⟨.keyword, "in", terminal⟩, ⟨.body, body, place⟩] := by
  cases parsed : parse text with
  | ok list =>
      obtain ⟨sentence, written, -⟩ := parse_eq_ok_iff.1 parsed
      exact ⟨sentence.phrases, sentence.terminal, sentence.body, sentence.place, written.symm⟩
  | error error =>
      have dangling := reaches error parsed
      obtain ⟨phrases, rest, scanned, stops⟩ := exists_stops_of_parse parsed
      cases stops with
      | @ended announced fault other =>
          obtain rfl : fault = .trailingComma := dangling
          simp [GrammarFault.concernsBody] at other
      | @refused announced token later fault notAdmitted other =>
          obtain rfl : fault = .trailingComma := dangling
          simp [GrammarFault.concernsBody] at other
      | bodiless later isTerminal => simp at dangling
      | @trailing start body later isTerminal isBody comma =>
          have bounded := Token.scanFrom_terminated 0 text _ _ _ scanned isTerminal
          obtain rfl : later = [] := by simpa using bounded
          obtain ⟨kind, spelling, place⟩ := body
          obtain rfl : kind = .body := isBody
          rw [isKeyword_iff.1 isTerminal] at scanned
          exact ⟨phrases, start.offset, spelling, place, scanned⟩

/-! ### A comment behind a text -/

/-- A text that comes to a body still does so with a comment behind it, and of the two the comment
decides whether a comma dangles there. -/
theorem reachesBody_comment {text comment : List Char} (reaches : ReachesBody text)
    (closed : Comment.IsClosed comment) :
    ((∃ error, parse text = .error error) ↔ Text.lastVisible text = some ',') ∧
      ((∃ error, parse (text ++ ' ' :: comment) = .error error) ↔
        Text.lastVisible comment = some ',') := by
  obtain ⟨phrases, terminal, body, place, scanned⟩ := exists_scan_of_reachesBody reaches
  obtain ⟨region, after, rfl, isRegion, ends, found⟩ := exists_region_of_scan scanned
  have content := Token.content_of_mem_scanBody found
  have starts := Text.startsBlank_space comment
  have behind := (reachesBody_append isRegion (starts.isWord_head_append ends)
    (not_onlySpacing_append content starts)).2
  rw [← List.append_assoc, closed.lastVisible_append] at behind
  exact ⟨(reachesBody_append isRegion ends content).2, behind⟩

/-- A text that comes to no body does not come to one with a comment behind it. -/
theorem reachesBody_of_comment {text comment : List Char} (code : ¬ EndsInComment text)
    (closed : Comment.IsClosed comment) (reaches : ReachesBody (text ++ ' ' :: comment)) :
    ReachesBody text := by
  obtain ⟨phrases, terminal, body, place, scanned⟩ := exists_scan_of_reachesBody reaches
  have clean := isClean_phrases phrases terminal body place
  have member : ⟨.body, body, place⟩ ∈ Token.scan (text ++ ' ' :: comment) := by simp [scanned]
  rw [← scanned] at clean
  have starts := Text.startsBlank_space comment
  cases Token.reaches_of_isClean 0 text starts clean with
  | @region region after tokens split isRegion bodiless ends =>
      subst split
      have endsBehind := starts.isWord_head_append ends
      rw [List.append_assoc] at member scanned
      have found := member
      rw [Token.scan, isRegion.scanFrom_eq _ endsBehind, Nat.zero_add] at found
      replace found := (List.mem_append.1 found).resolve_left fun before => bodiless _ before rfl
      by_cases spacing : OnlySpacing after
      · cases spacing with
        | closed spacers =>
            exact absurd (.run_comment spacers closed) (Token.content_of_mem_scanBody found)
        | unclosed spacers unclosed =>
            exact absurd (endsInComment_of_passes (isRegion.passes _ []) unclosed) code
      · have front := isRegion.tokens_eq endsBehind found (scanned.trans (List.append_cons ..))
        rw [front] at isRegion
        exact (reachesBody_append isRegion ends spacing).1
  | @spacing front rest tokens split spacing bodiless passes reached =>
      subst split
      cases spacing with
      | closed spacers =>
          have nothing := Comment.skip_eq_nil_iff.2 (.run_comment spacers closed)
          rw [Token.scanFrom_of_skip_eq_nil _ nothing, List.append_nil, ← Token.scan] at reached
          rw [reached] at member
          exact absurd rfl (bodiless _ member)
      | @unclosed spacers comment unclosed =>
          have more : Spacer.run spacers ++ comment ≠ [] := by
            cases unclosed <;> simp
          exact absurd (endsInComment_of_passes (passes [] more) unclosed) code

/-- A comment behind a text changes whether the text can be read exactly when the text comes to a
body and one of the two, but not the other, ends in a comma: the comment hides a comma behind the
body, or its own comma dangles. -/
theorem parse_comment_behind_iff {text comment : List Char} (code : ¬ EndsInComment text)
    (closed : Comment.IsClosed comment) :
    (((∃ error, parse (text ++ ' ' :: comment) = .error error) ↔
        ∃ error, parse text = .error error) ↔
      (ReachesBody text →
        (Text.lastVisible text = some ',' ↔ Text.lastVisible comment = some ','))) ∧
    (ReachesBody text →
      ((∃ error, parse text = .error error) ↔ Text.lastVisible text = some ',') ∧
      ((∃ error, parse (text ++ ' ' :: comment) = .error error) ↔
        Text.lastVisible comment = some ',')) := by
  refine ⟨?_, fun reaches => reachesBody_comment reaches closed⟩
  by_cases reaches : ReachesBody text
  · obtain ⟨alone, behind⟩ := reachesBody_comment reaches closed
    rw [alone, behind]
    exact ⟨fun same _ => same.symm, fun same => (same reaches).symm⟩
  · have astray := fun both => reaches (reachesBody_of_comment code closed both)
    have refused := iff_of_true (exists_error_of_not_reachesBody astray)
      (exists_error_of_not_reachesBody reaches)
    exact iff_of_true refused fun reached => absurd reached reaches

/-- A dangling comma is refused, but not before a comment; a body is read, but not before a comment
that ends in a comma. -/
theorem parse_comment_behind_comma :
    (parse "in x,".toList = .error ⟨.trailingComma, 4⟩ ∧
      ¬ ∃ error, parse ("in x,".toList ++ ' ' :: "/* c */".toList) = .error error) ∧
    (parse "in x".toList = .ok ⟨[], "x", some 3⟩ ∧
      ∃ error, parse ("in x".toList ++ ' ' :: "//,\n".toList) = .error error) := by
  have refused : parse "in x,".toList = .error ⟨.trailingComma, 4⟩ := by
    with_unfolding_all rfl
  have accepted : parse "in x".toList = .ok ⟨[], "x", some 3⟩ := by
    with_unfolding_all rfl
  have noSlash : '/' ∉ "in x,".toList ∧ '/' ∉ "in x".toList := by decide
  have block : Comment.IsClosed "/* c */".toList := by
    have inside : Comment.Levels 1 [' ', 'c', ' ', '*', '/'] 0 :=
      .pass (by simp) (by simp) (.pass (by simp) (by simp) (.pass (by simp) (by simp)
        (.leave (.done 0))))
    exact .block inside
  have line : Comment.IsClosed "//,\n".toList := @Comment.IsClosed.line [','] (by decide)
  have hidden := (parse_comment_behind_iff (not_endsInComment noSlash.1) block).2
    fun error failed => by rw [← Except.error.inj (refused.symm.trans failed)]
  have dangling := (parse_comment_behind_iff (not_endsInComment noSlash.2) line).2
    fun error failed => nomatch accepted.symm.trans failed
  exact ⟨⟨refused, fun failed => absurd (hidden.2.1 failed) (by decide)⟩, accepted,
    dangling.2.2 (by decide)⟩

end CaptureList

end ClosureCapture
