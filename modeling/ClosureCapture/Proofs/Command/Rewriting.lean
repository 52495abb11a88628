import ClosureCapture.Proofs.Command.Endings

/-!
# Files without sites are copied

A text without sites is its own expansion.  Rewriting a file with such a text copies what was read
of it, with all line ends turned into line feeds, so that the copy has the bytes of the file exactly
when the file has no carriage return.
-/

namespace ClosureCapture

namespace SourceExpansion

theorem ofSegments_of_siteless {settings : Settings} {name : List Char} {line offset place : Nat}
    {segments : List Segment} (siteless : Invocation.ofSegments offset place segments = []) :
    ofSegments settings name line segments = .ok (verbatim (segments.flatMap Segment.text)) := by
  induction segments generalizing line offset place with
  | nil => rfl
  | cons segment others ih =>
      cases segment with
      | site call => simp [Invocation.ofSegments] at siteless
      | literal text | code character =>
          exact ofSegments_cons_eq_ok_iff.2 ⟨_, _, rfl, ih siteless, rfl⟩

theorem ofText_of_siteless {settings : Settings} {name source : List Char} {line : Nat}
    (siteless : Invocation.find name source = .ok []) :
    ofText settings name line source = .ok (verbatim source) := by
  obtain ⟨segments, scanned, none⟩ := Invocation.find_eq_ok_iff.1 siteless
  obtain ⟨whole, -⟩ := Segment.scanFrom_eq_ok_iff.1 scanned
  rw [ofText_of_scan scanned, ofSegments_of_siteless none, ← whole]

end SourceExpansion

/-- A file without sites is expanded to the text read of it. -/
theorem Settings.expandFile_of_siteless {settings : Settings} {folder : Folder}
    {name path : String} {source : List Char} (named : settings.macroName.text? = some name)
    (read : folder.readText path = .ok source)
    (siteless : Invocation.find name.toList source = .ok []) :
    settings.expandFile folder path =
      .ok { SourceExpansion.verbatim source with events := [.sitesExpanded 0 0 name] } := by
  rw [expandFile_of_read read, mapError_eq_ok_iff]
  exact expandSource_of_ofText named (SourceExpansion.ofText_of_siteless siteless)

namespace Command

theorem deliver_of_writeText {folder changed : Folder} {path errors : String}
    {expansion : SourceExpansion} (nonempty : path ≠ "") (ok : expansion.ok = true)
    (written : folder.writeText path expansion.text = .ok changed) :
    deliver folder (some path) errors expansion = .finished ⟨0, "", errors, changed⟩ := by
  simp [deliver, nonempty, ok, written]

/-- Expanding a file without sites into another one copies the text read of it. -/
theorem runExpandFile_of_siteless {folder changed : Folder} {settings : Settings}
    {log : List Event → String} {name file path : String} {source : List Char}
    (named : settings.macroName.text? = some name) (read : folder.readText file = .ok source)
    (siteless : Invocation.find name.toList source = .ok []) (nonempty : path ≠ "")
    (written : folder.writeText path source = .ok changed) :
    runExpandFile folder settings log file (some path) =
      .finished ⟨0, "", log [.sitesExpanded 0 0 name] ++ siteLines file [], changed⟩ := by
  rw [runExpandFile, Settings.expandFile_of_siteless named read siteless]
  exact deliver_of_writeText nonempty rfl written

/-- Rewriting a file whose text has no site, with a macro name that is a text and into a path that
can be written, succeeds and leaves the text read of the file there.  These are the bytes of the
file exactly when it has no carriage return. -/
theorem run_copies_siteless_file {arguments : List String} {folder : Folder}
    {environment : Environment} {request : Request} {settings : Settings}
    {name file path : String} {target renderMode macroName : Option String} {names : List String}
    {content : List UInt8} {text : List Char}
    (accepted : Request.ofArguments arguments = .ok request)
    (asked : request.action = .expandFile file (some path) target renderMode macroName)
    (loaded : Settings.load folder request.configPath environment request.overrides =
      .ok settings)
    (named : settings.macroName.text? = some name)
    (stored : folder.read file = .ok content)
    (decoded : Text.decodeUtf8 content = .ok text)
    (siteless : Invocation.find name.toList (Text.unifyLineEnds text) = .ok [])
    (located : folder.locate path = .ok names) (free : folder.item? names ≠ some .folder) :
    ∃ finish, run arguments folder environment = .finished finish ∧ finish.status = 0 ∧
      finish.output = "" ∧
      finish.folder.read path = .ok (encodeText (Text.unifyLineEnds text)) ∧
      (finish.folder.read path = .ok content ↔ 0x0D ∉ content) := by
  have read : folder.readText file = .ok (Text.unifyLineEnds text) :=
    Folder.readText_eq_ok_iff.2 ⟨content, stored, text, decoded, rfl⟩
  have written : folder.writeText path (Text.unifyLineEnds text) = .ok _ :=
    Folder.write_eq_ok_iff.2 ⟨names, located, free, rfl⟩
  have copied := Folder.read_of_write written
  have ended : run arguments folder environment = _ := runOn_of_load accepted loaded
  rw [asked, Action.run, runExpandFile_of_siteless named read siteless
    (Folder.locate_eq_ok_iff.1 located).1 written] at ended
  refine ⟨_, ended, rfl, rfl, copied, ?_⟩
  obtain rfl := Text.decodeUtf8_eq_ok_iff.1 decoded
  calc
    _ ↔ encodeText (Text.unifyLineEnds text) = encodeText text := by rw [copied, Except.ok.injEq]
    _ ↔ Text.unifyLineEnds text = text := Text.encodeText_injective.eq_iff
    _ ↔ '\r' ∉ text := Text.unifyLineEnds_eq_iff
    _ ↔ 0x0D ∉ encodeText text := not_congr (@Text.mem_encodeText_iff 0x0D (by decide) text).symm

/-- A file whose first line ends with a carriage return and a line feed is not copied as it is. -/
theorem run_copies_siteless_file_return :
    ∃ finish, run ["rewrite", "a.rs", "-o", "o.rs"]
        ⟨[(["a.rs"], .file (encodeText "x\r\ny\n".toList))]⟩ [] = .finished finish ∧
      finish.status = 0 ∧ finish.output = "" ∧
      finish.folder.read "o.rs" = .ok (encodeText "x\ny\n".toList) ∧
      finish.folder.read "o.rs" ≠ .ok (encodeText "x\r\ny\n".toList) := by
  have accepted : Request.ofArguments ["rewrite", "a.rs", "-o", "o.rs"] =
      .ok ⟨none, none, false, .expandFile "a.rs" (some "o.rs") none none none⟩ := by
    with_unfolding_all rfl
  have loaded : Settings.load ⟨[(["a.rs"], .file (encodeText "x\r\ny\n".toList))]⟩ none [] [] =
      .ok {} := by
    with_unfolding_all rfl
  have siteless : Invocation.find "capture".toList
      (Text.unifyLineEnds "x\r\ny\n".toList) = .ok [] := by
    with_unfolding_all rfl
  obtain ⟨finish, ended, status, output, copied, same⟩ :=
    run_copies_siteless_file accepted rfl loaded rfl (by with_unfolding_all rfl)
      (Text.decodeUtf8_encodeText _) siteless (by with_unfolding_all rfl) (by decide)
  exact ⟨finish, ended, status, output, copied, mt same.1 (by decide)⟩

end Command

end ClosureCapture
