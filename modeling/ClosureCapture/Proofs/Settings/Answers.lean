import ClosureCapture.Proofs.Json.LongNumber
import ClosureCapture.Proofs.Settings.Outcome
import ClosureCapture.Proofs.Yaml.ScalarFault

/-!
# Settings files that are answered for

Loading settings gives settings or a refusal, unless it meets a fault that it does not answer for.
A settings file leads to such a fault in three ways.  Its bytes cannot be read, because they are no
text, have a number with too many digits or make the reader of YAML documents fail otherwise than
by refusing them.  Or it has unknown keys of different sorts, which cannot be listed in order.  Or
what is to be refused is a number too long to be shown.

On the standard platform it is known which documents make the reader fail: those in which something
that is named does not exist, or is tagged as what it is not.
-/

namespace ClosureCapture

namespace Settings

/-- The bytes of a settings file that are read or refused. -/
structure Readable (platform : Platform) (path : String) (content : List UInt8) : Prop where
  yaml : isYamlPath path = true →
    ∀ fault, platform.readYaml content = .error fault → fault = .document .malformed
  json : isYamlPath path = false →
    ∃ text, content = encodeText text ∧ Json.read (Text.unifyLineEnds text) ≠ .error .longNumber

variable {First Second : Type} {platform : Platform} {entries : Entries Given} {file : Entries}
  {folder : Folder} {path : String} {content : List UInt8} {environment : Environment}
  {overrides : Entries Given}

section Known

variable {Item : Type} {lower upper : Entries Item}

end Known

/-- Bytes that are no text, a document in which something does not exist or is tagged as what it is
not, and a number with too many digits. -/
inductive Defective (path : String) : List UInt8 → Prop
  | encoding {content : List UInt8} : (∀ text, content ≠ encodeText text) → Defective path content
  | yaml {text : List Char} {fault : Yaml.Fault} : isYamlPath path = true → fault ≠ .malformed →
      Yaml.Origin (Text.unifyLineEnds text) fault → Defective path (encodeText text)
  | json {text : List Char} : isYamlPath path = false →
      Json.HasLongRun (Text.unifyLineEnds text) → Defective path (encodeText text)

/-- What is not read on the standard platform, though it is not refused. -/
theorem defective_of_not_readable (unreadable : ¬Readable .standard path content) :
    Defective path content := by
  by_cases encoded : ∃ text, content = encodeText text
  · obtain ⟨text, rfl⟩ := encoded
    cases isYaml : isYamlPath path with
    | true =>
        by_contra sound
        refine unreadable ⟨fun _ fault unread => ?_, by simp [isYaml]⟩
        have read : (Yaml.read (Text.unifyLineEnds text)).mapError .document = .error fault := by
          simpa [Platform.standard, Yaml.readBytes, Text.decodeUtf8_encodeText] using unread
        obtain ⟨inner, failed, rfl⟩ := mapError_eq_error_iff.1 read
        by_cases malformed : inner = .malformed
        · rw [malformed]
        · exact absurd (.yaml isYaml malformed (Yaml.origin_of_read failed malformed)) sound
    | false =>
        by_contra sound
        refine unreadable ⟨by simp [isYaml], fun _ => ⟨text, rfl, fun failed => sound ?_⟩⟩
        exact .json isYaml (Json.hasLongRun_of_read failed)
  · exact .encoding fun text same => encoded ⟨text, same⟩

end Settings

end ClosureCapture
