import ClosureCapture.Draft
import ClosureCapture.Example
import ClosureCapture.Main
import ClosureCapture.Reference
import ClosureCapture.Proofs.Result.Chaining
import ClosureCapture.Proofs.CaptureList.Grammar
import ClosureCapture.Proofs.Delimiter.Nesting
import ClosureCapture.Proofs.Site.Head
import ClosureCapture.Proofs.Site.Segments
import ClosureCapture.Proofs.Site.Nesting
import ClosureCapture.Proofs.Source.Outcome
import ClosureCapture.Proofs.Source.Counts
import ClosureCapture.Proofs.Source.Independence
import ClosureCapture.Proofs.Source.Locality
import ClosureCapture.Proofs.Scope.Evaluation
import ClosureCapture.Proofs.Comment.Spacing
import ClosureCapture.Proofs.CaptureList.Layout
import ClosureCapture.Proofs.Lambda.Delimiting
import ClosureCapture.Proofs.Lambda.Evaluation
import ClosureCapture.Proofs.Lambda.Meaning
import ClosureCapture.Proofs.Yaml.Escape
import ClosureCapture.Proofs.Yaml.Quoted
import ClosureCapture.Proofs.Yaml.Plain
import ClosureCapture.Proofs.Yaml.Scalar
import ClosureCapture.Proofs.Yaml.Collection
import ClosureCapture.Proofs.Yaml.Section
import ClosureCapture.Proofs.Yaml.Document
import ClosureCapture.Proofs.Storage.Restoring
import ClosureCapture.Proofs.Json.Quoted
import ClosureCapture.Proofs.Alias.Policies
import ClosureCapture.Proofs.Literal.Closing
import ClosureCapture.Proofs.Delimiter.Walk
import ClosureCapture.Proofs.Site.Cursor
import ClosureCapture.Proofs.Site.Opacity
import ClosureCapture.Proofs.Delimiter.Passing
import ClosureCapture.Proofs.CaptureList.Region
import ClosureCapture.Proofs.Block.Closing
import ClosureCapture.Proofs.Site.Coverage
import ClosureCapture.Proofs.Value.Order
import ClosureCapture.Proofs.Value.Overlay
import ClosureCapture.Proofs.Settings.Outcome
import ClosureCapture.Proofs.Settings.Priority
import ClosureCapture.Proofs.Text.Utf8
import ClosureCapture.Proofs.Settings.Legality
import ClosureCapture.Proofs.Settings.Reloading
import ClosureCapture.Proofs.Source.Totality
import ClosureCapture.Proofs.Reference.Runs
import ClosureCapture.Proofs.Command.Answers
import ClosureCapture.Proofs.Command.Rewriting
import ClosureCapture.Proofs.Alias.Conflicts
import ClosureCapture.Proofs.Source.Replacement
import ClosureCapture.Proofs.Site.Path
import ClosureCapture.Proofs.Site.Boundaries
import ClosureCapture.Proofs.Source.Inlay
import ClosureCapture.Proofs.Source.BodySites
import ClosureCapture.Proofs.Token.Coverage
import ClosureCapture.Proofs.CaptureList.Refusal
import ClosureCapture.Proofs.Delimiter.Balance
import ClosureCapture.Proofs.Site.Slices
import ClosureCapture.Proofs.Source.Reporting
import ClosureCapture.Proofs.Report.Coherence
import ClosureCapture.Proofs.Lambda.Form
import ClosureCapture.Proofs.Block.Layouts
import ClosureCapture.Proofs.CaptureList.TrailingComment
import ClosureCapture.Proofs.Comment.Nesting
import ClosureCapture.Proofs.Delimiter.Stack
import ClosureCapture.Proofs.Delimiter.Matching
