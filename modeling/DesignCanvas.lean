import DesignCanvas.Text.Blank
import DesignCanvas.Text.Case.Table
import DesignCanvas.Text.Digit
import DesignCanvas.Text.Case
import DesignCanvas.Text.Pattern
import DesignCanvas.Text.Search
import DesignCanvas.Decimal.Exact
import DesignCanvas.Decimal.Shortest
import DesignCanvas.Decimal.Layout
import DesignCanvas.Json.Basic
import DesignCanvas.Json.Literal
import DesignCanvas.Json.Printer
import DesignCanvas.Json.Token
import DesignCanvas.Json.Reader
import DesignCanvas.Json.Record
import DesignCanvas.Yaml.Basic
import DesignCanvas.Yaml.Scalar
import DesignCanvas.Yaml.Reader
import DesignCanvas.Color
import DesignCanvas.Digest
import DesignCanvas.Tree
import DesignCanvas.Tree.Walk
import DesignCanvas.Scene.Kind
import DesignCanvas.Scene.Paint
import DesignCanvas.Scene.Font
import DesignCanvas.Scene.Node
import DesignCanvas.Scene.Codec
import DesignCanvas.Scene.Collect
import DesignCanvas.Document.Style
import DesignCanvas.Document.Images
import DesignCanvas.Document.Basic
import DesignCanvas.Editor.Basic
import DesignCanvas.Editor.Structure
import DesignCanvas.Filling.Source
import DesignCanvas.Editor.Batch
import DesignCanvas.Editor.Writing
import DesignCanvas.Editor.Steps
import DesignCanvas.Command.Intent
import DesignCanvas.Editor.Apply
import DesignCanvas.Editor.Styles
import DesignCanvas.Command.Reading
import DesignCanvas.Selection.Layers
import DesignCanvas.Selection.Naming
import DesignCanvas.Selection.Summary
import DesignCanvas.Filling.Field
import DesignCanvas.Filling.Pictures
import DesignCanvas.Filling.Texts
import DesignCanvas.Outline.Item
import DesignCanvas.Outline.Records
import DesignCanvas.Outline.Score
import DesignCanvas.Outline.Matching
import DesignCanvas.Audit.Finding
import DesignCanvas.Audit.Kind
import DesignCanvas.Audit.Scan
import DesignCanvas.Audit.Repair
import DesignCanvas.Message.Response
import DesignCanvas.Message.Report
import DesignCanvas.Message.Request
import DesignCanvas.Assistant.Journal
import DesignCanvas.Assistant.Session
import DesignCanvas.Assistant.Handle
import DesignCanvas.Assistant.Serve
import DesignCanvas.CommandLine.Arguments
import DesignCanvas.CommandLine.Configuration
import DesignCanvas.CommandLine.Files
import DesignCanvas.CommandLine.Help
import DesignCanvas.CommandLine.Run
import DesignCanvas.Main
import DesignCanvas.Proofs.Editor.Naming
import DesignCanvas.Proofs.Editor.Numbering
import DesignCanvas.Proofs.Editor.Parts
import DesignCanvas.Proofs.Document.Distinct
import DesignCanvas.Proofs.Assistant.History
import DesignCanvas.Proofs.Assistant.Effect
import DesignCanvas.Proofs.Assistant.Handle
import DesignCanvas.Proofs.Outline.Claims
import DesignCanvas.Proofs.Outline.Greedy
import DesignCanvas.Proofs.Document.Addressing
import DesignCanvas.Proofs.Editor.Duplicate
import DesignCanvas.Proofs.Editor.Writing
import DesignCanvas.Proofs.Tree.Walk
import DesignCanvas.Proofs.Editor.Replace
import DesignCanvas.Proofs.Audit.Plan
import DesignCanvas.Proofs.Audit.Verdicts
import DesignCanvas.Proofs.Audit.Binding
import DesignCanvas.Proofs.Audit.Colors
import DesignCanvas.Proofs.Audit.Mending
import DesignCanvas.Proofs.Audit.Completion
import DesignCanvas.Proofs.Audit.Capture
import DesignCanvas.Proofs.Filling.Fields
import DesignCanvas.Proofs.Filling.Coverage
import DesignCanvas.Proofs.Outline.Layers
import DesignCanvas.Proofs.Document.Coherent
import DesignCanvas.Proofs.Assistant.Coherent
import DesignCanvas.Proofs.Editor.Removal
import DesignCanvas.Proofs.Assistant.Selection
import DesignCanvas.Proofs.Assistant.Serving
import DesignCanvas.Proofs.Json.Record
import DesignCanvas.Proofs.Json.Finite
import DesignCanvas.Proofs.Json.Tokens
import DesignCanvas.Proofs.Json.Trailing
import DesignCanvas.Proofs.Json.Text
import DesignCanvas.Proofs.Json.Compact
import DesignCanvas.Proofs.Scene.Codec
import DesignCanvas.Proofs.Scene.Finite
import DesignCanvas.Proofs.Document.Codec
import DesignCanvas.Proofs.Message.Codec
import DesignCanvas.Proofs.Editor.Volatile
import DesignCanvas.Proofs.Assistant.Reload
import DesignCanvas.Proofs.Tree.Places
import DesignCanvas.Proofs.Tree.Insertion
import DesignCanvas.Proofs.Editor.Copying
import DesignCanvas.Proofs.Editor.Deletion
import DesignCanvas.Proofs.Editor.Properties
import DesignCanvas.Proofs.Filling.OneValue
import DesignCanvas.Proofs.Text.Numerals
import DesignCanvas.Proofs.Command.Decision
import DesignCanvas.Proofs.Command.Arrows
import DesignCanvas.Proofs.Command.Captures
import DesignCanvas.Proofs.Command.Numbers
import DesignCanvas.Proofs.Command.Soundness
import DesignCanvas.Proofs.Command.Canonical
import DesignCanvas.Proofs.Tree.Visits
import DesignCanvas.Proofs.Assistant.Registries
import DesignCanvas.Proofs.Assistant.Texts
import DesignCanvas.Proofs.Filling.Pictures
import DesignCanvas.Proofs.Command.Caseless
import DesignCanvas.Proofs.Command.Colors
import DesignCanvas.Proofs.Assistant.Journal
import DesignCanvas.Proofs.Assistant.Session
import DesignCanvas.Proofs.Editor.Roles
import DesignCanvas.Proofs.Outline.Texts
import DesignCanvas.Proofs.Outline.Bullets
import DesignCanvas.Proofs.Text.Lower
import DesignCanvas.Proofs.Outline.Symmetry
import DesignCanvas.Proofs.Color
import DesignCanvas.Proofs.Filling.Leftovers
import DesignCanvas.Proofs.Tree.Occurrence
import DesignCanvas.Proofs.Document.Lookup
import DesignCanvas.Proofs.Editor.Renaming
import DesignCanvas.Proofs.Editor.Rounds
