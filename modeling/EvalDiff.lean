import EvalDiff.Binary64.Arithmetic
import EvalDiff.Binary64.Basic
import EvalDiff.Binary64.Decimals
import EvalDiff.Binary64.Reading
import EvalDiff.Binary64.Shortest
import EvalDiff.CommandLine
import EvalDiff.Comparison.Compare
import EvalDiff.Comparison.Error
import EvalDiff.Decimal.Digits
import EvalDiff.Decimal.Numeral
import EvalDiff.Decimal.Rounding
import EvalDiff.Disk.Access
import EvalDiff.Disk.Fault
import EvalDiff.Disk.Path
import EvalDiff.Disk.Tree
import EvalDiff.Json.Number
import EvalDiff.Json.Reader
import EvalDiff.Json.Value
import EvalDiff.Json.Writer
import EvalDiff.Log.File
import EvalDiff.Log.Line
import EvalDiff.Log.Record
import EvalDiff.Main
import EvalDiff.Program
import EvalDiff.Proofs.Binary64.Naturals
import EvalDiff.Proofs.Binary64.Nearness
import EvalDiff.Proofs.Binary64.Overflow
import EvalDiff.Proofs.Binary64.Ratio
import EvalDiff.Proofs.Binary64.Reading
import EvalDiff.Proofs.Binary64.Rounding
import EvalDiff.Proofs.Binary64.Shortest
import EvalDiff.Proofs.Binary64.Significant
import EvalDiff.Proofs.Binary64.SignificantReading
import EvalDiff.Proofs.Binary64.Units
import EvalDiff.Proofs.Binary64.Value
import EvalDiff.Proofs.CommandLine.Acceptance
import EvalDiff.Proofs.CommandLine.Items
import EvalDiff.Proofs.CommandLine.Paths
import EvalDiff.Proofs.Comparison.Accessors
import EvalDiff.Proofs.Comparison.Changes
import EvalDiff.Proofs.Comparison.Concatenation
import EvalDiff.Proofs.Comparison.Delta
import EvalDiff.Proofs.Comparison.Identity
import EvalDiff.Proofs.Comparison.Influence
import EvalDiff.Proofs.Comparison.Literals
import EvalDiff.Proofs.Comparison.LongerMarker
import EvalDiff.Proofs.Comparison.Outcome
import EvalDiff.Proofs.Comparison.Overflow
import EvalDiff.Proofs.Comparison.Padding
import EvalDiff.Proofs.Comparison.Renumbering
import EvalDiff.Proofs.Comparison.Reordering
import EvalDiff.Proofs.Comparison.Row
import EvalDiff.Proofs.Comparison.Specification
import EvalDiff.Proofs.Comparison.Strict
import EvalDiff.Proofs.Comparison.Summary
import EvalDiff.Proofs.Comparison.Swap
import EvalDiff.Proofs.Comparison.Unchanged
import EvalDiff.Proofs.Comparison.Walk
import EvalDiff.Proofs.Decimal.Literal
import EvalDiff.Proofs.Decimal.Numeral
import EvalDiff.Proofs.Disk.Recording
import EvalDiff.Proofs.Disk.Runs
import EvalDiff.Proofs.Disk.Tree
import EvalDiff.Proofs.Json.Decimals
import EvalDiff.Proofs.Json.Numbers
import EvalDiff.Proofs.Json.Strings
import EvalDiff.Proofs.Json.Values
import EvalDiff.Proofs.Log.Endings
import EvalDiff.Proofs.Log.Fields
import EvalDiff.Proofs.Log.File
import EvalDiff.Proofs.Program.Files
import EvalDiff.Proofs.Program.Layers
import EvalDiff.Proofs.Program.Outcome
import EvalDiff.Proofs.Program.Replay
import EvalDiff.Proofs.Program.Stages
import EvalDiff.Proofs.Report.Amount
import EvalDiff.Proofs.Report.Canonical
import EvalDiff.Proofs.Report.Colors
import EvalDiff.Proofs.Report.Counts
import EvalDiff.Proofs.Report.Document
import EvalDiff.Proofs.Report.Nulls
import EvalDiff.Proofs.Report.Percent
import EvalDiff.Proofs.Report.Reread
import EvalDiff.Proofs.Report.Stream
import EvalDiff.Proofs.Report.Table
import EvalDiff.Proofs.Report.Width
import EvalDiff.Proofs.Settings.Document
import EvalDiff.Proofs.Settings.File
import EvalDiff.Proofs.Settings.Selection
import EvalDiff.Proofs.Text.Octets
import EvalDiff.Proofs.Text.Pieces
import EvalDiff.Proofs.Text.Reader
import EvalDiff.Proofs.Text.Sequences
import EvalDiff.Proofs.Text.Utf8
import EvalDiff.Proofs.Toml.Escapes
import EvalDiff.Proofs.Toml.Lines
import EvalDiff.Proofs.Toml.LongStrings
import EvalDiff.Proofs.Toml.Quoting
import EvalDiff.Report.Amount
import EvalDiff.Report.Basic
import EvalDiff.Report.Document
import EvalDiff.Report.Format
import EvalDiff.Report.Stream
import EvalDiff.Report.Table
import EvalDiff.Settings.Basic
import EvalDiff.Settings.Document
import EvalDiff.Settings.File
import EvalDiff.Text.Blank
import EvalDiff.Text.Extender
import EvalDiff.Text.Hex
import EvalDiff.Text.Ignorable
import EvalDiff.Text.Quoted
import EvalDiff.Text.Reader
import EvalDiff.Text.Split
import EvalDiff.Text.Style
import EvalDiff.Text.Unprintable
import EvalDiff.Text.Utf8
import EvalDiff.Toml.Document
import EvalDiff.Toml.Quoting
import EvalDiff.Toml.Reader
import EvalDiff.Toml.Scalar
import EvalDiff.Toml.Value
import EvalDiff.Verdict
