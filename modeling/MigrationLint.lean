import MigrationLint.Command.Check
import MigrationLint.Command.Outcome
import MigrationLint.Command.Outline
import MigrationLint.Command.Settings
import MigrationLint.Config.Basic
import MigrationLint.Config.Selection
import MigrationLint.Diagnostic
import MigrationLint.FileTree.Basic
import MigrationLint.FileTree.Discovery
import MigrationLint.FileTree.Reading
import MigrationLint.Main
import MigrationLint.Node.Basic
import MigrationLint.Node.Kind
import MigrationLint.Node.OfParseTree
import MigrationLint.Node.Outline
import MigrationLint.Number.Binary64.Basic
import MigrationLint.Number.Binary64.Read
import MigrationLint.Number.Binary64.Shortest
import MigrationLint.Number.Binary64.Thousandths
import MigrationLint.Number.Integer
import MigrationLint.ParseTree.Basic
import MigrationLint.ParseTree.Faults
import MigrationLint.ParseTree.Locals
import MigrationLint.ParseTree.RowText
import MigrationLint.ParseTree.Rows
import MigrationLint.Path.Category
import MigrationLint.Proofs.Command.Agreement
import MigrationLint.Proofs.Command.Arrangement
import MigrationLint.Proofs.Command.Status
import MigrationLint.Proofs.Config.Document
import MigrationLint.Proofs.Config.Load
import MigrationLint.Proofs.Config.Selection
import MigrationLint.Proofs.FileTree.Address
import MigrationLint.Proofs.FileTree.Relisted
import MigrationLint.Proofs.FileTree.Sources
import MigrationLint.Proofs.List
import MigrationLint.Proofs.Node.Address
import MigrationLint.Proofs.Node.Collect
import MigrationLint.Proofs.Node.Locals
import MigrationLint.Proofs.Node.Outline
import MigrationLint.Proofs.Node.Reached
import MigrationLint.Proofs.Node.Recorded
import MigrationLint.Proofs.Node.Remarks
import MigrationLint.Proofs.Node.Roles
import MigrationLint.Proofs.Node.Schema
import MigrationLint.Proofs.Node.Target
import MigrationLint.Proofs.ParseTree.Faults
import MigrationLint.Proofs.ParseTree.Locals
import MigrationLint.Proofs.ParseTree.Outermost
import MigrationLint.Proofs.ParseTree.Parts
import MigrationLint.Proofs.ParseTree.Place
import MigrationLint.Proofs.ParseTree.Remarks
import MigrationLint.Proofs.ParseTree.Search
import MigrationLint.Proofs.Path.Category
import MigrationLint.Proofs.Report.Batch
import MigrationLint.Proofs.Report.Count
import MigrationLint.Proofs.Report.Json
import MigrationLint.Proofs.Report.Printed
import MigrationLint.Proofs.Report.Selected
import MigrationLint.Proofs.Report.Shape
import MigrationLint.Proofs.Report.Summary
import MigrationLint.Proofs.Report.Tally
import MigrationLint.Proofs.Report.Workers
import MigrationLint.Proofs.Rule.Alone
import MigrationLint.Proofs.Rule.Engine
import MigrationLint.Proofs.Rule.Handle
import MigrationLint.Proofs.Rule.History
import MigrationLint.Proofs.Rule.Independence
import MigrationLint.Proofs.Rule.LineOrder
import MigrationLint.Proofs.Rule.Locals
import MigrationLint.Proofs.Rule.Merge
import MigrationLint.Proofs.Rule.Migration
import MigrationLint.Proofs.Rule.Parameters
import MigrationLint.Proofs.Rule.Phases
import MigrationLint.Proofs.Rule.SeedData
import MigrationLint.Proofs.Table
import MigrationLint.Proofs.Text.Wide
import MigrationLint.Report.Basic
import MigrationLint.Report.Item
import MigrationLint.Report.Json
import MigrationLint.Report.OfFiles
import MigrationLint.Report.Summary
import MigrationLint.Report.Tally
import MigrationLint.Report.Timing
import MigrationLint.Rule.Basic
import MigrationLint.Rule.Engine
import MigrationLint.Rule.Script
import MigrationLint.Rule.SeedData
import MigrationLint.Table
import MigrationLint.Text.Blank
import MigrationLint.Text.DecimalDigit
import MigrationLint.Text.Lines
import MigrationLint.Text.Quoted
import MigrationLint.Text.Unprintable
import MigrationLint.Text.Utf8
import MigrationLint.Text.Wide
import MigrationLint.Yaml.Binary
import MigrationLint.Yaml.Cursor
import MigrationLint.Yaml.Date
import MigrationLint.Yaml.Fault
import MigrationLint.Yaml.Graph
import MigrationLint.Yaml.Reader
import MigrationLint.Yaml.Shape
import MigrationLint.Yaml.Tag
import MigrationLint.Yaml.Timestamp
import MigrationLint.Yaml.Token
import MigrationLint.Yaml.Token.Property
import MigrationLint.Yaml.Token.Scalar
import MigrationLint.Yaml.Token.Stream
import MigrationLint.Yaml.Value
import MigrationLint.Yaml.Value.OfGraph
import MigrationLint.Yaml.Value.OfText
