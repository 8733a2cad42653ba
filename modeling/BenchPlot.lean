import BenchPlot.Aggregation
import BenchPlot.Command.Arguments
import BenchPlot.Command.Basic
import BenchPlot.Command.Failure
import BenchPlot.Command.Form
import BenchPlot.Command.Importing
import BenchPlot.Command.Manifest
import BenchPlot.Command.Plotting
import BenchPlot.Command.Report
import BenchPlot.Command.Run
import BenchPlot.Command.Session
import BenchPlot.Csv.Basic
import BenchPlot.Decimal.Binary
import BenchPlot.Decimal.Layout
import BenchPlot.Decimal.Reading
import BenchPlot.Decimal.Shortest
import BenchPlot.Description.Basic
import BenchPlot.Description.Document
import BenchPlot.Description.Error
import BenchPlot.Description.ItemValue
import BenchPlot.Description.LogicalLine
import BenchPlot.Description.Source
import BenchPlot.Description.Vocabulary
import BenchPlot.Digest.Sha256
import BenchPlot.FileTree
import BenchPlot.Formula.Basic
import BenchPlot.Formula.Error
import BenchPlot.Formula.Evaluation
import BenchPlot.Formula.Expr
import BenchPlot.Formula.Lexer
import BenchPlot.Formula.Operation
import BenchPlot.Formula.Parser
import BenchPlot.Formula.Reference
import BenchPlot.Formula.Scope
import BenchPlot.Formula.Template
import BenchPlot.Formula.Token
import BenchPlot.Layout.Axis
import BenchPlot.Layout.Basic
import BenchPlot.Layout.Graph
import BenchPlot.Layout.Instance
import BenchPlot.Layout.Passes
import BenchPlot.Main
import BenchPlot.Name
import BenchPlot.Output.Json
import BenchPlot.Output.Listing
import BenchPlot.Output.PlotXml
import BenchPlot.Output.Script
import BenchPlot.Output.Xml
import BenchPlot.Plan.Basic
import BenchPlot.Plan.Binding
import BenchPlot.Plan.Building
import BenchPlot.Plan.CurveData
import BenchPlot.Plan.Error
import BenchPlot.Proofs.Decimal.Float
import BenchPlot.Proofs.Decimal.PlainText
import BenchPlot.Proofs.Decimal.ReadBack
import BenchPlot.Proofs.Decimal.Rounding
import BenchPlot.Proofs.Name.Canonical
import BenchPlot.Proofs.Name.Identity
import BenchPlot.Proofs.Store.Accepted
import BenchPlot.Proofs.Store.BenchmarkSteps
import BenchPlot.Proofs.Store.ExperimentSteps
import BenchPlot.Proofs.Store.FieldSteps
import BenchPlot.Proofs.Store.ImportChunks
import BenchPlot.Proofs.Store.ImportSteps
import BenchPlot.Proofs.Store.InsertByKey
import BenchPlot.Proofs.Store.Kept
import BenchPlot.Proofs.Store.Later
import BenchPlot.Proofs.Store.Lookup
import BenchPlot.Proofs.Store.MirrorInvariant
import BenchPlot.Proofs.Store.Reach
import BenchPlot.Proofs.Store.Row
import BenchPlot.Proofs.Store.SchemaInvariant
import BenchPlot.Proofs.Store.Sound
import BenchPlot.SortedMap
import BenchPlot.Sql.Affinity
import BenchPlot.Sql.Datum
import BenchPlot.Sql.Grammar
import BenchPlot.Sql.Statement
import BenchPlot.Sql.Table
import BenchPlot.Sql.Term
import BenchPlot.Sql.Token
import BenchPlot.Statistics.Arithmetic
import BenchPlot.Statistics.Basic
import BenchPlot.Statistics.StudentT
import BenchPlot.Store.Archive
import BenchPlot.Store.Basic
import BenchPlot.Store.Error
import BenchPlot.Store.Experiments
import BenchPlot.Store.Import
import BenchPlot.Store.Schema
import BenchPlot.Store.Selection
import BenchPlot.Store.Statements
import BenchPlot.Store.WideTable
import BenchPlot.Style
import BenchPlot.Text.Blank
import BenchPlot.Text.Escaped
import BenchPlot.Text.HiddenTable
import BenchPlot.Text.LetterCase
import BenchPlot.Text.LetterTable
import BenchPlot.Text.Pieces
import BenchPlot.Text.Utf8
import BenchPlot.Value
import BenchPlot.Value.AxisKey
import BenchPlot.Proofs.Store.Frame
import BenchPlot.Proofs.Store.DataKept
import BenchPlot.Proofs.Store.IndexBacking
import BenchPlot.Proofs.SortedMap
import BenchPlot.Proofs.Store.AutoKey
import BenchPlot.Proofs.Store.Refusal
import BenchPlot.Proofs.Store.Timeless
import BenchPlot.Proofs.Store.RowValues
import BenchPlot.Proofs.Store.ImportByRow
import BenchPlot.Proofs.Formula.Definitions
import BenchPlot.Proofs.Formula.Derivation
import BenchPlot.Proofs.Formula.Evaluating
import BenchPlot.Proofs.Formula.Failures
import BenchPlot.Proofs.Formula.Reading
import BenchPlot.Proofs.Formula.References
import BenchPlot.Proofs.Formula.Rendering
import BenchPlot.Proofs.Formula.ScopeChecks
import BenchPlot.Proofs.Formula.Sites
import BenchPlot.Proofs.Formula.Parsing
import BenchPlot.Proofs.Sql.Scanning
import BenchPlot.Proofs.Sql.Reading
import BenchPlot.Proofs.Sql.Literal
import BenchPlot.Proofs.Decimal.Order
import BenchPlot.Proofs.Store.ValueOrder
import BenchPlot.Proofs.Store.Columns
import BenchPlot.Proofs.Store.Conditions
import BenchPlot.Proofs.Store.Selecting
import BenchPlot.Proofs.Plan.Equality
import BenchPlot.Proofs.Plan.Footprint
import BenchPlot.Proofs.Value.AxisOrder
import BenchPlot.Proofs.Plan.CurveData
import BenchPlot.Proofs.Plan.Iteration
import BenchPlot.Proofs.Plan.VariableFilter
import BenchPlot.Proofs.Plan.Numbering
import BenchPlot.Proofs.Layout.Drawing
import BenchPlot.Proofs.Layout.Places
import BenchPlot.Proofs.Layout.CategoryAxes
import BenchPlot.Proofs.Layout.Selection
import BenchPlot.Proofs.Layout.Independence
import BenchPlot.Proofs.Layout.HiddenCurves
import BenchPlot.Proofs.Style
import BenchPlot.Proofs.Layout.BuiltPlans
import BenchPlot.Proofs.Text.Lines
import BenchPlot.Proofs.Description.Reading
import BenchPlot.Proofs.Description.Ending
import BenchPlot.Proofs.Description.LogicalLines
import BenchPlot.Proofs.Plan.Failures
import BenchPlot.Proofs.Output.PointRecords
import BenchPlot.Proofs.Csv.Width
import BenchPlot.Proofs.Store.ImportedRows
import BenchPlot.Proofs.Store.ImportedCells
import BenchPlot.Proofs.Store.RowDigest
import BenchPlot.Proofs.Store.DigestedRows
import BenchPlot.Proofs.Store.BulkChanges
import BenchPlot.Proofs.Decimal.Finite
import BenchPlot.Proofs.Formula.FiniteValues
import BenchPlot.Proofs.Formula.Segments
import BenchPlot.Proofs.Formula.QuotedRegions
import BenchPlot.Proofs.Value.Literal
import BenchPlot.Proofs.Plan.FilterStructure
import BenchPlot.Proofs.Layout.BarGroups
import BenchPlot.Proofs.Statistics.ExactNumbers
import BenchPlot.Proofs.Statistics.Bounds
import BenchPlot.Proofs.Layout.Stacks
import BenchPlot.Proofs.Layout.BaseCurves
import BenchPlot.Proofs.Layout.PointInvariants
import BenchPlot.Proofs.Layout.ErrorBounds
import BenchPlot.Proofs.Decimal.Signs
import BenchPlot.Proofs.Decimal.ZeroSigns
import BenchPlot.Proofs.Layout.LogAxes
import BenchPlot.Proofs.Statistics.Summaries
import BenchPlot.Proofs.Formula.Templates
import BenchPlot.Proofs.Formula.NumberShapes
import BenchPlot.Proofs.Description.Renumbering
import BenchPlot.Proofs.Description.Continuation
import BenchPlot.Proofs.Description.Includes
import BenchPlot.Proofs.Plan.Forest
import BenchPlot.Proofs.Plan.Placement
import BenchPlot.Proofs.Output.ElementTexts
import BenchPlot.Proofs.Output.ListingLines
import BenchPlot.Proofs.Value.AxisGroups
import BenchPlot.Proofs.Name.Decoding
import BenchPlot.Proofs.Plan.Groupings
import BenchPlot.Proofs.Text.Utf8
import BenchPlot.Proofs.Store.Archived
import BenchPlot.Proofs.Command.StoreFiles
import BenchPlot.Proofs.Command.MarkingInTurn
import BenchPlot.Proofs.Value.NumberTexts
import BenchPlot.Proofs.Output.QuotedTexts
import BenchPlot.Proofs.Description.LineGroups
