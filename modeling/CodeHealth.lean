import CodeHealth.Advice.Backend
import CodeHealth.Advice.Enhancement
import CodeHealth.Advice.Exchange
import CodeHealth.Advice.Extraction
import CodeHealth.Advice.Failure
import CodeHealth.Advice.Payload
import CodeHealth.Advice.Prompt
import CodeHealth.Advice.Prose
import CodeHealth.Advice.Request
import CodeHealth.Advice.Service
import CodeHealth.Advice.Wire
import CodeHealth.Analysis.Evaluation
import CodeHealth.Analysis.FileSet
import CodeHealth.Analysis.Report
import CodeHealth.Check.Basic
import CodeHealth.Check.Builtin
import CodeHealth.Check.ComponentLength
import CodeHealth.Check.ConsoleCall
import CodeHealth.Check.ExplicitAny
import CodeHealth.Check.Hook
import CodeHealth.Check.InlineHandler
import CodeHealth.Check.LooseEquality
import CodeHealth.Check.MissingKey
import CodeHealth.Check.NonNullAssertion
import CodeHealth.Check.OpeningTag
import CodeHealth.Check.Suppression
import CodeHealth.Check.VarDeclaration
import CodeHealth.CommandLine.AdviceChoice
import CodeHealth.CommandLine.Analyze
import CodeHealth.CommandLine.Ansi
import CodeHealth.CommandLine.Command
import CodeHealth.CommandLine.Grammar
import CodeHealth.CommandLine.Host
import CodeHealth.CommandLine.Init
import CodeHealth.CommandLine.Insights
import CodeHealth.CommandLine.Rules
import CodeHealth.CommandLine.Run
import CodeHealth.CommandLine.Sight
import CodeHealth.Decimal.Notation
import CodeHealth.Decimal.Reading
import CodeHealth.Decimal.Shortest
import CodeHealth.FileSystem
import CodeHealth.FileTree
import CodeHealth.Finding.Basic
import CodeHealth.Finding.Score
import CodeHealth.Glob
import CodeHealth.IgnoreFile
import CodeHealth.Instant
import CodeHealth.Json.Fault
import CodeHealth.Json.Reader
import CodeHealth.Json.Record
import CodeHealth.Json.Scan
import CodeHealth.Json.Value
import CodeHealth.Json.Writer
import CodeHealth.KeyMap
import CodeHealth.Main
import CodeHealth.Path
import CodeHealth.Project.Analysis
import CodeHealth.Project.Discovery
import CodeHealth.Project.Info
import CodeHealth.Project.Manifest
import CodeHealth.Project.Settings
import CodeHealth.Project.UserSettings
import CodeHealth.Proofs.AllowLists
import CodeHealth.Proofs.AnyPlaces
import CodeHealth.Proofs.ArgumentPieces
import CodeHealth.Proofs.AssertionPlaces
import CodeHealth.Proofs.AttributeLookup
import CodeHealth.Proofs.BraceScan
import CodeHealth.Proofs.BracketCounts
import CodeHealth.Proofs.BracketMatching
import CodeHealth.Proofs.ByteScans
import CodeHealth.Proofs.Calendar
import CodeHealth.Proofs.Cancellation
import CodeHealth.Proofs.CategoryGroups
import CodeHealth.Proofs.CommentParts
import CodeHealth.Proofs.Completion
import CodeHealth.Proofs.ComponentReading
import CodeHealth.Proofs.ConditionalCalls
import CodeHealth.Proofs.DecoyObjects
import CodeHealth.Proofs.DependencyArguments
import CodeHealth.Proofs.Evaluation
import CodeHealth.Proofs.ExtractionOrder
import CodeHealth.Proofs.FaultyRequests
import CodeHealth.Proofs.FileListing
import CodeHealth.Proofs.FindingOrder
import CodeHealth.Proofs.FlatBlocks
import CodeHealth.Proofs.HeaderReading
import CodeHealth.Proofs.HitAccounting
import CodeHealth.Proofs.InstantText
import CodeHealth.Proofs.Isolation
import CodeHealth.Proofs.JsonLeaves
import CodeHealth.Proofs.JsonReader
import CodeHealth.Proofs.JsonText
import CodeHealth.Proofs.JsonWriter
import CodeHealth.Proofs.KeyAgreement
import CodeHealth.Proofs.KeyedGroups
import CodeHealth.Proofs.LengthBudget
import CodeHealth.Proofs.LineHits
import CodeHealth.Proofs.LineMasking
import CodeHealth.Proofs.LinePlaces
import CodeHealth.Proofs.ListReading
import CodeHealth.Proofs.LocationCells
import CodeHealth.Proofs.LooseComparisons
import CodeHealth.Proofs.MarkdownTables
import CodeHealth.Proofs.MarkupReading
import CodeHealth.Proofs.MaskedPlaces
import CodeHealth.Proofs.NestedConditions
import CodeHealth.Proofs.NestedMaps
import CodeHealth.Proofs.NonInterference
import CodeHealth.Proofs.OpenBraces
import CodeHealth.Proofs.OperandReading
import CodeHealth.Proofs.OrderIndependence
import CodeHealth.Proofs.PathNames
import CodeHealth.Proofs.PayloadRecovery
import CodeHealth.Proofs.PhraseReading
import CodeHealth.Proofs.PlaceCounts
import CodeHealth.Proofs.PossibleRuns
import CodeHealth.Proofs.PresetOrder
import CodeHealth.Proofs.PromptGroups
import CodeHealth.Proofs.PromptOrder
import CodeHealth.Proofs.PromptSections
import CodeHealth.Proofs.ProseReading
import CodeHealth.Proofs.Provenance
import CodeHealth.Proofs.QuotedArrays
import CodeHealth.Proofs.Recognition
import CodeHealth.Proofs.ReplyPlaces
import CodeHealth.Proofs.ReplyText
import CodeHealth.Proofs.ReportCoherence
import CodeHealth.Proofs.ReportRoundTrip
import CodeHealth.Proofs.Resolution
import CodeHealth.Proofs.Retry
import CodeHealth.Proofs.RetryBudget
import CodeHealth.Proofs.RuleSettings
import CodeHealth.Proofs.ScoreHalves
import CodeHealth.Proofs.ScoreLaw
import CodeHealth.Proofs.ScriptReading
import CodeHealth.Proofs.SourceListing
import CodeHealth.Proofs.StableSort
import CodeHealth.Proofs.SteadyCheckers
import CodeHealth.Proofs.SuppressionPlaces
import CodeHealth.Proofs.TagEnds
import CodeHealth.Proofs.TagMasking
import CodeHealth.Proofs.TagPhrases
import CodeHealth.Proofs.TagTests
import CodeHealth.Proofs.TextKeys
import CodeHealth.Proofs.TextLines
import CodeHealth.Proofs.ThresholdGate
import CodeHealth.Proofs.TreeAddresses
import CodeHealth.Proofs.TreeKeys
import CodeHealth.Proofs.Utf8Bytes
import CodeHealth.Proofs.ValuePhrases
import CodeHealth.Proofs.ValueReading
import CodeHealth.Report.Basic
import CodeHealth.Report.Codec
import CodeHealth.Report.Format
import CodeHealth.Report.Markdown
import CodeHealth.Report.Table
import CodeHealth.Rule.Catalog
import CodeHealth.Rule.Codec
import CodeHealth.Rule.Options
import CodeHealth.Rule.Preset
import CodeHealth.Rule.Resolution
import CodeHealth.Script.Binding
import CodeHealth.Script.Cursor
import CodeHealth.Script.Declaration
import CodeHealth.Script.Expression
import CodeHealth.Script.Grammar
import CodeHealth.Script.ImportExport
import CodeHealth.Script.Language
import CodeHealth.Script.Literal
import CodeHealth.Script.Markup
import CodeHealth.Script.Member
import CodeHealth.Script.Operator
import CodeHealth.Script.Parser
import CodeHealth.Script.Statement
import CodeHealth.Script.Tree
import CodeHealth.Script.TypeSyntax
import CodeHealth.Script.Word
import CodeHealth.Severity
import CodeHealth.Text.Bracket
import CodeHealth.Text.ClassTables
import CodeHealth.Text.Classes
import CodeHealth.Text.Line
import CodeHealth.Text.Lowercase
import CodeHealth.Text.Masking
import CodeHealth.Text.Occurrence
import CodeHealth.Text.Tag
import CodeHealth.Text.Utf8
import CodeHealth.Toml.Reader
import CodeHealth.Toml.Scan
import CodeHealth.Toml.Table
import CodeHealth.Word
