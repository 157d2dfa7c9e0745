import ChartStyle.Attributes
import ChartStyle.Batch
import ChartStyle.Bundled.Colours
import ChartStyle.Bundled.Presentation
import ChartStyle.Bundled.Rules
import ChartStyle.Bundled.Symbols
import ChartStyle.Catalog
import ChartStyle.Colour.Names
import ChartStyle.Colour.Palette
import ChartStyle.Colour.Spec
import ChartStyle.CommandLine.Invocation
import ChartStyle.CommandLine.Options
import ChartStyle.CommandLine.Run
import ChartStyle.CommandLine.Values
import ChartStyle.Console
import ChartStyle.Diagnostic
import ChartStyle.Double.Arith
import ChartStyle.Double.Basic
import ChartStyle.Double.Layout
import ChartStyle.Double.Round
import ChartStyle.Double.Shortest
import ChartStyle.Drawing.Area
import ChartStyle.Drawing.Check
import ChartStyle.Drawing.Context
import ChartStyle.Drawing.Draw
import ChartStyle.Drawing.Fragment
import ChartStyle.Drawing.Line
import ChartStyle.Drawing.Symbol
import ChartStyle.Drawing.Text
import ChartStyle.Fault
import ChartStyle.Files.Action
import ChartStyle.Files.Path
import ChartStyle.Files.Tables
import ChartStyle.Files.Tree
import ChartStyle.Instruction.Basic
import ChartStyle.Instruction.Parser
import ChartStyle.Instruction.Print
import ChartStyle.Instruction.Split
import ChartStyle.Json.Reader
import ChartStyle.Json.Writer
import ChartStyle.Logging
import ChartStyle.Lookup.Normal
import ChartStyle.Lookup.Rule
import ChartStyle.Lookup.Table
import ChartStyle.Main
import ChartStyle.Names
import ChartStyle.Presentation
import ChartStyle.Procedure.Depth
import ChartStyle.Procedure.Evaluate
import ChartStyle.Procedure.Light
import ChartStyle.Proofs.Agreement
import ChartStyle.Proofs.ArgumentSpelling
import ChartStyle.Proofs.AttributeOrder
import ChartStyle.Proofs.AttributeReading
import ChartStyle.Proofs.AttributeTexts
import ChartStyle.Proofs.BatchCompletion
import ChartStyle.Proofs.CallReadings
import ChartStyle.Proofs.CanonicalOrder
import ChartStyle.Proofs.CatalogExtension
import ChartStyle.Proofs.CatalogFaults
import ChartStyle.Proofs.CheckedCalls
import ChartStyle.Proofs.ChoiceOptions
import ChartStyle.Proofs.ColourErasure
import ChartStyle.Proofs.Contours
import ChartStyle.Proofs.Cuts
import ChartStyle.Proofs.Dangers
import ChartStyle.Proofs.DeferredTexts
import ChartStyle.Proofs.DepthBanding
import ChartStyle.Proofs.DoubleOrder
import ChartStyle.Proofs.DrawnCalls
import ChartStyle.Proofs.ExactRounding
import ChartStyle.Proofs.ExclusiveFilter
import ChartStyle.Proofs.FileTrees
import ChartStyle.Proofs.FilledTemplates
import ChartStyle.Proofs.FiniteTurns
import ChartStyle.Proofs.FlareSelection
import ChartStyle.Proofs.FormattedTexts
import ChartStyle.Proofs.InstructionSpelling
import ChartStyle.Proofs.LayerNames
import ChartStyle.Proofs.LayerOrder
import ChartStyle.Proofs.LightDescriptions
import ChartStyle.Proofs.LostLayers
import ChartStyle.Proofs.LostSymbols
import ChartStyle.Proofs.Mending
import ChartStyle.Proofs.ModeIsolation
import ChartStyle.Proofs.MonotoneRounding
import ChartStyle.Proofs.NameFaults
import ChartStyle.Proofs.NormalForm
import ChartStyle.Proofs.NumberForms
import ChartStyle.Proofs.NumberText
import ChartStyle.Proofs.NumeralReading
import ChartStyle.Proofs.Outcomes
import ChartStyle.Proofs.PaletteTokens
import ChartStyle.Proofs.Parentheses
import ChartStyle.Proofs.PickedSymbols
import ChartStyle.Proofs.PinnedValues
import ChartStyle.Proofs.PrintedArguments
import ChartStyle.Proofs.PrintedCalls
import ChartStyle.Proofs.ProcedureCalls
import ChartStyle.Proofs.ProcedureDependence
import ChartStyle.Proofs.ProcedureOutput
import ChartStyle.Proofs.ProcedureReadings
import ChartStyle.Proofs.ReadCalls
import ChartStyle.Proofs.ReadLists
import ChartStyle.Proofs.Readings
import ChartStyle.Proofs.RearrangedTables
import ChartStyle.Proofs.RecordFaults
import ChartStyle.Proofs.RuleGroups
import ChartStyle.Proofs.RuleSelection
import ChartStyle.Proofs.SavedSettings
import ChartStyle.Proofs.SettledCalls
import ChartStyle.Proofs.SplitParts
import ChartStyle.Proofs.StandIns
import ChartStyle.Proofs.StepChoice
import ChartStyle.Proofs.SymbolLookups
import ChartStyle.Proofs.SymbolTurns
import ChartStyle.Proofs.TableOrder
import ChartStyle.Proofs.TemplateFields
import ChartStyle.Proofs.Trimming
import ChartStyle.Proofs.TypedGetters
import ChartStyle.Proofs.UnusableValues
import ChartStyle.Proofs.UpperCase
import ChartStyle.Proofs.WholeNumbers
import ChartStyle.Registry
import ChartStyle.Renderer.Evaluate
import ChartStyle.Renderer.Expr
import ChartStyle.Report
import ChartStyle.Settings
import ChartStyle.Style
import ChartStyle.Text.Blank
import ChartStyle.Text.Digit
import ChartStyle.Text.Number
import ChartStyle.Text.Parts
import ChartStyle.Text.Printable
import ChartStyle.Text.Quoted
import ChartStyle.Text.Template
import ChartStyle.Text.Upper
import ChartStyle.Value.Basic
import ChartStyle.Value.Entries
import ChartStyle.Value.Number
import ChartStyle.Value.Show
import ChartStyle.Yaml.Cursor
import ChartStyle.Yaml.Format
import ChartStyle.Yaml.Quoted
import ChartStyle.Yaml.Reader
import ChartStyle.Yaml.Scalar
import ChartStyle.Yaml.Token
import ChartStyle.Yaml.Writer
