import SchemaCompiler.Main
import SchemaCompiler.Generator.Sample
import SchemaCompiler.Sandbox
import SchemaCompiler.Proofs.Json.ValueReading
import SchemaCompiler.Proofs.Json.RecordReading
import SchemaCompiler.Proofs.Document.JsonForm
import SchemaCompiler.Proofs.Wire.Framing
import SchemaCompiler.Proofs.Wire.RequestRoundTrip
import SchemaCompiler.Proofs.Wire.Base64Text
import SchemaCompiler.Proofs.Wire.ResponseRoundTrip
import SchemaCompiler.Proofs.Check.Collection
import SchemaCompiler.Proofs.Check.Findings
import SchemaCompiler.Proofs.Check.RulesDecided
import SchemaCompiler.Proofs.Check.MergedTypes
import SchemaCompiler.Proofs.Check.Rearranging
import SchemaCompiler.Proofs.Source.Lexemes
import SchemaCompiler.Proofs.Source.Scanning
import SchemaCompiler.Proofs.Source.Lexing
import SchemaCompiler.Proofs.Source.LexicalGrammar
import SchemaCompiler.Proofs.Source.Cutting
import SchemaCompiler.Proofs.Source.Appending
import SchemaCompiler.Proofs.Source.Spacing
import SchemaCompiler.Proofs.Source.BlockLayout
import SchemaCompiler.Proofs.Source.Standing
import SchemaCompiler.Proofs.Document.Canonical
import SchemaCompiler.Proofs.Document.CanonicalLexing
import SchemaCompiler.Proofs.Grammar.Reading
import SchemaCompiler.Proofs.Grammar.DefinitionsRead
import SchemaCompiler.Proofs.Document.Placement
import SchemaCompiler.Proofs.Grammar.Joining
import SchemaCompiler.Proofs.Document.Appending
import SchemaCompiler.Proofs.Document.FirstFault
import SchemaCompiler.Proofs.Document.Layout
import SchemaCompiler.Proofs.Grammar.Spelling
import SchemaCompiler.Proofs.Grammar.Finding
import SchemaCompiler.Proofs.Document.Places
import SchemaCompiler.Proofs.Document.CanonicalReading
import SchemaCompiler.Proofs.FileSystem.Recording
import SchemaCompiler.Proofs.Output.Places
import SchemaCompiler.Proofs.Program.Interleaving
import SchemaCompiler.Proofs.Output.Discipline
import SchemaCompiler.Proofs.Output.Steps
import SchemaCompiler.Proofs.Output.Creating
import SchemaCompiler.Proofs.Pipeline.Calls
import SchemaCompiler.Proofs.Pipeline.AppendOnly
import SchemaCompiler.Proofs.Output.Confinement
import SchemaCompiler.Proofs.Output.Contents
import SchemaCompiler.Proofs.Output.Segments
import SchemaCompiler.Proofs.Output.Retrying
import SchemaCompiler.Proofs.FileSystem.View
import SchemaCompiler.Proofs.FileSystem.MemoryView
import SchemaCompiler.Proofs.FileSystem.Events
import SchemaCompiler.Proofs.FileSystem.Trial
import SchemaCompiler.Proofs.Output.Writing
import SchemaCompiler.Proofs.Plugin.Outcome
import SchemaCompiler.Proofs.Program.Settling
import SchemaCompiler.Proofs.FileSystem.Sharing
import SchemaCompiler.Proofs.Program.Together
import SchemaCompiler.Proofs.Pipeline.Parallel
import SchemaCompiler.Proofs.Output.Settling
import SchemaCompiler.Proofs.Pipeline.EarlyFailures
import SchemaCompiler.Proofs.Pipeline.Sequential
import SchemaCompiler.Proofs.Document.Naming
import SchemaCompiler.Proofs.Pipeline.Recorded
import SchemaCompiler.Proofs.Pipeline.Documentation
import SchemaCompiler.Proofs.Commonmark.Below
import SchemaCompiler.Proofs.Commonmark.Lines
import SchemaCompiler.Proofs.Commonmark.Parts
import SchemaCompiler.Proofs.Commonmark.Names
import SchemaCompiler.Proofs.Commonmark.Links
import SchemaCompiler.Proofs.Commonmark.Listing
import SchemaCompiler.Proofs.Commonmark.Writing
import SchemaCompiler.Proofs.Page.Sections
import SchemaCompiler.Proofs.Page.Contents
import SchemaCompiler.Proofs.Cancel.Forest
import SchemaCompiler.Proofs.Cancel.Deadlines
import SchemaCompiler.Proofs.Registry.Switches
import SchemaCompiler.Proofs.Registry.Discovery
import SchemaCompiler.Proofs.Registry.ItemOrder
import SchemaCompiler.Proofs.Document.ConstantReading
import SchemaCompiler.Proofs.Page.Telling
import SchemaCompiler.Proofs.Page.Views
import SchemaCompiler.Proofs.Page.Constants
import SchemaCompiler.Proofs.Page.Grouping
import SchemaCompiler.Proofs.Page.Pieces
import SchemaCompiler.Proofs.Page.Descriptions
import SchemaCompiler.Proofs.Page.CodeSpans
import SchemaCompiler.Proofs.Page.BlankLines
import SchemaCompiler.Proofs.Grammar.Cursor
import SchemaCompiler.Proofs.Document.NamesTaken
import SchemaCompiler.Proofs.Pipeline.NamedInputs
import SchemaCompiler.Proofs.Grammar.Progress
