import ConventionLint.Analysis
import ConventionLint.Binding.Alias
import ConventionLint.Binding.Build
import ConventionLint.Binding.Reference
import ConventionLint.Binding.Site
import ConventionLint.CommandLine.Command
import ConventionLint.CommandLine.Execution
import ConventionLint.CommandLine.Options
import ConventionLint.Config.Basic
import ConventionLint.Config.Decoding
import ConventionLint.Config.Edit
import ConventionLint.Config.Fingerprint
import ConventionLint.Config.Json
import ConventionLint.Config.Validation
import ConventionLint.Config.Yaml
import ConventionLint.Diagnostic
import ConventionLint.Error
import ConventionLint.Glob
import ConventionLint.Hash.SipHash
import ConventionLint.Json.Value
import ConventionLint.Linter
import ConventionLint.Main
import ConventionLint.Number.Rounding
import ConventionLint.Path
import ConventionLint.Proofs.Analysis.Agreement
import ConventionLint.Proofs.Analysis.Convergence
import ConventionLint.Proofs.Analysis.Edit
import ConventionLint.Proofs.Analysis.FaultIsolation
import ConventionLint.Proofs.Analysis.OrderIndependence
import ConventionLint.Proofs.Analysis.Reported
import ConventionLint.Proofs.Analysis.Violation
import ConventionLint.Proofs.Analysis.Visit
import ConventionLint.Proofs.Binding.AliasInlining
import ConventionLint.Proofs.Binding.AliasTermination
import ConventionLint.Proofs.Binding.Bases
import ConventionLint.Proofs.Binding.Distribution
import ConventionLint.Proofs.Binding.Graph
import ConventionLint.Proofs.Binding.Groups
import ConventionLint.Proofs.Binding.Identity
import ConventionLint.Proofs.Binding.Locations
import ConventionLint.Proofs.Binding.Lookup
import ConventionLint.Proofs.Binding.Members
import ConventionLint.Proofs.Binding.Outline
import ConventionLint.Proofs.Binding.Rearrangement
import ConventionLint.Proofs.Binding.Scopes
import ConventionLint.Proofs.Binding.WellFormed
import ConventionLint.Proofs.Config.Encoding
import ConventionLint.Proofs.Config.Overrides
import ConventionLint.Proofs.Config.ValidLinter
import ConventionLint.Proofs.Config.Validity
import ConventionLint.Proofs.Lists
import ConventionLint.Proofs.Report.Annotations
import ConventionLint.Proofs.Report.Entities
import ConventionLint.Proofs.Report.Markup
import ConventionLint.Proofs.Report.Order
import ConventionLint.Proofs.Report.Sorting
import ConventionLint.Proofs.Source.BracedBody
import ConventionLint.Proofs.Source.Brackets
import ConventionLint.Proofs.Source.DeclarationRoundTrip
import ConventionLint.Proofs.Source.ExpressionBody
import ConventionLint.Proofs.Source.FieldDeclarators
import ConventionLint.Proofs.Source.FileRoundTrip
import ConventionLint.Proofs.Source.Identities
import ConventionLint.Proofs.Source.Leftover
import ConventionLint.Proofs.Source.LexicalGrammar
import ConventionLint.Proofs.Source.LexicalRoundTrip
import ConventionLint.Proofs.Source.Lexing
import ConventionLint.Proofs.Source.LiteralReading
import ConventionLint.Proofs.Source.MachineReading
import ConventionLint.Proofs.Source.MemberRoundTrip
import ConventionLint.Proofs.Source.Outcome
import ConventionLint.Proofs.Source.Places
import ConventionLint.Proofs.Source.PlainReading
import ConventionLint.Proofs.Source.Positions
import ConventionLint.Proofs.Source.ReadingMachine
import ConventionLint.Proofs.Source.Termination
import ConventionLint.Proofs.Source.TokenLoops
import ConventionLint.Proofs.Source.TypeRoundTrip
import ConventionLint.Proofs.Source.TypedMember
import ConventionLint.Proofs.Source.VerbatimLiteral
import ConventionLint.Proofs.Source.Writing
import ConventionLint.Proofs.Source.WrittenText
import ConventionLint.Proofs.Taxonomy.BaseChain
import ConventionLint.Proofs.Taxonomy.Correspondence
import ConventionLint.Proofs.Taxonomy.IndexQuery
import ConventionLint.Proofs.Taxonomy.IndexScan
import ConventionLint.Proofs.Taxonomy.LongestChain
import ConventionLint.Proofs.Taxonomy.MarkerBases
import ConventionLint.Proofs.Taxonomy.NearestMarker
import ConventionLint.Proofs.Taxonomy.RelaxedIdentity
import ConventionLint.Proofs.Text.Splitting
import ConventionLint.Proofs.Workspace.Anchoring
import ConventionLint.Proofs.Workspace.Decision
import ConventionLint.Proofs.Workspace.Directories
import ConventionLint.Proofs.Workspace.Discovery
import ConventionLint.Proofs.Workspace.Listing
import ConventionLint.Report.Basic
import ConventionLint.Report.BuildServer
import ConventionLint.Report.Format
import ConventionLint.Report.Human
import ConventionLint.Report.Json
import ConventionLint.Rule.Basic
import ConventionLint.Rule.Standard
import ConventionLint.Source.Balanced
import ConventionLint.Source.Declaration
import ConventionLint.Source.FileReading
import ConventionLint.Source.HeaderReading
import ConventionLint.Source.Literal
import ConventionLint.Source.MemberReading
import ConventionLint.Source.Piece
import ConventionLint.Source.Position
import ConventionLint.Source.Token
import ConventionLint.Source.TypeBodyReading
import ConventionLint.Source.TypeReading
import ConventionLint.Symbol
import ConventionLint.Taxonomy.Classification
import ConventionLint.Taxonomy.Index
import ConventionLint.Taxonomy.Marker
import ConventionLint.Text.CharClass
import ConventionLint.Text.Dotted
import ConventionLint.Text.LetterCase
import ConventionLint.Text.Split
import ConventionLint.Time.Instant
import ConventionLint.Workspace.FileTree
import ConventionLint.Workspace.Loading
import ConventionLint.Workspace.PathFilter
import ConventionLint.Yaml.Cursor
import ConventionLint.Yaml.Node
import ConventionLint.Yaml.Scalar
import ConventionLint.Yaml.Token
