import ExprImports.Activity
import ExprImports.AssemblyName
import ExprImports.Binding.Alias
import ExprImports.Binding.Context
import ExprImports.Binding.Conversion
import ExprImports.Binding.Expression
import ExprImports.Binding.Fault
import ExprImports.Catalog.Basic
import ExprImports.Catalog.CoreType
import ExprImports.Catalog.Declaration
import ExprImports.Catalog.Hierarchy
import ExprImports.Catalog.Initial
import ExprImports.Catalog.Naming
import ExprImports.Closure
import ExprImports.CommandLine.Arguments
import ExprImports.CommandLine.Files
import ExprImports.CommandLine.Report
import ExprImports.Configuration
import ExprImports.DefaultAssemblies
import ExprImports.Diagnostic
import ExprImports.Distinct
import ExprImports.Environment
import ExprImports.Factory
import ExprImports.Imports
import ExprImports.Json.Quoted
import ExprImports.Json.Reading
import ExprImports.Json.Value
import ExprImports.Json.Writing
import ExprImports.Location
import ExprImports.Number.Binary64
import ExprImports.Recompilation
import ExprImports.SavedImports
import ExprImports.Schema.Declaration
import ExprImports.Schema.Loading
import ExprImports.Schema.TypeReference
import ExprImports.Span
import ExprImports.Surface.Expression
import ExprImports.Surface.Lexeme
import ExprImports.Surface.Operator
import ExprImports.Surface.Parsing
import ExprImports.Surface.Token
import ExprImports.Surface.Tokenization
import ExprImports.SurfaceCompiler
import ExprImports.Text.Blank
import ExprImports.Text.Hexadecimal
import ExprImports.Text.Pieces
import ExprImports.Text.Printable
import ExprImports.Text.Quoted
import ExprImports.Toml.DateTime
import ExprImports.Toml.Document
import ExprImports.Toml.Quoted
import ExprImports.Toml.Reading
import ExprImports.Toml.Scalar
import ExprImports.Toml.Value
import ExprImports.Tree
import ExprImports.Main
import ExprImports.Proofs.Outcomes
import ExprImports.Proofs.Nodes
import ExprImports.Proofs.Texts
import ExprImports.Proofs.AssemblyNames
import ExprImports.Proofs.Catalog.Steps
import ExprImports.Proofs.Catalog.Growth
import ExprImports.Proofs.Catalog.Interning
import ExprImports.Proofs.Catalog.Regularity
import ExprImports.Proofs.Catalog.Names
import ExprImports.Proofs.Closure.Walk
import ExprImports.Proofs.Closure.Anchors
import ExprImports.Proofs.Closure.Reachability
import ExprImports.Proofs.Closure.Coverage
import ExprImports.Proofs.Closure.Records
import ExprImports.Proofs.Binding.Typing
import ExprImports.Proofs.Binding.Conversion
import ExprImports.Proofs.Binding.Soundness
import ExprImports.Proofs.Binding.Indexers
import ExprImports.Proofs.Binding.Meaning
import ExprImports.Proofs.Binding.Forms
import ExprImports.Proofs.Binding.Assembly
import ExprImports.Proofs.Binding.Paths
import ExprImports.Proofs.Binding.Contexts
import ExprImports.Proofs.Surface.Printing
import ExprImports.Proofs.Surface.Reading
import ExprImports.Proofs.Surface.Readable
import ExprImports.Proofs.Surface.Completeness
import ExprImports.Proofs.Surface.Spelling
import ExprImports.Proofs.Surface.Soundness
import ExprImports.Proofs.Surface.Words
import ExprImports.Proofs.Surface.Tiling
import ExprImports.Proofs.Surface.Culprits
import ExprImports.Proofs.Surface.Faults
import ExprImports.Proofs.Binding.Faults
import ExprImports.Proofs.Schema.Loading
import ExprImports.Proofs.Recompilation.Stages
import ExprImports.Proofs.Recompilation.Imports
import ExprImports.Proofs.Recompilation.Replay
import ExprImports.Proofs.Recompilation.Factories
import ExprImports.Proofs.Recompilation.Contract
import ExprImports.Proofs.Recompilation.Targets
import ExprImports.Proofs.Recompilation.Modes
import ExprImports.Proofs.Recompilation.Safety
import ExprImports.Proofs.Recompilation.Diagnostics
import ExprImports.Proofs.Recompilation.Variables
import ExprImports.Proofs.Recompilation.Visibility
import ExprImports.Proofs.Recompilation.HintSets
import ExprImports.Proofs.Catalog.Ancestors
import ExprImports.Proofs.Closure.Termination
import ExprImports.Proofs.Catalog.Index
import ExprImports.Proofs.Catalog.Consistency
import ExprImports.Proofs.Catalog.Conversions
import ExprImports.Proofs.Binding.Symmetry
import ExprImports.Proofs.Binding.Parts
import ExprImports.Proofs.Binding.Overloads
import ExprImports.Proofs.Locations
import ExprImports.Proofs.Recompilation.Parameters
import ExprImports.Proofs.Recompilation.Arrays
import ExprImports.Proofs.Recompilation.Assignments
import ExprImports.Proofs.Schema.Arrays
import ExprImports.Proofs.Schema.Spelling
import ExprImports.Proofs.Schema.References
import ExprImports.Proofs.Schema.Headings
import ExprImports.Proofs.Schema.Outlines
import ExprImports.Proofs.Schema.Declaring
import ExprImports.Proofs.Schema.Readings
import ExprImports.Proofs.Schema.Effects
import ExprImports.Proofs.Schema.Summaries
import ExprImports.Proofs.Schema.Exchange
import ExprImports.Proofs.Recompilation.FactoryRuns
import ExprImports.Proofs.Json.RoundTrip
import ExprImports.Proofs.SavedImports
import ExprImports.Proofs.Surface.Display
import ExprImports.Proofs.Environments
import ExprImports.Proofs.Surface.Counting
import ExprImports.Proofs.Surface.Following
import ExprImports.Proofs.Surface.DepthGuard
import ExprImports.Proofs.Surface.Heights
import ExprImports.Proofs.Surface.Cursor
import ExprImports.Proofs.Surface.Views
import ExprImports.Proofs.Surface.Endings
import ExprImports.Proofs.Schema.Retention
import ExprImports.Proofs.CommandLine.Options
import ExprImports.Proofs.CommandLine.Requests
