import ExprImports.CommandLine.Arguments
import ExprImports.CommandLine.Files
import ExprImports.Configuration
import ExprImports.SavedImports
import ExprImports.Schema.Loading
import ExprImports.SurfaceCompiler

/-!
# Reports

The command compiles an expression over a schema and reports its type and the imports
it needs, as lines or as JSON. Of several faults the first is reported in the order
schema, configuration, target, expression.
-/

set_option autoImplicit false

namespace ExprImports.CommandLine

/-- The files that the options name. -/
structure Documents where
  schema : Option Contents := none
  configuration : Option Contents := none
  deriving Inhabited

/-- The files that the options name, out of a tree. -/
def Files.documents (files : Files) (options : Options) : Documents where
  schema := options.schema.map files.read
  configuration := options.configuration.map files.read

/-- Why there is no report. -/
inductive Failure where
  | unreadableSchema (fault : ReadFault)
  | schema (fault : Schema.Fault)
  | unreadableConfiguration (fault : ReadFault)
  | malformedConfiguration
  | unknownTarget (name : String)
  | source (diagnostic : Diagnostic)
  | recompilation (error : RecompileError)
  deriving DecidableEq, Inhabited

namespace Failure

/-- The text of a failure. -/
def message : Failure → String
  | unreadableSchema fault => "Failed to read schema file: " ++ fault.message
  | schema fault => fault.message
  | unreadableConfiguration fault =>
    "Failed to read configuration file: " ++ fault.message
  | malformedConfiguration => "Invalid configuration: "
  | unknownTarget name => "Unknown target type `" ++ name ++ "`"
  | source diagnostic => diagnostic.message
  | recompilation error => error.message

/-- The code under which a failure is reported, if it has one. -/
def code? : Failure → Option String
  | source _ => some Diagnostic.code
  | recompilation error => some error.code
  | _ => none

end Failure

/-- The type and the imports of an expression. -/
structure Report where
  typeName : String
  imports : ImportSettings
  deriving DecidableEq, Inhabited

namespace Report

/-- A record on a line of its own. -/
def recordLine (record : ImportRecord) : String :=
  match record.namespaceName with
  | some name => "  " ++ record.assembly ++ " " ++ name ++ "\n"
  | none => "  " ++ record.assembly ++ "\n"

/-- The report as lines. -/
def lines (report : Report) : String :=
  let records := report.imports.records
  let note := if records.isEmpty then "no imports\n" else ""
  "type: " ++ report.typeName ++ "\n" ++ note ++ String.join (records.map recordLine)

/-- The report as JSON: the entries of the saved imports behind the name of the type. -/
def json (report : Report) : String :=
  let type : String × Json.Value := ("resolved-type", .text report.typeName)
  (Json.Value.object (type :: report.imports.toEntries)).indented ++ "\n"

end Report

/-- The schema to compile over. -/
def schemaOf (documents : Documents) : Except Failure Schema :=
  match documents.schema with
  | none => .ok .core
  | some (.error fault) => .error (.unreadableSchema fault)
  | some (.ok text) => (Schema.ofText text).mapError .schema

/-- The configuration to compile under. -/
def configurationOf (documents : Documents) : Except Failure Configuration :=
  match documents.configuration with
  | none => .ok {}
  | some (.error fault) => .error (.unreadableConfiguration fault)
  | some (.ok text) =>
    match Configuration.ofText? text with
    | some configuration => .ok configuration
    | none => .error .malformedConfiguration

/-- The type that is asked for. Its name may leave out a namespace that is hinted at,
and the one of the core types. -/
def targetOf (catalog : Catalog) (options : Options) : Except Failure (Option TypeId) :=
  match options.target with
  | none => .ok none
  | some name =>
    match catalog.resolveName? (Binding.expandAlias name) (options.namespaces ++ ["System"]) with
    | some type => .ok (some type)
    | none => .error (.unknownTarget name)

namespace Invocation

/-- The request to compile the expression. -/
def request (invocation : Invocation) (environment : Environment) (target : Option TypeId) :
    Request :=
  let options := invocation.options
  { text := invocation.expression
    language := SurfaceCompiler.language
    environment
    hints := .ofLists (options.namespaces.map some) (options.assemblies.map some)
    mode := if options.isReference then .reference else .value
    target }

/-- The report on the expression. -/
def report (invocation : Invocation) (documents : Documents) : Except Failure Report := do
  let schema ← schemaOf documents
  let configuration ← configurationOf documents
  let catalog := schema.catalog
  let target ← targetOf catalog invocation.options
  let recompiler :=
    Recompiler.ofCompiler (SurfaceCompiler.compiler catalog) catalog configuration.defaults
  match (recompiler.recompile (invocation.request schema.environment target)).1 with
  | .error error => throw (.recompilation error)
  | .ok (.failed diagnostic) => throw (.source diagnostic)
  | .ok (.compiled type _ imports) => return { typeName := catalog.fullName type, imports }

/-- What the command prints. -/
def output (invocation : Invocation) (documents : Documents) : Except Failure String :=
  (invocation.report documents).map fun report =>
    if invocation.options.asJson then report.json else report.lines

end Invocation

end ExprImports.CommandLine
