import ExprImports.Closure
import ExprImports.Diagnostic
import ExprImports.Factory
import ExprImports.Location

/-!
# Recompilation

Recompiling turns the text of an expression into a node of an activity graph and
the imports that must be saved with it. A compiler for the language of the text
makes the tree; it may infer the type or be given a target. A fault in the text
gives an outcome with a diagnostic, any other fault ends the recompilation with an
error.
-/

set_option autoImplicit false

namespace ExprImports

/-- What a compiler reports if it compiles nothing: a fault in the text, or one of
its own. -/
inductive CompilerFault where
  | source (diagnostic : Diagnostic)
  | internal (message : String)
  deriving DecidableEq, Inhabited

/-- The envelope around the fault of a compilation for a target. -/
structure DispatchFault where
  inner : CompilerFault
  deriving DecidableEq, Inhabited

/-- One text with the hints it is compiled under. -/
structure Session where
  text : String
  assemblies : List AssemblyName
  namespaces : List String
  deriving DecidableEq, Inhabited

/-- A compiler for one language of expressions. -/
structure Compiler where
  language : String
  compileInferred : Session → Environment → Except CompilerFault Compiled
  compileTargeted : Session → Environment → TypeId → Except DispatchFault Compiled
  explainNonLocation : Session → Compiled → Option String

/-- One recompilation: the text and its language, the variables in scope, the hints,
the mode and the type to be reached. -/
structure Request where
  text : String
  language : String
  environment : Environment := {}
  hints : ImportHints := {}
  mode : Mode := .value
  target : Option TypeId := none
  deriving DecidableEq, Inhabited

/-- The session that a request opens. -/
def Request.session (request : Request) : Session :=
  { text := request.text
    assemblies := request.hints.assemblies
    namespaces := request.hints.namespaces }

/-- What came of a text: a node with its imports, or a diagnostic. -/
inductive Outcome where
  | compiled (resolvedType : TypeId) (node : Activity) (imports : ImportSettings)
  | failed (diagnostic : Diagnostic)
  deriving DecidableEq, Inhabited

namespace Outcome

/-- The type of the expression; of a text that does not compile, the root type. -/
def resolvedType : Outcome → TypeId
  | compiled resolvedType _ _ => resolvedType
  | failed _ => CoreType.object

/-- Whether the text compiled. -/
def isCompiled : Outcome → Bool
  | compiled .. => true
  | failed _ => false

/-- The node that was built. -/
def node? : Outcome → Option Activity
  | compiled _ node _ => some node
  | failed _ => none

/-- The imports that must be saved. -/
def imports? : Outcome → Option ImportSettings
  | compiled _ _ imports => some imports
  | failed _ => none

/-- The fault in the text. -/
def diagnostic? : Outcome → Option Diagnostic
  | compiled .. => none
  | failed diagnostic => some diagnostic

end Outcome

/-- A compiler with the types it compiles over, the default assemblies and the
factories of nodes. -/
structure Recompiler where
  compiler : Compiler
  catalog : Catalog
  defaults : DefaultAssemblies
  factories : FactoryRegistry

namespace Recompiler

/-- The recompiler that builds text nodes in the language of its compiler. -/
def ofCompiler (compiler : Compiler) (catalog : Catalog) (defaults : DefaultAssemblies) :
    Recompiler :=
  { compiler, catalog, defaults, factories := .text compiler.language }

/-- Compiles for the target if there is one, the envelope taken off, and otherwise
infers the type. -/
def compile (recompiler : Recompiler) (request : Request) : Except CompilerFault Compiled :=
  match request.target with
  | none => recompiler.compiler.compileInferred request.session request.environment
  | some target =>
    (recompiler.compiler.compileTargeted request.session request.environment target).mapError
      (·.inner)

/-- The diagnostic for an expression that is to be assigned to and is no location.
The compiler's explanation goes before the one from the shape of the tree. -/
def locationFault? (recompiler : Recompiler) (request : Request) (compiled : Compiled) :
    Option Diagnostic :=
  match request.mode, compiled.body.checkLocation recompiler.catalog with
  | .reference, .notLocation obstacle =>
    let explanation :=
      (recompiler.compiler.explainNonLocation request.session compiled).or
        (obstacle.map (·.message recompiler.catalog))
    some (.invalidLocation request.text explanation)
  | _, _ => none

/-- Recompiles the text of a request. The registry that comes back remembers the
factory that was made. -/
def recompile (recompiler : Recompiler) (request : Request) :
    Except RecompileError Outcome × FactoryRegistry :=
  let catalog := recompiler.catalog
  let factories := recompiler.factories
  if request.language ≠ recompiler.compiler.language then
    (.error (.languageMismatch recompiler.compiler.language request.language), factories)
  else
    match recompiler.compile request with
    | .error (.source diagnostic) => (.ok (.failed diagnostic), factories)
    | .error (.internal message) => (.error (.compilerFailure message), factories)
    | .ok compiled =>
      let resolvedType := request.target.getD compiled.returnType
      if resolvedType ≠ compiled.returnType then
        (.error (.targetMissed (catalog.fullName compiled.returnType)
          (catalog.fullName resolvedType)), factories)
      else
        match recompiler.locationFault? request compiled with
        | some diagnostic => (.ok (.failed diagnostic), factories)
        | none =>
          let references := compiled.body.typeReferences catalog recompiler.defaults
          let imports := ImportSettings.ofTypes catalog references
          let (node, factories) :=
            factories.materialize catalog resolvedType request.mode request.text
          (node.map fun node => .compiled resolvedType node imports, factories)

/-! ## Requests made for the compiler's own language and for nodes -/

/-- The request to compile a text in the language of the compiler. -/
def precompileRequest (recompiler : Recompiler) (mode : Mode) (target : Option TypeId)
    (text : String) (hints : ImportHints) (environment : Environment) : Request :=
  { text, language := recompiler.compiler.language, environment, hints, mode, target }

/-- The request to compile a text at a place of a graph. -/
def precompileRequestIn (recompiler : Recompiler) (mode : Mode) (target : Option TypeId)
    (text : String) (placement : Placement) : Request :=
  recompiler.precompileRequest mode target text (placement.hints recompiler.catalog)
    placement.environment

/-- The request to compile the text of a node again in its place, whatever its type
was. -/
def nodeRequest (recompiler : Recompiler) (activity : Activity) (mode : Mode) : Request :=
  let placement := activity.surroundings
  { text := activity.text
    language := activity.language
    environment := placement.environment
    hints := placement.hints recompiler.catalog
    mode }

end Recompiler

end ExprImports
