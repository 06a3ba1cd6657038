import ExprImports.Binding.Expression
import ExprImports.Recompilation
import ExprImports.Surface.Parsing
import ExprImports.Surface.Tokenization

/-!
# The compiler of the expression language

The text of an expression is cut into tokens, read as an expression and bound to
its meaning. A fault in any of these becomes a diagnostic at its place. For a
target the tree is converted after that, and a conversion that is not possible is
a fault of the whole text.
-/

set_option autoImplicit false

namespace ExprImports.SurfaceCompiler

/-- The name under which expressions declare this language. -/
def language : String := "Lite"

/-- A diagnostic on a stretch of the text of a session. -/
def diagnostic (session : Session) (message : String) (span : Span) : Diagnostic :=
  { message, text := session.text, span := some span }

/-- The context that a session gives to the binding of its text. -/
def context (catalog : Catalog) (session : Session) (environment : Environment) :
    Binding.Context :=
  { catalog, environment, assemblies := session.assemblies, namespaces := session.namespaces }

/-- A fault of binding as a diagnostic. -/
def bindingDiagnostic (catalog : Catalog) (session : Session) (fault : Binding.Fault) :
    Diagnostic :=
  diagnostic session (fault.cause.message catalog) fault.span

/-- The text of a session as an expression. -/
def read (session : Session) : Except Diagnostic Surface.Expression :=
  match Surface.tokenize session.text with
  | .error fault => .error (diagnostic session fault.message fault.span)
  | .ok tokens =>
    (Surface.parse tokens).mapError fun fault => diagnostic session fault.message fault.span

/-- Compiles the text of a session with whatever type it has. -/
def compile (catalog : Catalog) (session : Session) (environment : Environment) :
    Except Diagnostic Compiled := do
  let expression ← read session
  (Binding.compile (context catalog session environment) expression).mapError
    (bindingDiagnostic catalog session)

/-- The stretch that covers the text of a session. -/
def wholeText (session : Session) : Span :=
  ⟨0, byteLength session.text.toList⟩

/-- The compiled expression as one of the target type. -/
def retarget (catalog : Catalog) (session : Session) (compiled : Compiled) (target : TypeId) :
    Except CompilerFault Compiled :=
  if compiled.returnType = target then .ok compiled
  else if !catalog.has target then
    .error (.internal "target type is not part of the type universe")
  else
    match Binding.coerce catalog compiled.body target (wholeText session) with
    | .error fault => .error (.source (bindingDiagnostic catalog session fault))
    | .ok body => .ok { compiled with body, returnType := body.type }

/-- Why an expression cannot be assigned to, in words for its outermost node. -/
def explainNonLocation : Tree → Option String
  | .constant .. => some "a constant value cannot be assigned to"
  | .binary .. | .unary .. | .conditional .. =>
    some "the result of an operator cannot be assigned to"
  | .call _ method _ _ | .staticCall method _ _ =>
    if method.isIndexer then none else some "the result of a method call cannot be assigned to"
  | .create _ | .newArray .. => some "a newly created value cannot be assigned to"
  | .convert .. | .typeIs .. =>
    some "the result of a type test or conversion cannot be assigned to"
  | _ => none

/-- The compiler of the expression language over a catalog of types. -/
def compiler (catalog : Catalog) : Compiler where
  language := language
  compileInferred session environment :=
    (compile catalog session environment).mapError .source
  compileTargeted session environment target :=
    match (compile catalog session environment).mapError CompilerFault.source with
    | .error fault => .error ⟨fault⟩
    | .ok compiled => (retarget catalog session compiled target).mapError DispatchFault.mk
  explainNonLocation _ compiled := explainNonLocation compiled.body

end ExprImports.SurfaceCompiler
