import ExprImports.Binding.Alias
import ExprImports.Binding.Fault
import ExprImports.Catalog.Hierarchy
import ExprImports.Distinct
import ExprImports.Environment

/-!
# What names mean

An expression is given its meaning in a context: the types and variables there
are, and the hints. A name of a type is looked up as an alias or a full name
first, and otherwise in the namespace `System` and in all hinted namespaces at
once, where it must name exactly one type. If assemblies are hinted, types of
other assemblies than these and the core assembly cannot be named.
-/

set_option autoImplicit false

namespace ExprImports.Binding

/-- What the meaning of an expression depends on. -/
structure Context where
  catalog : Catalog
  environment : Environment := {}
  assemblies : List AssemblyName := []
  namespaces : List String := []
  deriving Inhabited

namespace Context

/-- The namespace that is always searched, and before all others. -/
def systemNamespace : String := "System"

/-- The namespaces in which a name is looked up: `System`, then those hinted in
alphabetical order. -/
def searchedNamespaces (context : Context) : List String :=
  systemNamespace ::
    (context.namespaces.filter (· ≠ systemNamespace)).mergeSort fun first second =>
      first ≤ second

/-- The types that a name may stand for. -/
def candidates (context : Context) (name : String) : List TypeId :=
  let name := expandAlias name
  match context.catalog.findType? name with
  | some type => [type]
  | none =>
    distinct (context.searchedNamespaces.filterMap fun namespaceName =>
      context.catalog.findType? (namespaceName ++ "." ++ name))

/-- The type that a name stands for, if there is exactly one. -/
def uniqueType? (context : Context) (name : String) : Option TypeId :=
  match context.candidates name with
  | [type] => some type
  | _ => none

/-- The assembly that would have to be hinted for a type to be named. -/
def missingAssembly? (context : Context) (type : TypeId) : Option String :=
  if context.assemblies.isEmpty then none
  else
    match context.catalog.assemblyOf? type with
    | none => none
    | some assembly =>
      let simpleName := assembly.name.name
      if simpleName = coreAssemblyName || context.assemblies.any (·.name == simpleName) then none
      else some simpleName

/-- The type itself, if it can be named under the hints. -/
def visible (context : Context) (type : TypeId) (span : Span) : Result TypeId :=
  match context.missingAssembly? type with
  | none => .ok type
  | some assembly => fail span (.assemblyNotReferenced type assembly)

/-- The type that is named by a type name. -/
def resolve (context : Context) (type : Surface.TypeName) : Result TypeId :=
  match context.candidates type.name with
  | [] => fail type.span (.unknownType type.name)
  | [found] => context.visible found type.span
  | found => fail type.span (.ambiguousType type.name found)

/-- The type that a dotted path names as the receiver of a static member. A path
that begins with a variable names none. -/
def receiverType? (context : Context) (expression : Surface.Expression) : Option TypeId :=
  match expression.rootIdentifier?, expression.dottedPath? with
  | some root, some path =>
    if (context.environment.lookup root).isSome then none else context.uniqueType? path
  | _, _ => none

end Context

end ExprImports.Binding
