import ExprImports.Distinct
import ExprImports.Catalog.Basic

/-!
# Default assemblies

The assemblies whose types are available to every expression without an import.
-/

set_option autoImplicit false

namespace ExprImports

/-- A set of simple names of assemblies. -/
structure DefaultAssemblies where
  names : List String
  deriving DecidableEq, Inhabited

namespace DefaultAssemblies

/-- The set of the given names. -/
def ofList (names : List String) : DefaultAssemblies :=
  ⟨distinct names⟩

/-- The names that are taken if none are configured. -/
def builtin : DefaultAssemblies :=
  ofList [
    "System.Private.CoreLib",
    "System.Runtime",
    "System.Collections",
    "System.Linq",
    "System.Linq.Expressions",
    "System.ObjectModel",
    "mscorlib",
    "System",
    "System.Core"]

/-- Whether the assembly with this simple name is a default one. -/
def contains (defaults : DefaultAssemblies) (simpleName : String) : Bool :=
  simpleName ∈ defaults.names

/-- Whether a type is defined in a default assembly. -/
def defines (defaults : DefaultAssemblies) (catalog : Catalog) (type : TypeId) : Bool :=
  (catalog.assemblyOf? type).any fun assembly => defaults.contains assembly.name.name

/-- The number of default assemblies. -/
def size (defaults : DefaultAssemblies) : Nat :=
  defaults.names.length

end DefaultAssemblies

end ExprImports
