import ExprImports.Distinct
import ExprImports.Text.Blank
import ExprImports.Catalog.Basic

/-!
# Imports

Hints tell a compilation which namespaces and assemblies it may look at. Import
records tell which assembly and namespace a saved expression needs so that the
same text compiles again. Both keep the order in which entries were first given
and hold no entry twice.
-/

set_option autoImplicit false

namespace ExprImports

/-- The namespaces and assemblies given as context of a compilation. -/
structure ImportHints where
  namespaces : List String := []
  assemblies : List AssemblyName := []
  deriving DecidableEq, Inhabited

namespace ImportHints

/-- Adds a namespace without the blanks around it; an empty one says nothing. -/
def addNamespace (hints : ImportHints) (name : String) : ImportHints :=
  let trimmed := Text.trim name
  if trimmed.isEmpty then hints
  else { hints with namespaces := insertNew hints.namespaces trimmed }

/-- Adds an assembly given in display form; a text that names none says nothing. -/
def addAssembly (hints : ImportHints) (display : String) : ImportHints :=
  match AssemblyName.ofDisplay? display with
  | some name => { hints with assemblies := insertNew hints.assemblies name }
  | none => hints

/-- The hints of two lists, whose missing entries are passed over. -/
def ofLists (namespaces assemblies : List (Option String)) : ImportHints :=
  let withNamespaces := (namespaces.filterMap id).foldl addNamespace {}
  (assemblies.filterMap id).foldl addAssembly withNamespaces

/-- Whether there is no hint at all. -/
def isEmpty (hints : ImportHints) : Bool :=
  hints.namespaces.isEmpty && hints.assemblies.isEmpty

end ImportHints

/-- An assembly, and a namespace in it that is brought into scope. -/
structure ImportRecord where
  assembly : String
  namespaceName : Option String := none
  deriving DecidableEq, Inhabited

/-- The import records that are saved with an expression. -/
structure ImportSettings where
  records : List ImportRecord := []
  deriving DecidableEq, Inhabited

namespace ImportSettings

/-- Adds a record unless it is there already. -/
def insert (settings : ImportSettings) (record : ImportRecord) : ImportSettings :=
  ⟨insertNew settings.records record⟩

/-- Whether a record is there. -/
def contains (settings : ImportSettings) (record : ImportRecord) : Bool :=
  record ∈ settings.records

/-- The settings that hold the given records. -/
def ofRecords (records : List ImportRecord) : ImportSettings :=
  ⟨distinct records⟩

/-- The record of a type. Types of dynamic assemblies and unknown types have none. -/
def recordOf? (catalog : Catalog) (type : TypeId) : Option ImportRecord :=
  match catalog.find? type, catalog.assemblyOf? type with
  | some entry, some assembly =>
    if assembly.isDynamic then none
    else some { assembly := assembly.name.name, namespaceName := entry.namespaceName }
  | _, _ => none

/-- The records of types in the order in which they are first needed. -/
def ofTypes (catalog : Catalog) (types : List TypeId) : ImportSettings :=
  ofRecords (types.filterMap (recordOf? catalog))

end ImportSettings

end ExprImports
