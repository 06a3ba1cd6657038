import ExprImports.Environment
import ExprImports.Imports

/-!
# Activity nodes

A node of an activity graph whose behaviour is given by the text of an expression.
A node that has been placed in a graph sees the variables of its place and the
imports that are declared for it.
-/

set_option autoImplicit false

namespace ExprImports

/-- A reference to an assembly, by name or by an assembly that is loaded. -/
inductive AssemblyReference where
  | named (name : AssemblyName)
  | loaded (assembly : AssemblyId)
  deriving DecidableEq, Inhabited

/-- The display form of the assembly referred to, if it is known. -/
def AssemblyReference.display? (catalog : Catalog) : AssemblyReference → Option String
  | named name => some name.display
  | loaded assembly => (catalog.assembly? assembly).map (·.name.display)

/-- Whether an expression is compiled to be read or to be assigned to. -/
inductive Mode where
  | value
  | reference
  deriving DecidableEq, Inhabited

/-- The word for a mode in messages. -/
def Mode.word : Mode → String
  | value => "Value"
  | reference => "Reference"

/-- Where a node sits: the variables it sees and the imports declared for it. -/
structure Placement where
  environment : Environment := {}
  namespaces : List String := []
  assemblies : List AssemblyReference := []
  deriving DecidableEq, Inhabited

/-- The hints that a place in a graph gives. References to unknown assemblies say
nothing. -/
def Placement.hints (catalog : Catalog) (placement : Placement) : ImportHints :=
  let withNamespaces := placement.namespaces.foldl ImportHints.addNamespace {}
  (placement.assemblies.filterMap (·.display? catalog)).foldl ImportHints.addAssembly
    withNamespaces

/-- A node whose behaviour is the text of an expression. -/
structure Activity where
  mode : Mode
  resultType : TypeId
  language : String
  text : String
  placement : Option Placement := none
  deriving DecidableEq, Inhabited

/-- The place of a node; a node that is not placed sees nothing. -/
def Activity.surroundings (activity : Activity) : Placement :=
  activity.placement.getD {}

end ExprImports
