import ExprImports.DefaultAssemblies
import ExprImports.Tree
import ExprImports.Catalog.Hierarchy

/-!
# The types an expression needs

Every node of a tree names types: its anchors. An anchor is direct when the text
itself needs the type at that place, and is then always kept; any other anchor is
dropped if a default assembly defines it. Whether it is kept or not, an anchor
brings in the interfaces and the base types of its type below the root, none of
them as direct.
-/

set_option autoImplicit false

namespace ExprImports

/-- A type that a node names, and whether the text needs it at that place. -/
structure Anchor where
  type : TypeId
  isDirect : Bool
  deriving DecidableEq, Inhabited

/-! ## The anchors of a tree -/

/-- The types that a mention of a type stands for: the innermost element of an
array, and besides a closed instantiation all its arguments but the first. -/
def Catalog.mentioned (catalog : Catalog) (type : TypeId) : List TypeId :=
  match catalog.element? type with
  | some element =>
    if element.height < type.height then mentioned catalog element else [type]
  | none =>
    let others :=
      if catalog.isClosedInstantiation type then (catalog.genericArguments type).drop 1 else []
    type :: others.flatMap fun argument =>
      if argument.height < type.height then mentioned catalog argument else [argument]
termination_by type.height

/-- The anchors that one mention of a type makes. -/
def Catalog.anchorsOf (catalog : Catalog) (type : TypeId) (isDirect : Bool) : List Anchor :=
  (catalog.mentioned type).map (⟨·, isDirect⟩)

/-- The anchors of a type that the text need not name. -/
def Catalog.indirect (catalog : Catalog) (type : TypeId) : List Anchor :=
  catalog.anchorsOf type false

/-- The anchors of a type that the text needs at this place. -/
def Catalog.direct (catalog : Catalog) (type : TypeId) : List Anchor :=
  catalog.anchorsOf type true

/-- The anchors of a call of a method that has this type, apart from the declaring
type of the method. -/
def Catalog.signatureAnchors (catalog : Catalog) (method : Method) (type : TypeId) :
    List Anchor :=
  let arguments :=
    if method.isClosedInstantiation catalog then method.genericArguments.drop 1 else []
  catalog.indirect type ++ arguments.flatMap catalog.indirect ++
    method.parameters.flatMap catalog.indirect

mutual

/-- The anchors of a tree in the order in which its nodes are visited. -/
def Tree.anchors (catalog : Catalog) : Tree → List Anchor
  | .binary _ left right _ => left.anchors catalog ++ right.anchors catalog
  | .conditional test ifTrue ifFalse _ =>
    test.anchors catalog ++ ifTrue.anchors catalog ++ ifFalse.anchors catalog
  | .constant value _ =>
    match value with
    | .null => []
    | .type type => catalog.direct type
    | .literal _ runtimeType => catalog.direct runtimeType
  | .invoke target arguments _ => target.anchors catalog ++ treesAnchors catalog arguments
  | .lambda parameters body _ =>
    body.anchors catalog ++ parameters.flatMap fun parameter => catalog.indirect parameter.type
  | .listInit creation initializers =>
    creation.anchors catalog ++ initializersAnchors catalog initializers
  | .parameter bound => catalog.indirect bound.type
  | .memberAccess receiver _ type => receiver.anchors catalog ++ catalog.indirect type
  | .staticAccess member type => catalog.direct member.declaringType ++ catalog.indirect type
  | .memberInit creation bindings =>
    creation.anchors catalog ++ bindingsAnchors catalog bindings
  | .arrayIndex array indexes _ => array.anchors catalog ++ treesAnchors catalog indexes
  | .call receiver method arguments type =>
    receiver.anchors catalog ++ catalog.signatureAnchors method type ++
      treesAnchors catalog arguments
  | .staticCall method arguments type =>
    catalog.direct method.declaringType ++ catalog.signatureAnchors method type ++
      treesAnchors catalog arguments
  | .newArray _ items type =>
    (match catalog.element? type with
      | some element => catalog.direct element
      | none => []) ++ treesAnchors catalog items
  | .create creation => creation.anchors catalog
  | .typeIs operand tested _ => operand.anchors catalog ++ catalog.direct tested
  | .convert _ operand type => operand.anchors catalog ++ catalog.direct type
  | .unary _ operand _ => operand.anchors catalog
  | .block locals body _ =>
    (locals.flatMap fun bound => catalog.indirect bound.type) ++
      treesAnchors catalog body
  | .assign target value _ => target.anchors catalog ++ value.anchors catalog

/-- The anchors of trees that stand side by side. -/
def treesAnchors (catalog : Catalog) : List Tree → List Anchor
  | [] => []
  | tree :: rest => tree.anchors catalog ++ treesAnchors catalog rest

/-- A creation needs the type whose constructor it calls, or else the type itself. -/
def Creation.anchors (catalog : Catalog) : Creation → List Anchor
  | .of constructor arguments type =>
    catalog.direct ((constructor.map (·.declaringType)).getD type) ++
      treesAnchors catalog arguments

/-- The methods that add elements are not anchors, only their arguments have some. -/
def initializersAnchors (catalog : Catalog) : List ElementInit → List Anchor
  | [] => []
  | .of _ arguments :: rest => treesAnchors catalog arguments ++ initializersAnchors catalog rest

/-- The anchors of what is assigned to one member. -/
def MemberBinding.anchors (catalog : Catalog) : MemberBinding → List Anchor
  | .assignment _ value => value.anchors catalog
  | .elements _ initializers => initializersAnchors catalog initializers
  | .nested _ bindings => bindingsAnchors catalog bindings

/-- The anchors of what is assigned to several members. -/
def bindingsAnchors (catalog : Catalog) : List MemberBinding → List Anchor
  | [] => []
  | binding :: rest => binding.anchors catalog ++ bindingsAnchors catalog rest

end

/-! ## Collecting -/

/-- The types collected so far in order of discovery, and those whose interfaces
and base types have been looked at. -/
structure Closure where
  references : List TypeId := []
  expanded : List TypeId := []
  deriving DecidableEq, Inhabited

namespace Closure

/-- The base types of a type from the nearest one up to the root, the root left
out. -/
def basesBelowRoot (catalog : Catalog) (type : TypeId) : List TypeId :=
  (catalog.baseChain type).tail.takeWhile (· ≠ CoreType.object)

/-- Adds a type if it is to be kept, and everything above it. A type already
collected is left alone, one already looked at is not looked at again. -/
def add (catalog : Catalog) (defaults : DefaultAssemblies) (closure : Closure) (type : TypeId)
    (isDirect : Bool) : Closure :=
  if type ∈ closure.references then closure
  else
    let kept : Closure :=
      if isDirect || !defaults.defines catalog type then
        { closure with references := closure.references ++ [type] }
      else closure
    if type ∈ kept.expanded then kept
    else
      let above := catalog.interfaces type ++ basesBelowRoot catalog type
      above.foldl
        (fun closure parent =>
          if parent.height < type.height then add catalog defaults closure parent false
          else closure)
        { kept with expanded := type :: kept.expanded }
termination_by type.height

/-- Adds anchors one after the other. -/
def addAnchors (catalog : Catalog) (defaults : DefaultAssemblies) (closure : Closure)
    (anchors : List Anchor) : Closure :=
  anchors.foldl (fun closure anchor => closure.add catalog defaults anchor.type anchor.isDirect)
    closure

/-- Adds what a tree needs. -/
def visit (catalog : Catalog) (defaults : DefaultAssemblies) (closure : Closure) (tree : Tree) :
    Closure :=
  addAnchors catalog defaults closure (tree.anchors catalog)

/-- Adds what the use of one type needs. -/
def ensure (catalog : Catalog) (defaults : DefaultAssemblies) (closure : Closure) (type : TypeId)
    (isDirect : Bool) : Closure :=
  addAnchors catalog defaults closure (catalog.anchorsOf type isDirect)

end Closure

/-- The types that a tree needs, in order of first discovery. -/
def Tree.typeReferences (catalog : Catalog) (defaults : DefaultAssemblies) (tree : Tree) :
    List TypeId :=
  (Closure.visit catalog defaults {} tree).references

end ExprImports
