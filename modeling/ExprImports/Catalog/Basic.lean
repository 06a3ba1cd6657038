import ExprImports.AssemblyName

/-!
# Types, members and the catalog that holds them

A catalog lists the assemblies and the types that expressions can mention, in
the order in which they were created. The identity of a type is its place in
that list, so two types are the same exactly when their identities are equal.
Besides these there is one null identity, which no catalog ever issues.
-/

set_option autoImplicit false

namespace ExprImports

/-- The identity of a type: its place in a catalog, or the null identity. -/
inductive TypeId where
  | null
  | entry (position : Nat)
  deriving DecidableEq, Inhabited

namespace TypeId

/-- A measure that grows with the age of creation; the null identity is below
every issued one. -/
def height : TypeId → Nat
  | null => 0
  | entry position => position + 1

@[simp] theorem height_null : null.height = 0 := rfl

@[simp] theorem height_entry (position : Nat) : (entry position).height = position + 1 := rfl

end TypeId

/-- The identity of an assembly: its place in a catalog, or the null identity. -/
inductive AssemblyId where
  | null
  | entry (position : Nat)
  deriving DecidableEq, Inhabited

/-- An assembly of a catalog. A dynamic one is generated while a program runs and
cannot be named by an import. -/
structure Assembly where
  name : AssemblyName
  isDynamic : Bool
  deriving DecidableEq, Inhabited

/-- The kinds of type that a declaration can introduce. -/
inductive NominalKind where
  | classType
  | structType
  | interfaceType
  | enumType
  deriving DecidableEq, Inhabited

/-- What a type is: declared by name, an array of another type, or a parameter of
a generic definition. -/
inductive TypeKind where
  | nominal (kind : NominalKind)
  | array (element : TypeId) (rank : Nat)
  | parameter
  deriving DecidableEq, Inhabited

/-- The part a type plays in generics. A definition is open and lists its
parameters; an instantiation applies a definition to arguments. -/
inductive Genericity where
  | plain
  | definition (parameters : List TypeId)
  | instantiation (definition : TypeId) (arguments : List TypeId)
  deriving DecidableEq, Inhabited

namespace Genericity

/-- The parameters of a definition or the arguments of an instantiation. -/
def arguments : Genericity → List TypeId
  | .plain => []
  | .definition parameters => parameters
  | .instantiation _ arguments => arguments

/-- The definition that an instantiation applies. -/
def definition? : Genericity → Option TypeId
  | .instantiation generic _ => some generic
  | _ => none

/-- Whether the type is an open definition. -/
def isDefinition : Genericity → Bool
  | .definition _ => true
  | _ => false

end Genericity

/-- How a data member is stored and whether it can be written. -/
inductive MemberKind where
  | field (readOnly : Bool)
  | property (settable : Bool)
  deriving DecidableEq, Inhabited

/-- A field or a property. -/
structure Member where
  name : String
  declaringType : TypeId
  type : TypeId
  kind : MemberKind
  isStatic : Bool
  deriving DecidableEq, Inhabited

/-- A field can be written unless it is read-only, a property only if it has a
setter. -/
def Member.isSettable (member : Member) : Bool :=
  match member.kind with
  | .field readOnly => !readOnly
  | .property settable => settable

/-- Whether a method is the getter of an indexed property. -/
inductive MethodKind where
  | ordinary
  | indexer (settable : Bool)
  deriving DecidableEq, Inhabited

/-- A method, with its type arguments if it is generic. -/
structure Method where
  name : String
  declaringType : TypeId
  parameters : List TypeId
  returnType : TypeId
  genericArguments : List TypeId := []
  isGenericDefinition : Bool := false
  isStatic : Bool := false
  kind : MethodKind := .ordinary
  deriving DecidableEq, Inhabited

/-- Whether the method is the getter of an indexed property. -/
def Method.isIndexer (method : Method) : Bool :=
  match method.kind with
  | .indexer _ => true
  | .ordinary => false

/-- A constructor of a type. -/
structure Constructor where
  declaringType : TypeId
  parameters : List TypeId
  deriving DecidableEq, Inhabited

/-- What a catalog knows of one type. -/
structure TypeEntry where
  name : String
  namespaceName : Option String
  assembly : AssemblyId
  kind : TypeKind
  base : Option TypeId := none
  interfaces : List TypeId := []
  genericity : Genericity := .plain
  members : List Member := []
  methods : List Method := []
  constructors : List Constructor := []
  deriving DecidableEq, Inhabited

/-- Structures and enumerations are copied when they are passed on. -/
def TypeEntry.isValueType (type : TypeEntry) : Bool :=
  type.kind = .nominal .structType || type.kind = .nominal .enumType

/-- The assemblies and types in order of creation, and the tables in which types are
looked up, the latest first: by their full names, array types by element and rank,
and instantiations by definition and arguments. -/
structure Catalog where
  assemblies : Array Assembly := #[]
  types : Array TypeEntry := #[]
  names : List (String × TypeId) := []
  arrays : List ((TypeId × Nat) × TypeId) := []
  instances : List ((TypeId × List TypeId) × TypeId) := []
  deriving Inhabited

namespace Catalog

/-- What the catalog knows of a type; nothing for an identity it has not issued. -/
def find? (catalog : Catalog) : TypeId → Option TypeEntry
  | .null => none
  | .entry position => catalog.types[position]?

/-- Whether the catalog has issued this identity. -/
def has (catalog : Catalog) (type : TypeId) : Bool :=
  (catalog.find? type).isSome

/-- The identities of all types in order of creation. -/
def typeIds (catalog : Catalog) : List TypeId :=
  (List.range catalog.types.size).map TypeId.entry

/-- The assembly with this identity. -/
def assembly? (catalog : Catalog) : AssemblyId → Option Assembly
  | .null => none
  | .entry position => catalog.assemblies[position]?

/-- The assembly with this simple name. -/
def findAssembly? (catalog : Catalog) (simpleName : String) : Option AssemblyId :=
  (catalog.assemblies.findIdx? fun assembly => assembly.name.name == simpleName).map .entry

/-- The assembly that defines a type. -/
def assemblyOf? (catalog : Catalog) (type : TypeId) : Option Assembly :=
  (catalog.find? type).bind fun entry => catalog.assembly? entry.assembly

/-- The type with this full name, the latest one if several were given it. -/
def findType? (catalog : Catalog) (fullName : String) : Option TypeId :=
  catalog.names.lookup fullName

/-- The type with this name as it stands, or else in the first of the namespaces
that has one. -/
def resolveName? (catalog : Catalog) (name : String) (namespaces : List String) :
    Option TypeId :=
  (catalog.findType? name).or
    (namespaces.findSome? fun namespaceName => catalog.findType? (namespaceName ++ "." ++ name))

/-- The base type of a type. -/
def base? (catalog : Catalog) (type : TypeId) : Option TypeId :=
  (catalog.find? type).bind (·.base)

/-- The interfaces that a type declares. -/
def interfaces (catalog : Catalog) (type : TypeId) : List TypeId :=
  ((catalog.find? type).map (·.interfaces)).getD []

/-- The fields and properties that a type declares. -/
def members (catalog : Catalog) (type : TypeId) : List Member :=
  ((catalog.find? type).map (·.members)).getD []

/-- The methods that a type declares. -/
def methods (catalog : Catalog) (type : TypeId) : List Method :=
  ((catalog.find? type).map (·.methods)).getD []

/-- The constructors that a type declares. -/
def constructors (catalog : Catalog) (type : TypeId) : List Constructor :=
  ((catalog.find? type).map (·.constructors)).getD []

/-- The element type of an array type. -/
def element? (catalog : Catalog) (type : TypeId) : Option TypeId :=
  match (catalog.find? type).map TypeEntry.kind with
  | some (.array element _) => some element
  | _ => none

/-- Whether the type is an array type. -/
def isArray (catalog : Catalog) (type : TypeId) : Bool :=
  (catalog.element? type).isSome

/-- Whether values of the type are copied when they are passed on. -/
def isValueType (catalog : Catalog) (type : TypeId) : Bool :=
  (catalog.find? type).any (·.isValueType)

/-- The parameters of a generic definition or the arguments of an instantiation. -/
def genericArguments (catalog : Catalog) (type : TypeId) : List TypeId :=
  ((catalog.find? type).map (·.genericity.arguments)).getD []

/-- The array type that was made for this element and rank. -/
def findArray? (catalog : Catalog) (element : TypeId) (rank : Nat) : Option TypeId :=
  catalog.arrays.lookup (element, rank)

/-- The instantiation that was made of a definition at these arguments. -/
def findInstantiation? (catalog : Catalog) (definition : TypeId) (arguments : List TypeId) :
    Option TypeId :=
  catalog.instances.lookup (definition, arguments)

/-- Whether a generic parameter occurs in the type. Element types and arguments
are older than the type they occur in. -/
def isOpen (catalog : Catalog) (type : TypeId) : Bool :=
  match catalog.find? type with
  | none => false
  | some entry =>
    match entry.kind with
    | .parameter => true
    | .array element _ => if element.height < type.height then isOpen catalog element else false
    | .nominal _ =>
      match entry.genericity with
      | .plain => false
      | .definition _ => true
      | .instantiation _ arguments =>
        arguments.any fun argument =>
          if argument.height < type.height then isOpen catalog argument else false
termination_by type.height

/-- Whether the type is an instantiation in whose arguments no generic parameter
occurs. -/
def isClosedInstantiation (catalog : Catalog) (type : TypeId) : Bool :=
  match (catalog.find? type).map TypeEntry.genericity with
  | some (.instantiation _ arguments) => !arguments.any catalog.isOpen
  | _ => false

end Catalog

/-- Whether the method is an instantiation of a generic method in whose type
arguments no generic parameter occurs. -/
def Method.isClosedInstantiation (catalog : Catalog) (method : Method) : Bool :=
  !method.genericArguments.isEmpty && !method.isGenericDefinition &&
    !method.genericArguments.any catalog.isOpen

end ExprImports
