import ExprImports.Catalog.CoreType
import ExprImports.Catalog.Naming

/-!
# Growing a catalog

A catalog only grows. New types are put behind all others, so a type that is
given to an operation is older than the type that the operation creates.
Instantiations and array types are created once for the same parts: they are
entered in a table and found there again afterwards. A type of any kind can be
declared, but what is declared is entered under its name only.
-/

set_option autoImplicit false

namespace ExprImports

/-- A type to be added to a catalog. A declaration with generic parameters is an open
definition. -/
structure TypeDeclaration where
  name : String
  namespaceName : Option String
  assembly : AssemblyId
  kind : NominalKind
  base : Option TypeId := none
  interfaces : List TypeId := []
  parameters : List String := []
  deriving DecidableEq, Inhabited

namespace TypeDeclaration

variable (declaration : TypeDeclaration)

/-- The identities of the parameters, if the type itself gets this place. -/
def parameterIds (place : Nat) : List TypeId :=
  (List.range declaration.parameters.length).map fun index => .entry (place + 1 + index)

/-- The entry of the type as one of this kind. -/
def entry (kind : TypeKind) (place : Nat) : TypeEntry where
  name := declaration.name
  namespaceName := declaration.namespaceName
  assembly := declaration.assembly
  kind
  base := declaration.base
  interfaces := declaration.interfaces
  genericity :=
    if (declaration.parameterIds place).isEmpty then .plain
    else .definition (declaration.parameterIds place)

/-- The entry of a parameter. -/
def parameterEntry (name : String) : TypeEntry :=
  { name, namespaceName := none, assembly := declaration.assembly, kind := .parameter }

end TypeDeclaration

/-- The entry of the instantiation of a definition, which takes over all but its
members. -/
def TypeEntry.instantiate (entry : TypeEntry) (definition : TypeId) (arguments : List TypeId) :
    TypeEntry :=
  { entry with
    genericity := .instantiation definition arguments
    members := []
    methods := []
    constructors := [] }

namespace Catalog

/-- The identity that the next type will get. -/
def nextId (catalog : Catalog) : TypeId := .entry catalog.types.size

/-- The catalog with one more type. -/
def push (catalog : Catalog) (entry : TypeEntry) : Catalog :=
  { catalog with types := catalog.types.push entry }

/-- Makes a type known under its full name. -/
def recordName (catalog : Catalog) (type : TypeId) : Catalog :=
  { catalog with names := (catalog.fullName type, type) :: catalog.names }

/-- Enters an array type under its element and rank. -/
def recordArray (catalog : Catalog) (element : TypeId) (rank : Nat) (array : TypeId) : Catalog :=
  { catalog with arrays := ((element, rank), array) :: catalog.arrays }

/-- Enters an instantiation under its definition and arguments. -/
def recordInstance (catalog : Catalog) (definition : TypeId) (arguments : List TypeId)
    (instantiation : TypeId) : Catalog :=
  { catalog with
    instances := ((definition, arguments), instantiation) :: catalog.instances }

/-- Adds an assembly, unless one with the same simple name is known already. -/
def defineAssembly (catalog : Catalog) (name : AssemblyName) (isDynamic : Bool) :
    AssemblyId × Catalog :=
  match catalog.findAssembly? name.name with
  | some known => (known, catalog)
  | none =>
    (.entry catalog.assemblies.size,
      { catalog with assemblies := catalog.assemblies.push { name, isDynamic } })

/-- Adds a declared type as one of this kind. The parameters of a definition are
types of their own and come directly behind it. -/
def defineAs (catalog : Catalog) (kind : TypeKind) (declaration : TypeDeclaration) :
    TypeId × Catalog :=
  let grown := declaration.parameters.foldl
    (fun grown name => grown.push (declaration.parameterEntry name))
    (catalog.push (declaration.entry kind catalog.types.size))
  (catalog.nextId, grown.recordName catalog.nextId)

/-- Adds a declared type. -/
abbrev define (catalog : Catalog) (declaration : TypeDeclaration) : TypeId × Catalog :=
  catalog.defineAs (.nominal declaration.kind) declaration

/-- The instantiation of a definition at the given arguments, created if it does
not exist. There is none unless the type is a definition with as many parameters. -/
def instantiate? (catalog : Catalog) (definition : TypeId) (arguments : List TypeId) :
    Option (TypeId × Catalog) :=
  match catalog.find? definition with
  | none => none
  | some entry =>
    match entry.genericity with
    | .definition parameters =>
      if parameters.length ≠ arguments.length then none
      else
        match catalog.findInstantiation? definition arguments with
        | some known => some (known, catalog)
        | none =>
          let id := catalog.nextId
          let grown := catalog.push (entry.instantiate definition arguments)
          some (id, (grown.recordInstance definition arguments id).recordName id)
    | _ => none

/-- The entry of an array type. It belongs to the namespace and assembly of its
element. -/
def arrayEntry (element : TypeId) (rank : Nat) (entry : Option TypeEntry) : TypeEntry where
  name := ""
  namespaceName := entry.bind (·.namespaceName)
  assembly := (entry.map (·.assembly)).getD coreAssembly
  kind := .array element rank
  base := some CoreType.array

/-- The array type with the given element and rank, created if it does not exist. -/
def arrayOf (catalog : Catalog) (element : TypeId) (rank : Nat) : TypeId × Catalog :=
  match catalog.findArray? element rank with
  | some known => (known, catalog)
  | none =>
    let id := catalog.nextId
    let grown := catalog.push (arrayEntry element rank (catalog.find? element))
    (id, grown.recordArray element rank id)

/-- Changes what the catalog knows of one type; an unknown type is left alone. -/
def modify (catalog : Catalog) (type : TypeId) (change : TypeEntry → TypeEntry) : Catalog :=
  match type with
  | .null => catalog
  | .entry position => { catalog with types := catalog.types.modify position change }

/-- Adds a field or property to a type. -/
def addMember (catalog : Catalog) (type : TypeId) (name : String) (memberType : TypeId)
    (kind : MemberKind) (isStatic : Bool) : Catalog :=
  catalog.modify type fun entry =>
    { entry with
      members := entry.members ++
        [{ name, declaringType := type, type := memberType, kind, isStatic }] }

/-- Adds a method to a type, which becomes its declaring type. -/
def addMethod (catalog : Catalog) (type : TypeId) (method : Method) : Catalog :=
  catalog.modify type fun entry =>
    { entry with methods := entry.methods ++ [{ method with declaringType := type }] }

/-- The name that the getter of an indexed property has as a method. -/
def indexerName : String := "get_Item"

/-- Adds an indexed property to a type, as the method that reads it. -/
def addIndexer (catalog : Catalog) (type : TypeId) (parameters : List TypeId)
    (itemType : TypeId) (settable : Bool) : Catalog :=
  catalog.addMethod type
    { name := indexerName, declaringType := type, parameters, returnType := itemType
      kind := .indexer settable }

/-- Adds a constructor to a type. -/
def addConstructor (catalog : Catalog) (type : TypeId) (parameters : List TypeId) : Catalog :=
  catalog.modify type fun entry =>
    { entry with constructors := entry.constructors ++ [{ declaringType := type, parameters }] }

end Catalog

end ExprImports
