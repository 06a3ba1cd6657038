import ExprImports.Catalog.Initial
import ExprImports.Environment
import ExprImports.Schema.Declaration
import ExprImports.Schema.TypeReference
import ExprImports.Toml.Reading

/-!
# Loading schemas

A schema adds its assemblies and types to the initial catalog and gives types to its
variables. All types are declared before any member is looked at, so members may
refer to types that are declared later, but base types and interfaces may not. In
the end every type that is neither open, an array nor a parameter has its array type.
-/

set_option autoImplicit false

namespace ExprImports.Schema

/-- The part of a schema that refers to a type. -/
inductive Referrer where
  | type (name : String)
  | property (owner name : String)
  | field (owner name : String)
  | method (owner name : String)
  | constructor (owner : String)
  | indexer (owner : String)
  | variableNamed (name : String)
  deriving DecidableEq, Inhabited

/-- How messages name the part of a schema. -/
def Referrer.text : Referrer → String
  | .type name => "type `" ++ name ++ "`"
  | .property owner name => "property `" ++ owner ++ "." ++ name ++ "`"
  | .field owner name => "field `" ++ owner ++ "." ++ name ++ "`"
  | .method owner name => "method `" ++ owner ++ "." ++ name ++ "`"
  | .constructor owner => "constructor of `" ++ owner ++ "`"
  | .indexer owner => "indexer of `" ++ owner ++ "`"
  | .variableNamed name => "variable `" ++ name ++ "`"

/-- Why a schema cannot be loaded. -/
inductive Fault where
  | malformed
  | unknownType (name : String) (referrer : Referrer)
  | unknownAssembly (type assembly : String)
  | duplicateType (name : String)
  deriving DecidableEq, Inhabited

/-- The text of a fault. What is wrong with a malformed document is not told. -/
def Fault.message : Fault → String
  | .malformed => "Invalid schema: "
  | .unknownType name referrer =>
    "Unknown type `" ++ name ++ "` referenced by " ++ referrer.text
  | .unknownAssembly type assembly =>
    "Type `" ++ type ++ "` is declared in unknown assembly `" ++ assembly ++ "`"
  | .duplicateType name => "Type `" ++ name ++ "` is declared more than once"

/-- A step of loading: a result and the catalog after it. -/
abbrev Load (α : Type) := StateT Catalog (Except Fault) α

/-- The type that a text refers to. -/
def resolve (namespaceName : Option String) (referrer : Referrer) (text : String) :
    Load TypeId := fun catalog =>
  ((TypeReference.ofText text).resolve namespaceName catalog).mapError
    fun name => .unknownType name referrer

/-- The types that texts refer to. -/
def resolveAll (namespaceName : Option String) (referrer : Referrer) (texts : List String) :
    Load (List TypeId) :=
  texts.mapM (resolve namespaceName referrer)

/-! ## Types -/

namespace DeclaredType

/-- The namespace, if it is not empty. -/
def namespace? (declared : DeclaredType) : Option String :=
  if declared.namespaceName.isEmpty then none else some declared.namespaceName

/-- The name with the namespace. -/
def fullName (declared : DeclaredType) : String :=
  match declared.namespace? with
  | none => declared.name
  | some namespaceName => namespaceName ++ "." ++ declared.name

/-- The base type of a type that declares none. -/
def defaultBase (declared : DeclaredType) : Option TypeId :=
  match declared.kind with
  | .classType => some CoreType.object
  | .structType => some CoreType.valueType
  | .enumType => some CoreType.enum
  | .interfaceType => none

/-- Whether the catalog has a type of this name, open or not. -/
def isKnown (declared : DeclaredType) (catalog : Catalog) : Bool :=
  let arity := toString declared.genericParameters.length
  (catalog.findType? declared.fullName).isSome ||
    (catalog.findType? (declared.fullName ++ "`" ++ arity)).isSome

/-- Adds the type to the catalog, as yet without members. -/
def declare (declared : DeclaredType) : Load TypeId := do
  let fullName := declared.fullName
  match (← get).findAssembly? declared.assembly with
  | none => throw (.unknownAssembly fullName declared.assembly)
  | some assembly =>
    if declared.isKnown (← get) then throw (.duplicateType fullName)
    let resolve := resolve declared.namespace? (.type fullName)
    let base ←
      match declared.base with
      | some text => some <$> resolve text
      | none => pure declared.defaultBase
    let interfaces ← declared.interfaces.mapM resolve
    modifyGet (·.define {
      name := declared.name
      namespaceName := declared.namespace?
      assembly
      kind := declared.kind
      base
      interfaces
      parameters := declared.genericParameters })

/-! ## Members -/

/-- Adds the members of the type to the catalog. -/
def addMembers (declared : DeclaredType) (type : TypeId) : Load Unit := do
  let owner := (← get).fullName type
  let namespaceName := declared.namespace?
  for property in declared.properties do
    let propertyType ← resolve namespaceName (.property owner property.name) property.type
    modify (·.addMember type property.name propertyType (.property property.settable)
      property.isStatic)
  for field in declared.fields do
    let fieldType ← resolve namespaceName (.field owner field.name) field.type
    modify (·.addMember type field.name fieldType (.field field.readOnly) field.isStatic)
  for method in declared.methods do
    let referrer := Referrer.method owner method.name
    let parameters ← resolveAll namespaceName referrer method.parameters
    let returnType ←
      match method.returns with
      | some text => resolve namespaceName referrer text
      | none => pure CoreType.void
    modify (·.addMethod type {
      name := method.name
      declaringType := type
      parameters
      returnType
      isStatic := method.isStatic })
  for constructor in declared.constructors do
    let parameters ← resolveAll namespaceName (.constructor owner) constructor.parameters
    modify (·.addConstructor type parameters)
  for indexer in declared.indexers do
    let parameters ← resolveAll namespaceName (.indexer owner) indexer.parameters
    let itemType ← resolve namespaceName (.indexer owner) indexer.type
    modify (·.addIndexer type parameters itemType indexer.settable)

end DeclaredType

/-! ## Whole schemas -/

/-- Whether a type gets an array type of its own. -/
def getsArray (entry : TypeEntry) : Bool :=
  match entry.kind with
  | .nominal _ => !entry.genericity.isDefinition
  | _ => false

/-- The catalog with an array type of one dimension for every type that gets one. -/
def withArrays (catalog : Catalog) : Catalog :=
  let elements := catalog.typeIds.filter fun type => (catalog.find? type).any getsArray
  elements.foldl (fun catalog element => (catalog.arrayOf element 1).2) catalog

/-- Adds what is declared to the catalog and gives the environment of the variables. -/
def loadAll (declarations : Declarations) : Load Environment := do
  for assembly in declarations.assemblies do
    modify fun catalog =>
      (catalog.defineAssembly { name := assembly.name, version := assembly.version }
        assembly.isDynamic).2
  let types ← declarations.types.mapM (·.declare)
  for (declared, type) in declarations.types.zip types do
    declared.addMembers type
  let mut environment : Environment := {}
  for (name, text) in declarations.bindings do
    let type ← resolve none (.variableNamed name) text
    environment := environment.insert name type
  return environment

end Schema

/-- The types and variables that expressions are compiled over. -/
structure Schema where
  catalog : Catalog
  environment : Environment
  deriving Inhabited

namespace Schema

/-- The core types with their arrays, and no variables. -/
def core : Schema :=
  { catalog := withArrays .initial, environment := {} }

/-- The schema that declarations make. -/
def ofDeclarations (declarations : Declarations) : Except Fault Schema := do
  let (environment, catalog) ← loadAll declarations Catalog.initial
  return { catalog := withArrays catalog, environment }

/-- The schema of a document. -/
def ofText (text : String) : Except Fault Schema :=
  match (Toml.parse? text).bind Declarations.ofEntries? with
  | none => .error .malformed
  | some declarations => ofDeclarations declarations

end ExprImports.Schema
