import ExprImports.Catalog.Declaration

/-!
# Base types, interfaces and conversions

The parents of a type are its interfaces and its base type, all of them created
before it. So the types that a type can be viewed as are found by one sweep from
the type to the oldest one, and the walk along base types ends.
-/

set_option autoImplicit false

namespace ExprImports.Catalog

/-- The types one step above a type: its interfaces and its base type. -/
def parents (catalog : Catalog) (type : TypeId) : List TypeId :=
  catalog.interfaces type ++ (catalog.base? type).toList

/-- A type, its base type, the base type of that, and so on. -/
def baseChain (catalog : Catalog) (type : TypeId) : List TypeId :=
  type ::
    match catalog.base? type with
    | some base => if base.height < type.height then baseChain catalog base else []
    | none => []
termination_by type.height

/-- The types that can be reached from the marked ones, looking at the positions
below a bound from the newest to the oldest, in order of creation. -/
def sweep (catalog : Catalog) : Nat → List TypeId → List TypeId
  | 0, marked => if .null ∈ marked then [.null] else []
  | position + 1, marked =>
    if .entry position ∈ marked then
      sweep catalog position (catalog.parents (.entry position) ++ marked) ++ [.entry position]
    else sweep catalog position marked

/-- Every type that a type can be viewed as, itself included, in order of
creation. -/
def supertypes (catalog : Catalog) (type : TypeId) : List TypeId :=
  catalog.sweep type.height [type]

/-- Whether a value of one type can be used as one of another without changing
its representation, or by boxing it. -/
def isAssignable (catalog : Catalog) (source target : TypeId) : Bool :=
  source = target || target = CoreType.object || target ∈ catalog.supertypes source

/-- The first field or property with this name along the base types. -/
def findMember? (catalog : Catalog) (type : TypeId) (name : String) : Option Member :=
  (catalog.baseChain type).findSome? fun ancestor =>
    (catalog.members ancestor).find? (·.name == name)

/-- All methods with this name along the base types, the most derived first. -/
def findMethods (catalog : Catalog) (type : TypeId) (name : String) : List Method :=
  (catalog.baseChain type).flatMap fun ancestor =>
    (catalog.methods ancestor).filter (·.name == name)

/-- The first indexed property along the base types. -/
def findIndexer? (catalog : Catalog) (type : TypeId) : Option Method :=
  (catalog.findMethods type indexerName).find? (·.isIndexer)

end ExprImports.Catalog

namespace ExprImports.TypeId

/-- Whether the type is a core type of numbers. -/
def isNumeric (type : TypeId) : Bool :=
  type = CoreType.int32 || type = CoreType.int64 || type = CoreType.double

/-- Whether a number of one type can be used as one of a wider type. -/
def widensTo (source target : TypeId) : Bool :=
  (source = CoreType.int32 && (target = CoreType.int64 || target = CoreType.double)) ||
    (source = CoreType.int64 && target = CoreType.double)

end ExprImports.TypeId
