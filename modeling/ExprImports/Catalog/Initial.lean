import ExprImports.Catalog.Declaration

/-!
# The initial catalog

The catalog that holds the core assembly, the core types and their members, and
nothing else. It is built by the operations that build every other catalog.
-/

set_option autoImplicit false

namespace ExprImports.Catalog

/-- The declarations of the core types in order of creation. -/
def coreDeclarations : List TypeDeclaration :=
  let declare (name : String) (kind : NominalKind) (base : Option TypeId)
      (interfaces : List TypeId) : TypeDeclaration :=
    { name, namespaceName := "System", assembly := coreAssembly, kind, base, interfaces }
  let primitive (name : String) : TypeDeclaration :=
    declare name .structType (some CoreType.valueType) [CoreType.comparable, CoreType.convertible]
  [ declare "Object" .classType none [],
    declare "IComparable" .interfaceType none [],
    declare "IConvertible" .interfaceType none [],
    declare "ICloneable" .interfaceType none [],
    { declare "IEnumerable" .interfaceType none [] with namespaceName := "System.Collections" },
    declare "ValueType" .classType (some CoreType.object) [],
    declare "Enum" .classType (some CoreType.valueType)
      [CoreType.comparable, CoreType.convertible],
    primitive "Boolean",
    primitive "Int32",
    primitive "Int64",
    primitive "Double",
    declare "String" .classType (some CoreType.object)
      [CoreType.comparable, CoreType.convertible, CoreType.enumerable, CoreType.cloneable],
    declare "Type" .classType (some CoreType.object) [],
    declare "Void" .structType (some CoreType.valueType) [],
    declare "Array" .classType (some CoreType.object) [CoreType.enumerable, CoreType.cloneable],
    declare "Math" .classType (some CoreType.object) [] ]

/-- The core types without their members. -/
def bareCore : Catalog :=
  let version := some "8.0.0.0"
  let assembled := (Catalog.defineAssembly {} { name := coreAssemblyName, version } false).2
  coreDeclarations.foldl (fun catalog declaration => (catalog.define declaration).2) assembled

/-- The method of strings that `+` stands for. -/
def concatMethod : Method :=
  { name := "Concat", declaringType := CoreType.string
    parameters := [CoreType.string, CoreType.string], returnType := CoreType.string
    isStatic := true }

/-- The core assembly, the core types and their members. -/
def initial : Catalog :=
  let ordinary (type : TypeId) (name : String) (parameters : List TypeId) (returnType : TypeId)
      (isStatic : Bool) (catalog : Catalog) : Catalog :=
    catalog.addMethod type { name, declaringType := type, parameters, returnType, isStatic }
  let length (type : TypeId) (catalog : Catalog) : Catalog :=
    catalog.addMember type "Length" CoreType.int32 (.property false) false
  let constant (type : TypeId) (name : String) (catalog : Catalog) : Catalog :=
    catalog.addMember type name type (.field true) true
  bareCore
    |> ordinary CoreType.object "ToString" [] CoreType.string false
    |> length CoreType.string
    |> constant CoreType.string "Empty"
    |> (·.addMethod CoreType.string concatMethod)
    |> ordinary CoreType.string "ToUpper" [] CoreType.string false
    |> ordinary CoreType.string "Contains" [CoreType.string] CoreType.boolean false
    |> constant CoreType.int32 "MaxValue"
    |> constant CoreType.int32 "MinValue"
    |> length CoreType.array
    |> ordinary CoreType.math "Max" [CoreType.int32, CoreType.int32] CoreType.int32 true
    |> ordinary CoreType.math "Abs" [CoreType.int32] CoreType.int32 true

end ExprImports.Catalog
