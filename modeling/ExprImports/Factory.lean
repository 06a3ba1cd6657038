import ExprImports.Activity
import ExprImports.Catalog.Naming

/-!
# Factories of activity nodes

A factory builds the nodes of one result type, a node to be read and a node to be
assigned to. The registry finds the factory of a type: one that was registered
for it, or else the one that the family of the registry makes for it, which is
remembered. Types that the family refuses leave no trace.
-/

set_option autoImplicit false

namespace ExprImports

/-- Why a factory built no usable node. -/
inductive FactoryFault where
  | reported (reason : String)
  | wrongNode (mode : Mode) (typeName : String)
  deriving DecidableEq, Inhabited

/-- The text of a fault. -/
def FactoryFault.message : FactoryFault → String
  | reported reason => reason
  | wrongNode mode typeName =>
    "factory produced a " ++ mode.word ++ " node of type `" ++ typeName ++ "`"

/-- Faults that are not the author's: they end a recompilation. -/
inductive RecompileError where
  | languageMismatch (expected found : String)
  | compilerFailure (message : String)
  | targetMissed (produced expected : String)
  | factoryUnavailable (typeName : String)
  | factoryFailed (typeName : String) (fault : FactoryFault)
  | unknownType
  deriving DecidableEq, Inhabited

namespace RecompileError

/-- The text of an error. -/
def message : RecompileError → String
  | languageMismatch expected found =>
    "Expression language mismatch: expected `" ++ expected ++ "`, found `" ++ found ++ "`"
  | compilerFailure message => "Expression compiler failure: " ++ message
  | targetMissed produced expected =>
    "Expression compiler failure: targeted compilation produced `" ++ produced ++
      "` instead of `" ++ expected ++ "`"
  | factoryUnavailable typeName =>
    "No expression factory can be resolved for type `" ++ typeName ++ "`"
  | factoryFailed typeName fault =>
    "Expression factory for type `" ++ typeName ++ "` failed: " ++ fault.message
  | unknownType => "Type is not part of the type universe"

/-- The code under which an error is reported. -/
def code : RecompileError → String
  | languageMismatch .. => "flowexpr::language_mismatch"
  | compilerFailure .. => "flowexpr::backend_failure"
  | targetMissed .. => "flowexpr::backend_failure"
  | factoryUnavailable .. => "flowexpr::factory_unavailable"
  | factoryFailed .. => "flowexpr::factory_failed"
  | unknownType => "flowexpr::unknown_type"

end RecompileError

/-- A builder of nodes from a mode and the text of an expression. -/
structure Factory where
  build : Mode → String → Except RecompileError Activity

/-- The factory of nodes of one type that hold a text in one language. -/
def Factory.text (resultType : TypeId) (language : String) : Factory :=
  ⟨fun mode text => .ok { mode, resultType, language, text }⟩

instance : Inhabited Factory := ⟨.text .null ""⟩

/-- Makes the factory of a type, or refuses to. -/
abbrev FactoryFamily := TypeId → Catalog → Option Factory

/-- The factories that are known: those registered, the latest first, and those that
the family has made. -/
structure FactoryRegistry where
  family : FactoryFamily
  registered : List (TypeId × Factory) := []
  cached : List (TypeId × Factory) := []
  deriving Inhabited

namespace FactoryRegistry

/-- The registry that makes text factories in a language for all types in which no
generic parameter occurs. -/
def text (language : String) : FactoryRegistry :=
  { family := fun type catalog =>
      if catalog.isOpen type then none else some (.text type language) }

/-- Registers a factory for a type in place of any other. -/
def register (registry : FactoryRegistry) (type : TypeId) (factory : Factory) : FactoryRegistry :=
  { registry with registered := (type, factory) :: registry.registered }

/-- The number of factories that the family has made. -/
def cachedSize (registry : FactoryRegistry) : Nat :=
  registry.cached.length

/-- Where the factory of a type comes from. -/
inductive Origin where
  | unknownType
  | registered (factory : Factory)
  | cached (factory : Factory)
  | made (factory : Factory)
  | refused

/-- Looks for the factory of a type. The family is asked last. -/
def origin (registry : FactoryRegistry) (catalog : Catalog) (type : TypeId) : Origin :=
  if !catalog.has type then .unknownType
  else
    match registry.registered.lookup type with
    | some factory => .registered factory
    | none =>
      match registry.cached.lookup type with
      | some factory => .cached factory
      | none =>
        match registry.family type catalog with
        | some factory => .made factory
        | none => .refused

/-- The factory of a type, and the registry that remembers it. -/
def resolve (registry : FactoryRegistry) (catalog : Catalog) (type : TypeId) :
    Except RecompileError Factory × FactoryRegistry :=
  match registry.origin catalog type with
  | .unknownType => (.error .unknownType, registry)
  | .registered factory => (.ok factory, registry)
  | .cached factory => (.ok factory, registry)
  | .made factory => (.ok factory, { registry with cached := (type, factory) :: registry.cached })
  | .refused => (.error (.factoryUnavailable (catalog.fullName type)), registry)

/-- A node of the required type and mode, or else a fault of the factory. -/
def checkNode (catalog : Catalog) (type : TypeId) (mode : Mode) (activity : Activity) :
    Except RecompileError Activity :=
  if activity.resultType = type && activity.mode = mode then .ok activity
  else
    .error (.factoryFailed (catalog.fullName type)
      (.wrongNode activity.mode (catalog.fullName activity.resultType)))

/-- Builds the node of a type for the text of an expression. -/
def materialize (registry : FactoryRegistry) (catalog : Catalog) (type : TypeId) (mode : Mode)
    (text : String) : Except RecompileError Activity × FactoryRegistry :=
  let (found, registry) := registry.resolve catalog type
  (found.bind fun factory => (factory.build mode text).bind (checkNode catalog type mode), registry)

end FactoryRegistry

end ExprImports
