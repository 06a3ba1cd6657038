import ExprImports.Catalog.Naming
import ExprImports.Surface.Operator

/-!
# Faults in the meaning of an expression

The reasons for which an expression that is well written has no meaning under its
variables, types and hints.
-/

set_option autoImplicit false

namespace ExprImports.Binding

open Surface

/-- Why a part of an expression has no meaning. -/
inductive Cause where
  | unknownName (name : String)
  | unknownType (name : String)
  | ambiguousType (name : String) (candidates : List TypeId)
  | assemblyNotReferenced (type : TypeId) (assembly : String)
  | typeUsedAsValue (name : String)
  | unknownMember (type : TypeId) (name : String)
  | noOverload (type : TypeId) (name : String) (count : Nat)
  | noConstructor (type : TypeId) (count : Nat)
  | notIndexable (type : TypeId)
  | binaryOperands (operator : BinaryOperator) (left right : TypeId)
  | unaryOperand (operator : UnaryOperator) (operand : TypeId)
  | conversion (source target : TypeId)
  | conditionalBranches (ifTrue ifFalse : TypeId)
  | asValueType (type : TypeId)
  | arrayUnavailable (element : TypeId)
  deriving DecidableEq, Inhabited

/-- A text in the quotes that messages put around names. -/
def ticked (text : String) : String :=
  "`" ++ text ++ "`"

/-- The text of a cause. Types are named without their namespaces, except where the
namespace or the assembly is what matters. -/
def Cause.message (catalog : Catalog) : Cause → String
  | .unknownName name => "The name " ++ ticked name ++ " does not exist in the current context"
  | .unknownType name => "The type or namespace name " ++ ticked name ++ " could not be found"
  | .ambiguousType name candidates =>
    ticked name ++ " is an ambiguous reference between " ++
      " and ".intercalate (candidates.map fun type => ticked (catalog.fullName type))
  | .assemblyNotReferenced type assembly =>
    "Type " ++ ticked (catalog.fullName type) ++ " is defined in assembly " ++ ticked assembly ++
      ", which is not referenced"
  | .typeUsedAsValue name =>
    ticked name ++ " is a type, which is not valid in the given context"
  | .unknownMember type name =>
    ticked (catalog.displayName type) ++ " does not contain a definition for " ++ ticked name
  | .noOverload type name count =>
    "No overload for method " ++ ticked name ++ " of " ++ ticked (catalog.displayName type) ++
      " takes " ++ toString count ++ " argument(s) of these types"
  | .noConstructor type count =>
    ticked (catalog.displayName type) ++ " does not contain a constructor that takes " ++
      toString count ++ " argument(s) of these types"
  | .notIndexable type =>
    "Cannot apply indexing to an expression of type " ++ ticked (catalog.displayName type)
  | .binaryOperands operator left right =>
    "Operator " ++ ticked (String.ofList operator.sign.spelling) ++
      " cannot be applied to operands of type " ++ ticked (catalog.displayName left) ++ " and " ++
      ticked (catalog.displayName right)
  | .unaryOperand operator operand =>
    "Operator " ++ ticked (String.ofList operator.sign.spelling) ++
      " cannot be applied to operand of type " ++ ticked (catalog.displayName operand)
  | .conversion source target =>
    "Cannot implicitly convert type " ++ ticked (catalog.displayName source) ++ " to " ++
      ticked (catalog.displayName target)
  | .conditionalBranches ifTrue ifFalse =>
    "Type of conditional expression cannot be determined between " ++
      ticked (catalog.displayName ifTrue) ++ " and " ++ ticked (catalog.displayName ifFalse)
  | .asValueType type =>
    "The as operator must be used with a reference type, not " ++
      ticked (catalog.displayName type)
  | .arrayUnavailable element =>
    "Array type " ++ ticked (catalog.displayName element ++ "[]") ++ " is not available"

/-- A cause with the stretch of the text that it concerns. -/
structure Fault where
  cause : Cause
  span : Span
  deriving DecidableEq, Inhabited

/-- The result of giving a part of an expression its meaning. -/
abbrev Result (α : Type) := Except Fault α

/-- Fails at a stretch of the text. -/
def fail {α : Type} (span : Span) (cause : Cause) : Result α :=
  .error ⟨cause, span⟩

end ExprImports.Binding
