import ExprImports.Binding.Fault
import ExprImports.Catalog.Hierarchy
import ExprImports.Tree

/-!
# Implicit conversions

A tree can be used where another type is expected if its own type widens to that
type or is assignable to it; the conversion then becomes a node. The null literal
has no type of its own and takes that of any type that is not a value type.
-/

set_option autoImplicit false

namespace ExprImports

/-- Whether a tree is the null literal. -/
def Tree.isNull : Tree → Bool
  | .constant .null _ => true
  | _ => false

/-- Whether one type is converted to another without being asked for. -/
def Catalog.converts (catalog : Catalog) (source target : TypeId) : Bool :=
  source.widensTo target || catalog.isAssignable source target

/-- The tree as one of another type, if it can be converted. -/
def Tree.convert? (catalog : Catalog) (tree : Tree) (target : TypeId) : Option Tree :=
  if tree.type = target then some tree
  else if tree.isNull && !catalog.isValueType target then some (.constant .null target)
  else if catalog.converts tree.type target then some (.convert .convert tree target)
  else none

/-- The arguments as trees of the parameter types, if there are as many of both and
each can be converted. -/
def Catalog.convertAll? (catalog : Catalog) : List Tree → List TypeId → Option (List Tree)
  | [], [] => some []
  | argument :: arguments, parameter :: parameters =>
    match argument.convert? catalog parameter with
    | none => none
    | some converted => (convertAll? catalog arguments parameters).map (converted :: ·)
  | _, _ => none

/-- The common type of two numeric types, the wider one. -/
def TypeId.commonNumeric? (left right : TypeId) : Option TypeId :=
  if left.isNumeric && right.isNumeric then
    some (if left = right || right.widensTo left then left else right)
  else none

/-- The tree as one of a numeric type that is at least as wide. -/
def Tree.widen (tree : Tree) (target : TypeId) : Tree :=
  if tree.type = target then tree else .convert .convert tree target

namespace Binding

/-- The tree as one of another type. -/
def coerce (catalog : Catalog) (tree : Tree) (target : TypeId) (span : Span) : Result Tree :=
  match tree.convert? catalog target with
  | some converted => .ok converted
  | none => fail span (.conversion tree.type target)

/-- Each tree as one of the same type. -/
def coerceEach (catalog : Catalog) (target : TypeId) : List (Tree × Span) → Result (List Tree)
  | [] => .ok []
  | (tree, span) :: rest => do
    let converted ← coerce catalog tree target span
    let others ← coerceEach catalog target rest
    return converted :: others

end Binding

end ExprImports
