import ExprImports.Catalog.Naming
import ExprImports.Tree

/-!
# Storage locations

An expression can be assigned to when its outermost node denotes a storage
location: a variable, an element of an array, a member or an indexed property
that can be written, or whatever the target of an assignment denotes. A member of
a value type is a location only inside one, because otherwise a copy is written.
-/

set_option autoImplicit false

namespace ExprImports

/-- Why a member or an indexed property is no location. -/
inductive Obstacle where
  | readOnlyMember (member : Member)
  | temporaryReceiver (member : Member)
  | readOnlyIndexer (method : Method)
  deriving DecidableEq, Inhabited

/-- The explanation of an obstacle. -/
def Obstacle.message (catalog : Catalog) : Obstacle → String
  | readOnlyMember member =>
    "member `" ++ member.name ++ "` of `" ++ catalog.displayName member.declaringType ++
      "` is read-only"
  | temporaryReceiver member => "member `" ++ member.name ++ "` belongs to a value-type temporary"
  | readOnlyIndexer method =>
    "indexer of `" ++ catalog.displayName method.declaringType ++ "` is read-only"

/-- Whether an expression denotes a location, and the obstacle if there is a
particular one. -/
inductive LocationCheck where
  | location
  | notLocation (obstacle : Option Obstacle)
  deriving DecidableEq, Inhabited

/-- Whether the outermost node of a tree denotes a storage location. -/
def Tree.checkLocation (catalog : Catalog) : Tree → LocationCheck
  | .parameter _ => .location
  | .arrayIndex _ _ _ => .location
  | .assign target _ _ => target.checkLocation catalog
  | .staticAccess member _ =>
    if member.isSettable then .location else .notLocation (some (.readOnlyMember member))
  | .memberAccess receiver member _ =>
    if !member.isSettable then .notLocation (some (.readOnlyMember member))
    else if catalog.isValueType receiver.type && receiver.checkLocation catalog ≠ .location then
      .notLocation (some (.temporaryReceiver member))
    else .location
  | .call _ method _ _ | .staticCall method _ _ =>
    match method.kind with
    | .indexer true => .location
    | .indexer false => .notLocation (some (.readOnlyIndexer method))
    | .ordinary => .notLocation none
  | _ => .notLocation none

end ExprImports
