import ExprImports.Catalog.Initial
import ExprImports.Location
import Mathlib.Logic.Relation

/-!
# Writes that last

Writing to a member of a value changes the value that holds it. If the value is a copy, the write
is lost. So where the check for locations accepts a tree, it should accept the receiver that a write
goes into as well, if values of its type are copied, and so on down the receivers
(`Tree.WritesLast`).

The check looks at the receiver of a member, and it does not look at the receiver of an indexed
property. What lies below an assignment or a member that is accepted is accepted
(`isLocation_of_writesInto`), so a write is lost at an indexed property of a value type or nowhere
(`writesLast_iff`).
-/

set_option autoImplicit false

namespace ExprImports

namespace Tree

/-- The check for locations accepts the tree. -/
def IsLocation (catalog : Catalog) (tree : Tree) : Prop :=
  tree.checkLocation catalog = .location

/-- A write to the first tree is a write to the second one: to the target of an assignment, or into
the value that has the member or the indexed property. -/
inductive WritesInto (catalog : Catalog) : Tree → Tree → Prop where
  | assign (target value : Tree) (type : TypeId) :
      WritesInto catalog (.assign target value type) target
  | member {receiver : Tree} {member : Member} (type : TypeId)
      (settable : member.isSettable = true)
      (copied : catalog.isValueType receiver.type = true) :
      WritesInto catalog (.memberAccess receiver member type) receiver
  | indexer {receiver : Tree} {method : Method} (arguments : List Tree) (type : TypeId)
      (settable : method.kind = .indexer true)
      (copied : catalog.isValueType receiver.type = true) :
      WritesInto catalog (.call receiver method arguments type) receiver

/-- What a write to the tree goes into, step by step. -/
def WritesThrough (catalog : Catalog) : Tree → Tree → Prop :=
  Relation.ReflTransGen (WritesInto catalog)

/-- No write to the tree goes into a copy: all that it goes into are locations. -/
def WritesLast (catalog : Catalog) (tree : Tree) : Prop :=
  ∀ inner, tree.WritesThrough catalog inner → inner.IsLocation catalog

/-- Where the tree indexes a value whose type is copied, the value is a location. -/
def IndexesLocations (catalog : Catalog) (tree : Tree) : Prop :=
  ∀ receiver method arguments type, tree = .call receiver method arguments type →
    method.kind = .indexer true → catalog.isValueType receiver.type = true →
      receiver.IsLocation catalog

variable {catalog : Catalog}

/-- A settable indexed property is a location, whatever its receiver is. -/
theorem isLocation_of_indexer {receiver : Tree} {method : Method} (arguments : List Tree)
    (type : TypeId) (settable : method.kind = .indexer true) :
    (Tree.call receiver method arguments type).IsLocation catalog := by
  simp only [IsLocation, checkLocation, settable]

theorem isLocation_receiver_of_member {receiver : Tree} {member : Member} {type : TypeId}
    (settable : member.isSettable = true) (copied : catalog.isValueType receiver.type = true)
    (accepted : (Tree.memberAccess receiver member type).IsLocation catalog) :
    receiver.IsLocation catalog := by
  by_cases location : receiver.checkLocation catalog = .location
  · exact location
  · rw [IsLocation, checkLocation] at accepted
    simp [settable, copied, location] at accepted

/-- **What a write to a location goes into is a location**, except behind an indexed property. -/
theorem isLocation_of_writesInto {outer inner : Tree} (link : outer.WritesInto catalog inner)
    (indexed : outer.IndexesLocations catalog) (accepted : outer.IsLocation catalog) :
    inner.IsLocation catalog := by
  cases link with
  | assign target value type =>
      rw [IsLocation, checkLocation] at accepted
      exact accepted
  | member _ settable copied => exact isLocation_receiver_of_member settable copied accepted
  | indexer arguments type settable copied => exact indexed _ _ _ _ rfl settable copied

/-- **Where writes are lost.** The writes to a location last exactly if every value of a copied type
that is indexed on the way is a location. -/
theorem writesLast_iff {tree : Tree} (accepted : tree.IsLocation catalog) :
    tree.WritesLast catalog ↔
      ∀ inner, tree.WritesThrough catalog inner → inner.IndexesLocations catalog := by
  constructor
  · rintro lasts inner through receiver method arguments type rfl settable copied
    exact lasts receiver (through.tail (.indexer arguments type settable copied))
  · intro indexed inner through
    induction through with
    | refl => exact accepted
    | tail through link ih => exact isLocation_of_writesInto link (indexed _ through) ih

end Tree

/-! ## An indexed property of a copy -/

namespace Shapes

/-- The value type `Geometry.Point`. -/
def point : TypeId := .entry 16

/-- The class `Geometry.Shape`. -/
def shape : TypeId := .entry 17

/-- Points have a settable indexed property, and shapes a point that is read-only. -/
def catalog : Catalog :=
  let points := (Catalog.initial.define
    { name := "Point", namespaceName := "Geometry", assembly := coreAssembly, kind := .structType
      base := some CoreType.valueType }).2
  let indexed := points.addIndexer point [CoreType.int32] CoreType.int32 true
  let shapes := (indexed.define
    { name := "Shape", namespaceName := "Geometry", assembly := coreAssembly, kind := .classType
      base := some CoreType.object }).2
  shapes.addMember shape "Origin" point (.property false) false

/-- The tree of `s.Origin`. -/
def origin : Tree :=
  .access (some (.parameter ⟨"s", shape⟩))
    { name := "Origin", declaringType := shape, type := point, kind := .property false
      isStatic := false }

/-- The tree of `s.Origin[0]`. -/
def abscissa : Tree :=
  .callOf (some origin)
    { name := Catalog.indexerName, declaringType := point, parameters := [CoreType.int32]
      returnType := CoreType.int32, kind := .indexer true }
    [.constant (.literal (.integer 0) CoreType.int32) CoreType.int32]

end Shapes

/-- The coordinate of a point that is a copy is accepted, and the point is not. -/
theorem abscissa_not_writesLast :
    Shapes.abscissa.IsLocation Shapes.catalog ∧
      ¬ Shapes.origin.IsLocation Shapes.catalog ∧
        ¬ Shapes.abscissa.WritesLast Shapes.catalog := by
  have accepted : Shapes.abscissa.IsLocation Shapes.catalog := Tree.isLocation_of_indexer _ _ rfl
  have copied : Shapes.catalog.isValueType Shapes.origin.type = true := by decide +kernel
  have readOnly : ¬ Shapes.origin.IsLocation Shapes.catalog := by
    intro location
    cases location
  refine ⟨accepted, readOnly, fun lasts => ?_⟩
  have indexed := (Tree.writesLast_iff accepted).mp lasts Shapes.abscissa .refl
  exact readOnly (indexed _ _ _ _ rfl rfl copied)

end ExprImports
