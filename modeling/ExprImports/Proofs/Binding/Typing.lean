import ExprImports.Binding.Expression
import ExprImports.Proofs.Nodes

/-!
# The typing rules of trees

A tree is well typed in a context if each of its nodes obeys the rule of its kind
(`Obeys`), and if members and methods are reached through a receiver exactly when they
are not static (`Tree.ReceiverFits`). The rules speak of the types of the nodes
directly below only.

**Declaration.** A member or method that is used through a receiver is declared on a
type of the base chain of the receiver's type, and one that is used without a receiver
on a type of the base chain of a type that the context names (`Context.Names`). The
access has the type of the member, and the call the type that the method returns.

**Indexed properties.** What an indexed property reads is a call through a receiver. A
getter of an indexed property that is static has no receiver to be read through, so a
catalog in which such a getter is found first has types that cannot be indexed
(`Catalog.IndexersNeedReceiver`).
-/

set_option autoImplicit false

namespace ExprImports

/-! ## What a catalog declares -/

namespace Catalog

/-- A member is declared on a type or on one of its base types. -/
def DeclaresMember (catalog : Catalog) (type : TypeId) (member : Member) : Prop :=
  member.declaringType ∈ catalog.baseChain type ∧ member ∈ catalog.members member.declaringType

/-- A method is declared on a type or on one of its base types. -/
def DeclaresMethod (catalog : Catalog) (type : TypeId) (method : Method) : Prop :=
  method.declaringType ∈ catalog.baseChain type ∧ method ∈ catalog.methods method.declaringType

/-- No type that is not an array has a static indexed property before all others. -/
def IndexersNeedReceiver (catalog : Catalog) : Prop :=
  ∀ type indexer, catalog.element? type = none → catalog.findIndexer? type = some indexer →
    indexer.isStatic = false

end Catalog

namespace Binding

/-- The context has a name for a type, and its hints allow the type to be named. -/
def Context.Names (context : Context) (type : TypeId) : Prop :=
  (∃ name, context.uniqueType? name = some type) ∧ context.missingAssembly? type = none

/-! ## The rules of operators and literals -/

/-- The type of a literal: an integer has 32 bits if it fits, and 64 bits otherwise. -/
inductive LiteralType : Literal → TypeId → Prop where
  | boolean (value : Bool) : LiteralType (.boolean value) CoreType.boolean
  | narrow {value : Int} (fits : -0x80000000 ≤ value ∧ value ≤ 0x7FFFFFFF) :
      LiteralType (.integer value) CoreType.int32
  | wide {value : Int} (exceeds : ¬ (-0x80000000 ≤ value ∧ value ≤ 0x7FFFFFFF)) :
      LiteralType (.integer value) CoreType.int64
  | floating (value : Binary64) : LiteralType (.floating value) CoreType.double
  | text (value : String) : LiteralType (.text value) CoreType.string

/-- The operators that yield a number of the type of their operands. -/
inductive IsArithmetic : BinaryOp → Prop where
  | add : IsArithmetic .add
  | subtract : IsArithmetic .subtract
  | multiply : IsArithmetic .multiply
  | divide : IsArithmetic .divide
  | modulo : IsArithmetic .modulo

/-- The operators that order two numbers. -/
inductive IsOrdering : BinaryOp → Prop where
  | lessThan : IsOrdering .lessThan
  | lessThanOrEqual : IsOrdering .lessThanOrEqual
  | greaterThan : IsOrdering .greaterThan
  | greaterThanOrEqual : IsOrdering .greaterThanOrEqual

/-- The operators that test for equality. -/
inductive IsEquality : BinaryOp → Prop where
  | equal : IsEquality .equal
  | notEqual : IsEquality .notEqual

/-- The operators that join two truth values. -/
inductive IsLogical : BinaryOp → Prop where
  | andAlso : IsLogical .andAlso
  | orElse : IsLogical .orElse

/-- Two operands can be tested for equality. -/
inductive Comparable (catalog : Catalog) (left right : Tree) : Prop where
  | same (same : left.type = right.type)
  | nullLeft (null : left.isNull = true) (reference : catalog.isValueType right.type = false)
  | nullRight (null : right.isNull = true) (reference : catalog.isValueType left.type = false)
  | toRight (assignable : catalog.isAssignable left.type right.type = true)
  | toLeft (assignable : catalog.isAssignable right.type left.type = true)

/-! ## The rules of nodes -/

/-- A node obeys the typing rule of its kind. The kinds that no expression stands for
have no rule. -/
inductive Obeys (context : Context) : Tree → Prop where
  | null {type : TypeId} (reference : context.catalog.isValueType type = false) :
      Obeys context (.constant .null type)
  | typeConstant {named : TypeId} (isNamed : context.Names named) :
      Obeys context (.constant (.type named) CoreType.type)
  | literal {value : Literal} {type : TypeId} (typed : LiteralType value type) :
      Obeys context (.constant (.literal value type) type)
  | parameter {name : String} {type : TypeId}
      (bound : context.environment.lookup name = some type) :
      Obeys context (.parameter ⟨name, type⟩)
  | memberAccess {receiver : Tree} {member : Member}
      (declared : context.catalog.DeclaresMember receiver.type member) :
      Obeys context (.memberAccess receiver member member.type)
  | staticAccess {type : TypeId} {member : Member} (isNamed : context.Names type)
      (declared : context.catalog.DeclaresMember type member) :
      Obeys context (.staticAccess member member.type)
  | call {receiver : Tree} {method : Method} {arguments : List Tree}
      (declared : context.catalog.DeclaresMethod receiver.type method)
      (fits : arguments.map Tree.type = method.parameters) :
      Obeys context (.call receiver method arguments method.returnType)
  | staticCall {type : TypeId} {method : Method} {arguments : List Tree}
      (isNamed : context.Names type) (declared : context.catalog.DeclaresMethod type method)
      (fits : arguments.map Tree.type = method.parameters) :
      Obeys context (.staticCall method arguments method.returnType)
  | concatenation {left right : Tree}
      (declared : context.catalog.DeclaresMethod CoreType.string Catalog.concatMethod)
      (fits : [left, right].map Tree.type = Catalog.concatMethod.parameters) :
      Obeys context (.staticCall Catalog.concatMethod [left, right]
        Catalog.concatMethod.returnType)
  | create {constructor : Constructor} {arguments : List Tree} {type : TypeId}
      (isNamed : context.Names type) (creatable : canBeCreated context.catalog type = true)
      (declared : constructor ∈ context.catalog.constructors type)
      (own : constructor.declaringType = type)
      (fits : arguments.map Tree.type = constructor.parameters) :
      Obeys context (.create (.of (some constructor) arguments type))
  | createImplied {type : TypeId} (isNamed : context.Names type)
      (creatable : canBeCreated context.catalog type = true)
      (undeclared : context.catalog.constructors type = [])
      (reference : context.catalog.isValueType type = false) :
      Obeys context (.create (.of (some ⟨type, []⟩) [] type))
  | createValue {type : TypeId} (isNamed : context.Names type)
      (creatable : canBeCreated context.catalog type = true)
      (undeclared : context.catalog.constructors type = [])
      (copied : context.catalog.isValueType type = true) :
      Obeys context (.create (.of none [] type))
  | newArray {items : List Tree} {type element : TypeId} (isNamed : context.Names element)
      (isArray : context.catalog.element? type = some element)
      (fits : ∀ item ∈ items, item.type = element) :
      Obeys context (.newArray .elements items type)
  | arrayIndex {array : Tree} {indexes : List Tree} {element : TypeId}
      (isArray : context.catalog.element? array.type = some element)
      (fits : ∀ index ∈ indexes, index.type = CoreType.int32) :
      Obeys context (.arrayIndex array indexes element)
  | typeIs {operand : Tree} {tested : TypeId} (isNamed : context.Names tested) :
      Obeys context (.typeIs operand tested CoreType.boolean)
  | typeAs {operand : Tree} {type : TypeId} (isNamed : context.Names type)
      (reference : context.catalog.isValueType type = false) :
      Obeys context (.convert .typeAs operand type)
  | widening {operand : Tree} {type : TypeId} (wider : operand.type.widensTo type = true) :
      Obeys context (.convert .convert operand type)
  | upcast {operand : Tree} {type : TypeId} (different : operand.type ≠ type)
      (assignable : context.catalog.isAssignable operand.type type = true) :
      Obeys context (.convert .convert operand type)
  | negate {operand : Tree} (numeric : operand.type.isNumeric = true) :
      Obeys context (.unary .negate operand operand.type)
  | not {operand : Tree} (truth : operand.type = CoreType.boolean) :
      Obeys context (.unary .not operand operand.type)
  | arithmetic {op : BinaryOp} {left right : Tree} (isArithmetic : IsArithmetic op)
      (same : left.type = right.type) (numeric : left.type.isNumeric = true) :
      Obeys context (.binary op left right left.type)
  | ordering {op : BinaryOp} {left right : Tree} (isOrdering : IsOrdering op)
      (same : left.type = right.type) (numeric : left.type.isNumeric = true) :
      Obeys context (.binary op left right CoreType.boolean)
  | equality {op : BinaryOp} {left right : Tree} (isEquality : IsEquality op)
      (comparable : Comparable context.catalog left right) :
      Obeys context (.binary op left right CoreType.boolean)
  | logical {op : BinaryOp} {left right : Tree} (isLogical : IsLogical op)
      (first : left.type = CoreType.boolean) (second : right.type = CoreType.boolean) :
      Obeys context (.binary op left right CoreType.boolean)
  | conditional {test ifTrue ifFalse : Tree} {type : TypeId}
      (truth : test.type = CoreType.boolean) (first : ifTrue.type = type)
      (second : ifFalse.type = type) : Obeys context (.conditional test ifTrue ifFalse type)
  | assign {target value : Tree} (same : value.type = target.type) :
      Obeys context (.assign target value target.type)

end Binding

/-! ## Receivers -/

namespace Tree

/-- A member or method is reached through a receiver exactly if it is not static. -/
def ReceiverFits : Tree → Prop
  | .memberAccess _ member _ => member.isStatic = false
  | .staticAccess member _ => member.isStatic = true
  | .call _ method _ _ => method.isStatic = false
  | .staticCall method _ _ => method.isStatic = true
  | _ => True

/-- The node reads a static indexed property, the first one of a type that is no array,
through a receiver. -/
def ReadsStaticIndexer (catalog : Catalog) : Tree → Prop
  | .call receiver method _ _ =>
      catalog.element? receiver.type = none ∧ catalog.findIndexer? receiver.type = some method ∧
        method.isStatic = true
  | _ => False

/-- Every node of the tree obeys its typing rule and has a receiver if it needs one. -/
def WellTyped (context : Binding.Context) (tree : Tree) : Prop :=
  ∀ node : Tree, node.Occurs tree → Binding.Obeys context node ∧ node.ReceiverFits

/-- Every node of the tree obeys its typing rule and has a receiver if it needs one,
unless it reads a static indexed property. -/
def WellTypedButIndexers (context : Binding.Context) (tree : Tree) : Prop :=
  ∀ node : Tree, node.Occurs tree →
    Binding.Obeys context node ∧
      (node.ReceiverFits ∨ node.ReadsStaticIndexer context.catalog)

theorem wellTypedButIndexers_of_children {context : Binding.Context} {tree : Tree}
    (obeys : Binding.Obeys context tree)
    (fits : tree.ReceiverFits ∨ tree.ReadsStaticIndexer context.catalog)
    (children : ∀ child ∈ tree.children, child.WellTypedButIndexers context) :
    tree.WellTypedButIndexers context := by
  intro node occurs
  rcases occurs_iff.mp occurs with rfl | ⟨child, isChild, inside⟩
  · exact ⟨obeys, fits⟩
  · exact children child isChild node inside

/-- A node with nothing below it. -/
theorem wellTypedButIndexers_leaf {context : Binding.Context} {tree : Tree}
    (leaf : tree.children = []) (obeys : Binding.Obeys context tree)
    (fits : tree.ReceiverFits) : tree.WellTypedButIndexers context := by
  refine wellTypedButIndexers_of_children obeys (.inl fits) ?_
  rw [leaf]
  exact List.forall_mem_nil _

/-- A node with one tree below it. -/
theorem wellTypedButIndexers_above {context : Binding.Context} {tree below : Tree}
    (only : tree.children = [below]) (obeys : Binding.Obeys context tree)
    (fits : tree.ReceiverFits) (sound : below.WellTypedButIndexers context) :
    tree.WellTypedButIndexers context := by
  refine wellTypedButIndexers_of_children obeys (.inl fits) ?_
  rw [only]
  exact List.forall_mem_singleton.mpr sound

/-- A node with two trees below it. -/
theorem wellTypedButIndexers_join {context : Binding.Context} {tree left right : Tree}
    (both : tree.children = [left, right]) (obeys : Binding.Obeys context tree)
    (fits : tree.ReceiverFits) (first : left.WellTypedButIndexers context)
    (second : right.WellTypedButIndexers context) : tree.WellTypedButIndexers context := by
  refine wellTypedButIndexers_of_children obeys (.inl fits) ?_
  rw [both]
  exact List.forall_mem_cons.mpr ⟨first, List.forall_mem_singleton.mpr second⟩

end Tree

end ExprImports
