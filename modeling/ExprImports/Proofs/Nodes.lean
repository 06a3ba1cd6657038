import ExprImports.Tree

/-!
# The nodes of a tree

The trees directly below a node are its operands, arguments, branches and bodies, and
those inside initializers and member bindings. A node occurs in a tree if it can be
reached from the root of the tree by going down.
-/

set_option autoImplicit false

namespace ExprImports

/-! ## The trees below a node -/

/-- The arguments of a creation. -/
def Creation.arguments : Creation → List Tree
  | .of _ arguments _ => arguments

/-- The arguments that add one element. -/
def ElementInit.arguments : ElementInit → List Tree
  | .of _ arguments => arguments

mutual

/-- The trees in what is assigned to one member. -/
def MemberBinding.values : MemberBinding → List Tree
  | .assignment _ value => [value]
  | .elements _ initializers => initializers.flatMap ElementInit.arguments
  | .nested _ bindings => bindingsValues bindings

/-- The trees in what is assigned to several members. -/
def bindingsValues : List MemberBinding → List Tree
  | [] => []
  | binding :: rest => binding.values ++ bindingsValues rest

end

namespace Tree

/-- The trees directly below a node. -/
def children : Tree → List Tree
  | .binary _ left right _ => [left, right]
  | .conditional test ifTrue ifFalse _ => [test, ifTrue, ifFalse]
  | .constant _ _ => []
  | .invoke target arguments _ => target :: arguments
  | .lambda _ body _ => [body]
  | .listInit creation initializers =>
      creation.arguments ++ initializers.flatMap ElementInit.arguments
  | .parameter _ => []
  | .memberAccess receiver _ _ => [receiver]
  | .staticAccess _ _ => []
  | .memberInit creation bindings => creation.arguments ++ bindingsValues bindings
  | .arrayIndex array indexes _ => array :: indexes
  | .call receiver _ arguments _ => receiver :: arguments
  | .staticCall _ arguments _ => arguments
  | .newArray _ items _ => items
  | .create creation => creation.arguments
  | .typeIs operand _ _ => [operand]
  | .convert _ operand _ => [operand]
  | .unary _ operand _ => [operand]
  | .block _ body _ => body
  | .assign target value _ => [target, value]

/-! ## Occurrence -/

/-- A node occurs in a tree. -/
inductive Occurs (node : Tree) : Tree → Prop where
  | root : Occurs node node
  | inChild {tree child : Tree} (isChild : child ∈ tree.children) (inside : Occurs node child) :
      Occurs node tree

/-- A node of a tree is its root or occurs in a child. -/
theorem occurs_iff {node tree : Tree} :
    node.Occurs tree ↔ node = tree ∨ ∃ child ∈ tree.children, node.Occurs child := by
  constructor
  · intro occurs
    cases occurs with
    | root => exact .inl rfl
    | inChild isChild inside => exact .inr ⟨_, isChild, inside⟩
  · rintro (rfl | ⟨child, isChild, inside⟩)
    · exact .root
    · exact .inChild isChild inside

end Tree

end ExprImports
