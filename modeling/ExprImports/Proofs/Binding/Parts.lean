import ExprImports.Proofs.Binding.Assembly

/-!
# The parts of an expression in its tree

The trees directly below that of an expression are those of its parts that are evaluated, from
left to right, and each one is taken as it is, or is converted (`becomeAll_of_assembles`). No part
is left out, doubled or moved, whichever of several methods or constructors the arguments are tried
with.

So a node of the tree is the tree of a part that is evaluated, or it was put in by a conversion
(`origin_of_occurs`).
-/

set_option autoImplicit false

namespace ExprImports

/-! ## Trees in their places -/

/-- The result stands for the tree: it is the tree, a null in place of a null, or a conversion
above the tree. -/
def Tree.Becomes (tree result : Tree) : Prop :=
  ∃ target, tree.ConvertsTo target result

theorem Tree.becomes_self (tree : Tree) : tree.Becomes tree :=
  ⟨tree.type, .same⟩

theorem Tree.WidensTo.becomes {tree result : Tree} (widens : tree.WidensTo result) :
    tree.Becomes result := by
  cases widens with
  | same => exact tree.becomes_self
  | convert target => exact ⟨target, .convert⟩

/-- The results stand for the trees, in the same order. -/
abbrev BecomeAll : List Tree → List Tree → Prop :=
  List.Forall₂ Tree.Becomes

theorem AllConvert.becomeAll {trees converted : List Tree} {targets : List TypeId}
    (fitting : AllConvert trees targets converted) : BecomeAll trees converted := by
  refine List.Forall₂.imp ?_ fitting
  rintro tree result ⟨target, _, converts⟩
  exact ⟨target, converts⟩

namespace Binding

open Surface

variable {context : Context}

/-- **The trees below a tree stand for those that it is put together from, in the same order.** -/
theorem becomeAll_of_assembles {expression : Expression} {parts : List Tree} {tree : Tree}
    (assembles : Assembles context expression parts tree) : BecomeAll parts tree.children := by
  have one (tree : Tree) : BecomeAll [tree] [tree] := .cons tree.becomes_self .nil
  cases assembles with
  | literal value span => cases value <;> exact .nil
  | identifier => exact .nil
  | member => exact one _
  | staticMember => exact .nil
  | call span isValue found fitting => exact .cons (Tree.becomes_self _) fitting.becomeAll
  | staticCall span isType found isStatic fitting => exact fitting.becomeAll
  | element span isArray fitting => exact .cons (Tree.becomes_self _) fitting.becomeAll
  | indexer span found fitting => exact .cons (Tree.becomes_self _) fitting.becomeAll
  | create span resolved own fitting => exact fitting.becomeAll
  | createArray span resolved isArray fitting => exact fitting.becomeAll
  | typeOf => exact .nil
  | typeIs => exact one _
  | typeAs => exact one _
  | unary => exact one _
  | concatenation span fitting => exact fitting.becomeAll
  | binary op span widensFirst widensSecond =>
      exact .cons widensFirst.becomes (.cons widensSecond.becomes .nil)
  | conditional span convertsTruth isBranch convertsFirst convertsSecond =>
      exact .cons ⟨_, convertsTruth⟩ (.cons ⟨_, convertsFirst⟩ (.cons ⟨_, convertsSecond⟩ .nil))
  | assign span converts => exact .cons (Tree.becomes_self _) (.cons ⟨_, converts⟩ .nil)

/-! ## Where nodes come from -/

/-- A node that a conversion puts into a tree. -/
inductive IsConversion : Tree → Prop where
  | null (target : TypeId) : IsConversion (.constant .null target)
  | convert (operand : Tree) (target : TypeId) : IsConversion (.convert .convert operand target)

/-- A node of a result is a node of the tree that it stands for, or a conversion. -/
theorem occurs_or_isConversion_of_becomes {tree result node : Tree} (becomes : tree.Becomes result)
    (occurs : node.Occurs result) : node.Occurs tree ∨ IsConversion node := by
  obtain ⟨target, converts⟩ := becomes
  cases converts with
  | same => exact .inl occurs
  | null isNull =>
      cases occurs with
      | root => exact .inr (.null target)
      | inChild isChild => exact absurd isChild List.not_mem_nil
  | convert =>
      cases occurs with
      | root => exact .inr (.convert tree target)
      | inChild isChild inside =>
          obtain rfl := List.mem_singleton.mp isChild
          exact .inl inside

/-- **Every node of the tree of an expression is the tree of a part that is evaluated, or a
conversion.** The induction follows the parts that are evaluated. -/
theorem origin_of_occurs (owned : context.catalog.Owned) {expression : Expression}
    {tree node : Tree} (done : bind context expression = .ok tree) (occurs : node.Occurs tree) :
    (∃ part, context.Evaluates part expression ∧ bind context part = .ok node) ∨
      IsConversion node := by
  induction size : sizeOf expression using Nat.strongRecOn generalizing expression tree with
  | _ bound ih =>
      obtain rfl | ⟨child, isChild, inside⟩ := Tree.occurs_iff.mp occurs
      · exact .inl ⟨expression, .root, done⟩
      · obtain ⟨parts, boundParts, assembles⟩ := exists_assembles owned done
        obtain ⟨part, isPart, becomes⟩ :=
          exists_of_mem_right (becomeAll_of_assembles assembles) child isChild
        obtain ⟨written, isWritten, boundPart⟩ := exists_of_mem_bound boundParts isPart
        have smaller := size ▸ Context.sizeOf_lt_of_mem_valueParts isWritten
        obtain insidePart | isConversion := occurs_or_isConversion_of_becomes becomes inside
        · refine (ih _ smaller boundPart insidePart rfl).imp_left ?_
          rintro ⟨origin, evaluates, boundOrigin⟩
          exact ⟨origin, .inPart isWritten evaluates, boundOrigin⟩
        · exact .inr isConversion

end Binding

end ExprImports
