import ExprImports.Proofs.Binding.Assembly
import ExprImports.Proofs.Catalog.Conversions

/-!
# Operands and branches in either order

The rules for operators and conditionals are cascades that look at one operand first, and at the
conversion of the first one to the second one before that of the second one to the first one. The
type that comes of them does not depend on the order all the same: of two different types at most
one is converted to the other one (`Catalog.Reached.eq_of_converts`), and of two operands that are
null both have the type `System.Object` (`type_of_bind_null`).

**Types of outcomes.** `treeType?` keeps of an outcome whether there is a tree, and its type. Each
rule is shown to have the same one for both orders of its operands, and so have the expressions
(`boundType?_swap`). What the faults say does depend on the order.
-/

set_option autoImplicit false

namespace ExprImports

/-- Two numbers have one common type, whichever comes first. -/
theorem TypeId.commonNumeric?_comm (left right : TypeId) :
    left.commonNumeric? right = right.commonNumeric? left := by
  unfold commonNumeric?
  rw [Bool.and_comm]
  split
  next numeric =>
    simp only [isNumeric, Bool.and_eq_true, Bool.or_eq_true, decide_eq_true_eq] at numeric
    obtain ⟨second, first⟩ := numeric
    rcases first with (rfl | rfl) | rfl <;> rcases second with (rfl | rfl) | rfl <;> rfl
  next => rfl

namespace Binding

open Surface

/-! ## Types of outcomes -/

/-- The type of the tree, if there is one. -/
def treeType? : Result Tree → Option TypeId
  | .ok tree => some tree.type
  | .error _ => none

/-- The type of the tree of an expression, if the expression can be bound. -/
def boundType? (context : Context) (expression : Expression) : Option TypeId :=
  treeType? (bind context expression)

/-- What follows a step may be changed where the step succeeds. -/
theorem treeType?_bind_congr {α : Type} {outcome : Result α} {next other : α → Result Tree}
    (same : ∀ value, outcome = .ok value → treeType? (next value) = treeType? (other value)) :
    treeType? (outcome >>= next) = treeType? (outcome >>= other) := by
  cases outcome with
  | error fault => rfl
  | ok value => exact same value rfl

/-- Two steps may be made in either order. -/
theorem treeType?_bind_comm {α β : Type} {first : Result α} {second : Result β}
    {next : α → β → Result Tree} {other : β → α → Result Tree}
    (same : ∀ left right, first = .ok left → second = .ok right →
      treeType? (next left right) = treeType? (other right left)) :
    treeType? (first >>= fun left => second >>= next left) =
      treeType? (second >>= fun right => first >>= other right) := by
  cases first with
  | error fault => cases second <;> rfl
  | ok left =>
    cases second with
    | error fault => rfl
    | ok right => exact same left right rfl rfl

variable {context : Context}

/-! ## Operators -/

/-- Each condition for one order is another condition for the other one. -/
theorem comparable_swap {catalog : Catalog} {left right : Tree}
    (compared : comparable catalog left right = true) : comparable catalog right left = true := by
  simp only [comparable, Bool.or_eq_true, decide_eq_true_eq] at compared ⊢
  rcases compared with (((same | leftNull) | rightNull) | assignable) | assignable
  · exact .inl (.inl (.inl (.inl same.symm)))
  · exact .inl (.inl (.inr leftNull))
  · exact .inl (.inl (.inl (.inr rightNull)))
  · exact .inr assignable
  · exact .inl (.inr assignable)

theorem comparable_comm (catalog : Catalog) (left right : Tree) :
    comparable catalog left right = comparable catalog right left :=
  Bool.eq_iff_iff.mpr ⟨comparable_swap, comparable_swap⟩

theorem treeType?_numericOperation (operator : BinaryOperator) (left right : Tree)
    (resultType : TypeId → TypeId) (span : Span) :
    treeType? (numericOperation operator left right resultType span) =
      (left.type.commonNumeric? right.type).map resultType := by
  unfold numericOperation
  cases left.type.commonNumeric? right.type <;> rfl

/-- A concatenation has the type of the method for it, whatever the strings are. -/
theorem treeType?_concatenation_comm (left right : Tree) (span place : Span) :
    treeType? (concatenation context left right span) =
      treeType? (concatenation context right left place) := by
  unfold concatenation
  dsimp only
  split <;> rfl

section Comparisons

variable {operator : BinaryOperator} {left right : Tree} {span : Span}

theorem treeType?_equality (isEquality : operator = .equal ∨ operator = .notEqual) :
    treeType? (bindBinary context operator left right span) =
      if (left.type.commonNumeric? right.type).isSome || comparable context.catalog left right then
        some CoreType.boolean
      else none := by
  rcases isEquality with rfl | rfl <;>
  · simp only [bindBinary]
    cases left.type.commonNumeric? right.type with
    | some common => rfl
    | none => cases comparable context.catalog left right <;> rfl

theorem treeType?_logical (isLogical : operator = .and ∨ operator = .or) :
    treeType? (bindBinary context operator left right span) =
      if left.type = CoreType.boolean && right.type = CoreType.boolean then some CoreType.boolean
      else none := by
  rcases isLogical with rfl | rfl <;>
  · simp only [bindBinary]
    split <;> rfl

end Comparisons

/-- **The operands of an operator in either order have a result of the same type.** -/
theorem treeType?_bindBinary_comm (operator : BinaryOperator) (left right : Tree)
    (span place : Span) :
    treeType? (bindBinary context operator left right span) =
      treeType? (bindBinary context operator right left place) := by
  have numeric (resultType : TypeId → TypeId) :
      treeType? (numericOperation operator left right resultType span) =
        treeType? (numericOperation operator right left resultType place) := by
    rw [treeType?_numericOperation, treeType?_numericOperation, TypeId.commonNumeric?_comm]
  cases operator with
  | add =>
    simp only [bindBinary]
    rw [Bool.and_comm]
    split
    next => exact treeType?_concatenation_comm left right span place
    next => exact numeric id
  | subtract => exact numeric id
  | multiply => exact numeric id
  | divide => exact numeric id
  | remainder => exact numeric id
  | less => exact numeric _
  | lessEqual => exact numeric _
  | greater => exact numeric _
  | greaterEqual => exact numeric _
  | equal =>
    rw [treeType?_equality (.inl rfl), treeType?_equality (.inl rfl), TypeId.commonNumeric?_comm,
      comparable_comm]
  | notEqual =>
    rw [treeType?_equality (.inr rfl), treeType?_equality (.inr rfl), TypeId.commonNumeric?_comm,
      comparable_comm]
  | and => rw [treeType?_logical (.inl rfl), treeType?_logical (.inl rfl), Bool.and_comm]
  | or => rw [treeType?_logical (.inr rfl), treeType?_logical (.inr rfl), Bool.and_comm]

theorem boundType?_binary_comm (operator : BinaryOperator) (first second : Expression)
    (span place : Span) :
    boundType? context (.binary operator first second span) =
      boundType? context (.binary operator second first place) := by
  unfold boundType?
  rw [bind, bind]
  refine treeType?_bind_comm ?_
  intro left right _ _
  exact treeType?_bindBinary_comm operator left right span place

/-! ## Branches -/

/-- A null that is bound has the type of all objects. -/
theorem type_of_bind_null (owned : context.catalog.Owned) {expression : Expression} {tree : Tree}
    (done : bind context expression = .ok tree) (null : tree.isNull = true) :
    tree.type = CoreType.object := by
  obtain ⟨parts, _, assembles⟩ := exists_assembles owned done
  cases assembles with
  | literal value span =>
    cases value with
    | null => rfl
    | _ => cases null
  | _ => cases null

section Branches

variable {left right : Tree} {type : TypeId}

/-- Both branches can be used as the common type. -/
theorem exists_convert?_of_branchType? {catalog : Catalog}
    (found : branchType? catalog left right = some type) :
    (∃ converted, left.convert? catalog type = some converted) ∧
      ∃ converted, right.convert? catalog type = some converted := by
  rw [Tree.exists_convert?_iff, Tree.exists_convert?_iff]
  unfold branchType? at found
  dsimp only at found
  simp only [Bool.and_eq_true, Bool.not_eq_true', Catalog.converts_iff] at found
  split at found
  next same =>
    cases found
    exact ⟨.inl rfl, .inl same.symm⟩
  split at found
  next null =>
    cases found
    exact ⟨.inr (.inl null), .inl rfl⟩
  split at found
  next null =>
    cases found
    exact ⟨.inl rfl, .inr (.inl null)⟩
  split at found
  next converts =>
    cases found
    exact ⟨.inr (.inr converts), .inl rfl⟩
  split at found
  next converts =>
    cases found
    exact ⟨.inl rfl, .inr (.inr converts)⟩
  next => cases found

/-- A conditional has the common type of its branches, and is refused only if they have none. -/
theorem treeType?_bindConditional (test left right : Tree) (span : Span) :
    treeType? (bindConditional context test left right span) =
      branchType? context.catalog left right := by
  unfold bindConditional
  cases found : branchType? context.catalog left right with
  | none => rfl
  | some type =>
    obtain ⟨⟨first, convertsLeft⟩, second, convertsRight⟩ := exists_convert?_of_branchType? found
    simp only [coerce, convertsLeft, convertsRight]
    rfl

/-- **Branches in either order have the same common type.** At most one of the conditions on nulls
holds, and at most one on conversions, if the types differ. -/
theorem branchType?_comm (reached : context.catalog.Reached)
    (leftNull : left.isNull = true → left.type = CoreType.object)
    (rightNull : right.isNull = true → right.type = CoreType.object) :
    branchType? context.catalog left right = branchType? context.catalog right left := by
  by_cases same : left.type = right.type
  · simp only [branchType?, same, if_true]
  have differ : right.type ≠ left.type := fun same' => same same'.symm
  have oneNull : ¬ (left.isNull = true ∧ right.isNull = true) := by
    rintro ⟨null, null'⟩
    exact same ((leftNull null).trans (rightNull null').symm)
  have oneWay : ¬ (context.catalog.converts left.type right.type = true ∧
      context.catalog.converts right.type left.type = true) := by
    rintro ⟨forth, back⟩
    exact same (reached.eq_of_converts forth back)
  simp only [branchType?, if_neg same, if_neg differ]
  grind

end Branches

theorem boundType?_conditional_comm (reached : context.catalog.Reached)
    (test first second : Expression) (span place : Span) :
    boundType? context (.conditional test first second span) =
      boundType? context (.conditional test second first place) := by
  unfold boundType?
  rw [bind, bind]
  refine treeType?_bind_congr ?_
  intro truth _
  refine treeType?_bind_congr ?_
  intro truth _
  refine treeType?_bind_comm ?_
  intro left right boundLeft boundRight
  rw [treeType?_bindConditional, treeType?_bindConditional]
  exact branchType?_comm reached (type_of_bind_null reached.owned boundLeft)
    (type_of_bind_null reached.owned boundRight)

/-- **Operands and branches in either order.** An operator applied to two expressions can be
bound exactly if it can be bound with both exchanged, and then has a result of the same type. So
can a conditional with its branches exchanged. -/
theorem boundType?_swap (reached : context.catalog.Reached) (first second test : Expression)
    (span place : Span) :
    (∀ operator, boundType? context (.binary operator first second span) =
      boundType? context (.binary operator second first place)) ∧
    boundType? context (.conditional test first second span) =
      boundType? context (.conditional test second first place) :=
  ⟨fun operator => boundType?_binary_comm operator first second span place,
    boundType?_conditional_comm reached test first second span place⟩

/-! ## A greeting -/

namespace Greeting

/-- Nothing but the core types. -/
def core : Context := { catalog := .initial }

/-- The test of `true ? null : "Ada"`. -/
def known : Expression := .literal (.boolean true) ⟨0, 4⟩

def nobody : Expression := .literal .null ⟨7, 4⟩

def ada : Expression := .literal (.text "Ada") ⟨14, 5⟩

theorem reached_core : core.catalog.Reached :=
  Catalog.Built.initial.reached

end Greeting

/-- A null takes the type of the name, on either side of the colon. -/
theorem boundType?_swap_nobody :
    Greeting.core.catalog.Reached ∧
      boundType? Greeting.core
          (.conditional Greeting.known Greeting.nobody Greeting.ada ⟨0, 19⟩) =
        some CoreType.string ∧
      boundType? Greeting.core
          (.conditional Greeting.known Greeting.ada Greeting.nobody ⟨0, 19⟩) =
        some CoreType.string ∧
      ∀ operator,
        boundType? Greeting.core (.binary operator Greeting.nobody Greeting.ada ⟨0, 19⟩) =
          boundType? Greeting.core (.binary operator Greeting.ada Greeting.nobody ⟨0, 19⟩) := by
  obtain ⟨operands, branches⟩ := boundType?_swap Greeting.reached_core Greeting.nobody Greeting.ada
    Greeting.known ⟨0, 19⟩ ⟨0, 19⟩
  have common : boundType? Greeting.core
      (.conditional Greeting.known Greeting.nobody Greeting.ada ⟨0, 19⟩) =
        some CoreType.string := by
    decide +kernel
  exact ⟨Greeting.reached_core, common, branches ▸ common, operands⟩

end Binding

end ExprImports
