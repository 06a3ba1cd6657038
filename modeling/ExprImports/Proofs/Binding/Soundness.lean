import ExprImports.Proofs.Binding.Conversion
import ExprImports.Proofs.Binding.Forms
import ExprImports.Proofs.Catalog.Interning

/-!
# The trees of expressions are well typed

Each part of the meaning of an expression yields a node that obeys its rule if the parts
below it are well typed. So every expression that has a meaning has a well-typed tree,
with one exception: a static indexed property is read through a receiver.

**Soundness.** Whatever operations made the catalog, the tree of an expression is well
typed apart from the reading of static indexed properties (`sound_of_bind`).
-/

set_option autoImplicit false

namespace ExprImports.Binding

open Surface

variable {context : Context}

/-! ## Names of types -/

theorem names_of_resolve {named : TypeName} {type : TypeId}
    (done : context.resolve named = .ok type) : context.Names type := by
  obtain ⟨unique, visible⟩ := Context.resolve_eq_ok_iff.mp done
  exact ⟨⟨named.name, unique⟩, visible⟩

theorem names_of_receiverType? {target : Expression} {type : TypeId}
    (isType : context.receiverType? target = some type)
    (visible : context.missingAssembly? type = none) : context.Names type := by
  unfold Context.receiverType? at isType
  split at isType
  · split at isType
    · cases isType
    · exact ⟨⟨_, isType⟩, visible⟩
  · cases isType

/-! ## Values, members and calls -/

section Owned

variable (owned : context.catalog.Owned)
include owned

theorem declaresMember_of_findMember? {type : TypeId} {name : String} {member : Member}
    (found : context.catalog.findMember? type name = some member) :
    context.catalog.DeclaresMember type member := by
  obtain ⟨ancestor, above, here⟩ := List.exists_of_findSome?_eq_some found
  have declared := List.mem_of_find?_eq_some here
  have own := owned.declaringType_of_mem_members declared
  subst own
  exact ⟨above, declared⟩

theorem declaresMethod_of_mem_findMethods {type : TypeId} {name : String} {method : Method}
    (inside : method ∈ context.catalog.findMethods type name) :
    context.catalog.DeclaresMethod type method := by
  obtain ⟨ancestor, above, here⟩ := List.mem_flatMap.mp inside
  have declared := (List.mem_filter.mp here).1
  have own := owned.declaringType_of_mem_methods declared
  subst own
  exact ⟨above, declared⟩

end Owned

/-- What stands before a dot is a well-typed value or a type that can be named. -/
def Receiver.Sound (context : Context) : Receiver → Prop
  | .value tree => tree.WellTypedButIndexers context
  | .type named => context.Names named

theorem sound_of_bindsReceiver {target : Expression} {receiver : Receiver}
    (before : BindsReceiver context target receiver)
    (sound : ∀ part ∈ context.receiverParts target, ∀ tree : Tree,
      bind context part = .ok tree → tree.WellTypedButIndexers context) :
    receiver.Sound context := by
  cases before with
  | type isType visible => exact names_of_receiverType? isType visible
  | value isValue bound => exact sound target (Context.mem_receiverParts_self isValue) _ bound

theorem sound_of_bindMember (owned : context.catalog.Owned) {receiver : Receiver} {name : String}
    {span : Span} {tree : Tree} (sound : receiver.Sound context)
    (done : bindMember context receiver name span = .ok tree) :
    tree.WellTypedButIndexers context := by
  obtain ⟨member, found, fits, rfl⟩ := bindMember_eq_ok_iff.mp done
  have declared := declaresMember_of_findMember? owned found
  cases receiver with
  | value receiver =>
      exact Tree.wellTypedButIndexers_above rfl (.memberAccess declared) fits sound
  | type named => exact Tree.wellTypedButIndexers_leaf rfl (.staticAccess sound declared) fits

theorem sound_of_bindCall (owned : context.catalog.Owned) {receiver : Receiver} {name : String}
    {arguments : List Tree} {span : Span} {tree : Tree} (sound : receiver.Sound context)
    (argumentsSound : ∀ argument ∈ arguments, argument.WellTypedButIndexers context)
    (done : bindCall context receiver name arguments span = .ok tree) :
    tree.WellTypedButIndexers context := by
  obtain ⟨method, inside, fits, converted, fitting, rfl⟩ := exists_of_bindCall done
  have declared := declaresMethod_of_mem_findMethods owned inside
  have typed := areTyped_of_convertAll? argumentsSound fitting
  cases receiver with
  | value receiver =>
      refine Tree.wellTypedButIndexers_of_children (.call declared typed.types) (.inl fits) ?_
      exact List.forall_mem_cons.mpr ⟨sound, typed.sound⟩
  | type named =>
      exact Tree.wellTypedButIndexers_of_children (.staticCall sound declared typed.types)
        (.inl fits) typed.sound

theorem sound_of_bindIndex (owned : context.catalog.Owned) {target : Tree}
    {arguments : List (Tree × Span)} {span : Span} {tree : Tree}
    (sound : target.WellTypedButIndexers context)
    (argumentsSound : ∀ argument ∈ arguments, argument.1.WellTypedButIndexers context)
    (done : bindIndex context target arguments span = .ok tree) :
    tree.WellTypedButIndexers context := by
  obtain ⟨element, isArray, indexes, coerced, rfl⟩ |
    ⟨noArray, indexer, found, converted, fitting, rfl⟩ := cases_of_bindIndex done
  · have typed := areTyped_of_coerceEach argumentsSound coerced
    refine Tree.wellTypedButIndexers_of_children
      (.arrayIndex isArray fun index inside => (typed index inside).type) (.inl trivial) ?_
    exact List.forall_mem_cons.mpr ⟨sound, fun index inside => (typed index inside).sound⟩
  · have typed := areTyped_of_convertAll? (fun argument inside => by
      obtain ⟨pair, isPair, rfl⟩ := List.mem_map.mp inside
      exact argumentsSound pair isPair) fitting
    have declared := declaresMethod_of_mem_findMethods owned (List.mem_of_find?_eq_some found)
    refine Tree.wellTypedButIndexers_of_children (.call declared typed.types) ?_ ?_
    · cases static : indexer.isStatic with
      | false => exact .inl static
      | true => exact .inr ⟨noArray, found, static⟩
    · exact List.forall_mem_cons.mpr ⟨sound, typed.sound⟩

/-! ## Creations -/

theorem sound_of_bindCreation (owned : context.catalog.Owned) {type : TypeId}
    {arguments : List Tree} {span : Span} {tree : Tree} (isNamed : context.Names type)
    (argumentsSound : ∀ argument ∈ arguments, argument.WellTypedButIndexers context)
    (done : bindCreation context type arguments span = .ok tree) :
    tree.WellTypedButIndexers context := by
  obtain ⟨creatable, ⟨constructor, declared, converted, fitting, rfl⟩ |
    ⟨undeclared, _, rfl⟩⟩ := cases_of_bindCreation done
  · have typed := areTyped_of_convertAll? argumentsSound fitting
    have own := owned.declaringType_of_mem_constructors declared
    exact Tree.wellTypedButIndexers_of_children
      (.create isNamed creatable declared own typed.types) (.inl trivial) typed.sound
  · split
    · rename_i copied
      exact Tree.wellTypedButIndexers_leaf rfl
        (.createValue isNamed creatable undeclared copied) trivial
    · rename_i reference
      rw [Bool.not_eq_true] at reference
      exact Tree.wellTypedButIndexers_leaf rfl
        (.createImplied isNamed creatable undeclared reference) trivial

/-! ## Operators -/

theorem sound_of_bindUnary {operator : UnaryOperator} {operand tree : Tree} {span : Span}
    (sound : operand.WellTypedButIndexers context)
    (done : bindUnary operator operand span = .ok tree) : tree.WellTypedButIndexers context := by
  cases operator with
  | negate =>
      simp only [bindUnary] at done
      split at done
      · rename_i numeric
        cases done
        exact Tree.wellTypedButIndexers_above rfl (.negate numeric) trivial sound
      · cases done
  | not =>
      simp only [bindUnary] at done
      split at done
      · rename_i truth
        cases done
        exact Tree.wellTypedButIndexers_above rfl (.not truth) trivial sound
      · cases done

/-- An operator on numbers has operands of one numeric type. -/
theorem sound_of_numericOperation (operator : BinaryOperator) {left right tree : Tree}
    {resultType : TypeId → TypeId} {span : Span}
    (first : left.WellTypedButIndexers context) (second : right.WellTypedButIndexers context)
    (obeys : ∀ common left right, common.isNumeric = true → IsTyped context common left →
      IsTyped context common right →
      Obeys context (.binary (treeOperator operator) left right (resultType common)))
    (done : numericOperation operator left right resultType span = .ok tree) :
    tree.WellTypedButIndexers context := by
  unfold numericOperation at done
  split at done
  · rename_i common found
    cases done
    obtain ⟨numeric, widerLeft, widerRight⟩ := commonNumeric?_spec found
    have typedLeft := isTyped_widen first widerLeft
    have typedRight := isTyped_widen second widerRight
    exact Tree.wellTypedButIndexers_join rfl (obeys _ _ _ numeric typedLeft typedRight) trivial
      typedLeft.sound typedRight.sound
  · cases done

theorem obeys_arithmetic {op : BinaryOp} (isArithmetic : IsArithmetic op) (common : TypeId)
    (left right : Tree) (numeric : common.isNumeric = true)
    (typedLeft : IsTyped context common left) (typedRight : IsTyped context common right) :
    Obeys context (.binary op left right (id common)) := by
  obtain ⟨rfl, _⟩ := typedLeft
  exact .arithmetic isArithmetic typedRight.type.symm numeric

theorem obeys_ordering {op : BinaryOp} (isOrdering : IsOrdering op) (common : TypeId)
    (left right : Tree) (numeric : common.isNumeric = true)
    (typedLeft : IsTyped context common left) (typedRight : IsTyped context common right) :
    Obeys context (.binary op left right CoreType.boolean) := by
  obtain ⟨rfl, _⟩ := typedLeft
  exact .ordering isOrdering typedRight.type.symm numeric

/-- What can be compared obeys the rule of equality. -/
theorem comparable_of_comparable {left right : Tree}
    (compared : comparable context.catalog left right = true) :
    Comparable context.catalog left right := by
  simp only [comparable, Bool.or_eq_true, Bool.and_eq_true, Bool.not_eq_true',
    decide_eq_true_eq] at compared
  rcases compared with (((same | nullLeft) | nullRight) | assignable) | assignable
  · exact .same same
  · exact .nullLeft nullLeft.1 nullLeft.2
  · exact .nullRight nullRight.1 nullRight.2
  · exact .toRight assignable
  · exact .toLeft assignable

/-- The first method for the concatenation of strings is that of the initial catalog. -/
theorem concat_found {catalog : Catalog} (reached : catalog.Reached) :
    (catalog.findMethods CoreType.string Catalog.concatMethod.name).find? (fun method =>
        method.isStatic && method.parameters = [CoreType.string, CoreType.string]) =
      some Catalog.concatMethod := by
  obtain ⟨added, grown⟩ := reached.extends_initial.methods_prefix CoreType.string
  have first : (Catalog.initial.methods CoreType.string).filter
      (·.name == Catalog.concatMethod.name) = [Catalog.concatMethod] := by
    decide +kernel
  unfold Catalog.findMethods Catalog.baseChain
  rw [List.flatMap_cons, ← grown, List.filter_append, first]
  rfl

theorem concatenation_eq (reached : context.catalog.Reached) (left right : Tree) (span : Span) :
    concatenation context left right span =
      .ok (.callOf none Catalog.concatMethod [left, right]) := by
  simp only [concatenation, concat_found reached]

theorem sound_concatenation (reached : context.catalog.Reached) {left right : Tree}
    (first : left.WellTypedButIndexers context) (second : right.WellTypedButIndexers context)
    (strings : left.type = CoreType.string ∧ right.type = CoreType.string) :
    (Tree.callOf none Catalog.concatMethod [left, right]).WellTypedButIndexers context := by
  have declared := declaresMethod_of_mem_findMethods reached.owned
    (List.mem_of_find?_eq_some (concat_found reached))
  have fits : [left, right].map Tree.type = Catalog.concatMethod.parameters := by
    rw [List.map_cons, List.map_cons, strings.1, strings.2]
    rfl
  exact Tree.wellTypedButIndexers_join rfl (.concatenation declared fits) rfl first second

/-- An operator for equality compares two numbers of one type, or operands that can be
compared as they are. -/
theorem sound_of_equality (operator : BinaryOperator) {left right tree : Tree} {span : Span}
    (isEquality : IsEquality (treeOperator operator))
    (first : left.WellTypedButIndexers context) (second : right.WellTypedButIndexers context)
    (done : (match left.type.commonNumeric? right.type with
      | some common =>
        .ok (.binary (treeOperator operator) (left.widen common) (right.widen common)
          CoreType.boolean)
      | none =>
        if comparable context.catalog left right then
          .ok (.binary (treeOperator operator) left right CoreType.boolean)
        else fail span (.binaryOperands operator left.type right.type)) = Except.ok tree) :
    tree.WellTypedButIndexers context := by
  split at done
  · rename_i common found
    cases done
    obtain ⟨_, widerLeft, widerRight⟩ := commonNumeric?_spec found
    have typedLeft := isTyped_widen first widerLeft
    have typedRight := isTyped_widen second widerRight
    have same := typedLeft.type.trans typedRight.type.symm
    exact Tree.wellTypedButIndexers_join rfl (.equality isEquality (.same same)) trivial
      typedLeft.sound typedRight.sound
  · split at done
    · rename_i compared
      cases done
      have comparable := comparable_of_comparable compared
      exact Tree.wellTypedButIndexers_join rfl (.equality isEquality comparable) trivial
        first second
    · cases done

/-- An operator on truth values has two of them. -/
theorem sound_of_logical (operator : BinaryOperator) {left right tree : Tree} {span : Span}
    (isLogical : IsLogical (treeOperator operator))
    (first : left.WellTypedButIndexers context) (second : right.WellTypedButIndexers context)
    (done : (if left.type = CoreType.boolean && right.type = CoreType.boolean then
        .ok (.binary (treeOperator operator) left right CoreType.boolean)
      else fail span (.binaryOperands operator left.type right.type)) = Except.ok tree) :
    tree.WellTypedButIndexers context := by
  split at done
  · rename_i truths
    cases done
    simp only [Bool.and_eq_true, decide_eq_true_eq] at truths
    exact Tree.wellTypedButIndexers_join rfl (.logical isLogical truths.1 truths.2) trivial
      first second
  · cases done

theorem sound_of_bindBinary (reached : context.catalog.Reached) {operator : BinaryOperator}
    {left right tree : Tree} {span : Span} (first : left.WellTypedButIndexers context)
    (second : right.WellTypedButIndexers context)
    (done : bindBinary context operator left right span = .ok tree) :
    tree.WellTypedButIndexers context := by
  cases operator with
  | add =>
      simp only [bindBinary] at done
      split at done
      · rename_i strings
        simp only [Bool.and_eq_true, decide_eq_true_eq] at strings
        rw [concatenation_eq reached] at done
        cases done
        exact sound_concatenation reached first second strings
      · exact sound_of_numericOperation .add first second (obeys_arithmetic .add) done
  | subtract =>
      exact sound_of_numericOperation .subtract first second (obeys_arithmetic .subtract) done
  | multiply =>
      exact sound_of_numericOperation .multiply first second (obeys_arithmetic .multiply) done
  | divide =>
      exact sound_of_numericOperation .divide first second (obeys_arithmetic .divide) done
  | remainder =>
      exact sound_of_numericOperation .remainder first second (obeys_arithmetic .modulo) done
  | less => exact sound_of_numericOperation .less first second (obeys_ordering .lessThan) done
  | lessEqual =>
      exact sound_of_numericOperation .lessEqual first second (obeys_ordering .lessThanOrEqual) done
  | greater =>
      exact sound_of_numericOperation .greater first second (obeys_ordering .greaterThan) done
  | greaterEqual =>
      exact sound_of_numericOperation .greaterEqual first second
        (obeys_ordering .greaterThanOrEqual) done
  | equal => exact sound_of_equality .equal .equal first second done
  | notEqual => exact sound_of_equality .notEqual .notEqual first second done
  | and => exact sound_of_logical .and .andAlso first second done
  | or => exact sound_of_logical .or .orElse first second done

theorem sound_of_bindConditional {test ifTrue ifFalse tree : Tree} {span : Span}
    (truth : IsTyped context CoreType.boolean test)
    (first : ifTrue.WellTypedButIndexers context) (second : ifFalse.WellTypedButIndexers context)
    (done : bindConditional context test ifTrue ifFalse span = .ok tree) :
    tree.WellTypedButIndexers context := by
  unfold bindConditional at done
  split at done
  · cases done
  · rename_i type common
    obtain ⟨trueBranch, convertedTrue, done⟩ := exists_of_bind_eq_ok done
    obtain ⟨falseBranch, convertedFalse, done⟩ := exists_of_bind_eq_ok done
    cases done
    have typedTrue := isTyped_of_coerce first convertedTrue
    have typedFalse := isTyped_of_coerce second convertedFalse
    refine Tree.wellTypedButIndexers_of_children
      (.conditional truth.type typedTrue.type typedFalse.type) (.inl trivial) ?_
    intro child isChild
    simp only [Tree.children, List.mem_cons, List.not_mem_nil, or_false] at isChild
    rcases isChild with rfl | rfl | rfl
    · exact truth.sound
    · exact typedTrue.sound
    · exact typedFalse.sound

/-! ## Literals -/

theorem fitsInt32_eq_true_iff {value : Int} :
    fitsInt32 value = true ↔ -0x80000000 ≤ value ∧ value ≤ 0x7FFFFFFF := by
  simp only [fitsInt32, Bool.and_eq_true, decide_eq_true_eq]

/-- The root of the hierarchy is no value type. -/
theorem isValueType_object {catalog : Catalog} (reached : catalog.Reached) :
    catalog.isValueType CoreType.object = false := by
  rw [reached.extends_initial.isValueType_eq (by decide +kernel)]
  decide +kernel

theorem obeys_literalTree (reached : context.catalog.Reached) (value : Constant) :
    Obeys context (literalTree value) := by
  cases value with
  | null => exact .null (isValueType_object reached)
  | boolean value => exact .literal (.boolean value)
  | integer value =>
      simp only [literalTree]
      split
      · rename_i fits
        exact .literal (.narrow (fitsInt32_eq_true_iff.mp fits))
      · rename_i exceeds
        exact .literal (.wide fun fits => exceeds (fitsInt32_eq_true_iff.mpr fits))
  | floating value => exact .literal (.floating value)
  | text value => exact .literal (.text value)

theorem sound_literalTree (reached : context.catalog.Reached) (value : Constant) :
    (literalTree value).WellTypedButIndexers context := by
  refine Tree.wellTypedButIndexers_leaf ?_ (obeys_literalTree reached value) ?_
  · cases value <;> rfl
  · cases value <;> trivial

/-! ## Expressions -/

theorem typed_of_boundItems {element : TypeId} {items : List Expression} {trees : List Tree}
    (bound : BoundItems context element items trees)
    (sound : ∀ item ∈ items, ∀ tree : Tree,
      bind context item = .ok tree → tree.WellTypedButIndexers context) :
    ∀ tree ∈ trees, IsTyped context element tree := by
  intro tree inside
  obtain ⟨item, isItem, source, boundItem, coerced⟩ := exists_of_mem_right bound tree inside
  exact isTyped_of_coerce (sound item isItem source boundItem) coerced

/-- **The tree of an expression is well typed apart from static indexed properties.** The
induction follows the parts that are evaluated. -/
theorem sound_of_bind (reached : context.catalog.Reached) {expression : Expression} {tree : Tree}
    (done : bind context expression = .ok tree) : tree.WellTypedButIndexers context := by
  refine binds_induction (motive := fun _ tree => tree.WellTypedButIndexers context)
    (fun {expression tree} binds sound => ?_) done
  have all {arguments : List Expression} {trees : List Tree}
      (areParts : ∀ argument ∈ arguments, argument ∈ context.valueParts expression)
      (bound : BoundAll context arguments trees) :
      ∀ argument ∈ trees, argument.WellTypedButIndexers context := by
    intro argument inside
    obtain ⟨written, isWritten, boundPart⟩ := exists_of_mem_bound bound inside
    exact sound written (areParts written isWritten) argument boundPart
  cases binds with
  | literal value => exact sound_literalTree reached value
  | identifier known => exact Tree.wellTypedButIndexers_leaf rfl (.parameter known) trivial
  | member before made =>
      exact sound_of_bindMember reached.owned (sound_of_bindsReceiver before sound) made
  | methodCall before bound made =>
      refine sound_of_bindCall reached.owned (sound_of_bindsReceiver before fun part isPart => ?_)
        (all (fun _ => List.mem_append_right _) bound) made
      exact sound part (List.mem_append_left _ isPart)
  | index before bound made =>
      refine sound_of_bindIndex reached.owned (sound _ List.mem_cons_self _ before) ?_ made
      intro pair inside
      exact all (fun _ => List.mem_cons_of_mem _) bound pair.1 (List.of_mem_zip inside).1
  | create resolved bound made =>
      exact sound_of_bindCreation reached.owned (names_of_resolve resolved)
        (all (fun _ => id) bound) made
  | createArray resolved isArray bound =>
      have typed := typed_of_boundItems bound sound
      exact Tree.wellTypedButIndexers_of_children
        (.newArray (names_of_resolve resolved) (reached.interned.array _ _ _ isArray).element?
          fun item inside => (typed item inside).type)
        (.inl trivial) fun item inside => (typed item inside).sound
  | typeOf resolved =>
      exact Tree.wellTypedButIndexers_leaf rfl (.typeConstant (names_of_resolve resolved)) trivial
  | typeIs bound resolved =>
      exact Tree.wellTypedButIndexers_above rfl (.typeIs (names_of_resolve resolved)) trivial
        (sound _ List.mem_cons_self _ bound)
  | typeAs bound resolved reference =>
      exact Tree.wellTypedButIndexers_above rfl (.typeAs (names_of_resolve resolved) reference)
        trivial (sound _ List.mem_cons_self _ bound)
  | unary bound made => exact sound_of_bindUnary (sound _ List.mem_cons_self _ bound) made
  | binary boundLeft boundRight made =>
      exact sound_of_bindBinary reached (sound _ List.mem_cons_self _ boundLeft)
        (sound _ (List.mem_cons_of_mem _ List.mem_cons_self) _ boundRight) made
  | conditional boundTest isTruth boundTrue boundFalse made =>
      have isTest := isTyped_of_coerce (sound _ List.mem_cons_self _ boundTest) isTruth
      exact sound_of_bindConditional isTest
        (sound _ (List.mem_cons_of_mem _ List.mem_cons_self) _ boundTrue)
        (sound _ (List.mem_cons_of_mem _ (List.mem_cons_of_mem _ List.mem_cons_self)) _ boundFalse)
        made
  | assign boundTarget boundValue fits =>
      have typed := isTyped_of_coerce
        (sound _ (List.mem_cons_of_mem _ List.mem_cons_self) _ boundValue) fits
      exact Tree.wellTypedButIndexers_join rfl (.assign typed.type) trivial
        (sound _ List.mem_cons_self _ boundTarget) typed.sound

end ExprImports.Binding
