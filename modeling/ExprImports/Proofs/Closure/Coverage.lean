import ExprImports.Proofs.Catalog.Regularity
import ExprImports.Proofs.Closure.Reachability
import ExprImports.Proofs.Recompilation.Stages

/-!
# Which types of a compiled expression are accounted for

Few nodes anchor their own type. That the type of every node is collected, or defined
in a default assembly, follows from what the nodes around it anchor: an operator from
its operands, an element from its array, a converted value from its conversion, and the
declaring type of an inherited member because it is above the receiver's type.

**Nulls.** A null takes the type of the place that it is converted for. The place of an
argument of a method, an element, a branch or an assigned value is anchored by another
node, but a constructor does not anchor the types of its parameters, and neither does
the whole text anchor its target. These two places are all that is not accounted for
(`types_accounted`).

**Owners.** Below an array type that is a base type, as a catalog may have it, the array
type is collected as it stands, and its element need not be (`AccountsOwner`).

**Declared arrays.** A type can be declared as an array with any base type. What is read
through it may be declared on that base type, which no anchor stands for, because only the
element of an array is anchored. So all array types are taken to be derived from
`System.Array` here, as they are in every built catalog (`Catalog.ArraysAreDerived`).
-/

set_option autoImplicit false

namespace ExprImports

/-! ## What is to be accounted for -/

/-- The innermost element of an array type, and any other type itself. -/
def Catalog.innermost (catalog : Catalog) (type : TypeId) : TypeId :=
  match catalog.element? type with
  | some element => if element.height < type.height then innermost catalog element else type
  | none => type
termination_by type.height

/-- The type whose constructor a creation calls. -/
def Creation.owner? : Creation → Option TypeId
  | .of constructor _ _ => constructor.map (·.declaringType)

/-- A creation by a constructor of its own type names that type. -/
theorem Creation.namedType_of_own {constructor : Option Constructor} {type : TypeId}
    (own : ∀ made ∈ constructor, made.declaringType = type) (arguments : List Tree) :
    (Creation.of constructor arguments type).namedType = type := by
  cases constructor with
  | none => rfl
  | some made => exact own made rfl

namespace Tree

/-- The types that declare the members, methods and constructors that a node invokes. -/
def owners : Tree → List TypeId
  | .memberAccess _ member _ => [member.declaringType]
  | .staticAccess member _ => [member.declaringType]
  | .call _ method _ _ => [method.declaringType]
  | .staticCall method _ _ => [method.declaringType]
  | .create creation => creation.owner?.toList
  | .listInit creation _ => creation.owner?.toList
  | .memberInit creation _ => creation.owner?.toList
  | _ => []

/-- The trees directly below a node, apart from nulls that a constructor is given. -/
def countedChildren : Tree → List Tree
  | .create creation => creation.arguments.filter fun argument => !argument.isNull
  | tree => tree.children

/-- A node occurs in a tree other than as a null that a constructor is given. -/
inductive Counts (node : Tree) : Tree → Prop where
  | root : Counts node node
  | inChild {tree child : Tree} (isChild : child ∈ tree.countedChildren)
      (inside : Counts node child) : Counts node tree

/-- The type is collected for the tree, or a default assembly defines it. -/
def Accounts (catalog : Catalog) (defaults : DefaultAssemblies) (tree : Tree) (type : TypeId) :
    Prop :=
  type ∈ tree.typeReferences catalog defaults ∨ defaults.defines catalog type = true

/-- What counts occurs. -/
theorem Counts.occurs {node tree : Tree} (counts : node.Counts tree) : node.Occurs tree := by
  induction counts with
  | root => exact .root
  | @inChild tree child isChild _ ih =>
      refine .inChild ?_ ih
      cases tree with
      | create creation => exact (List.mem_filter.mp isChild).1
      | _ => exact isChild

/-- A null is its only node. -/
theorem eq_of_occurs_null {node tree : Tree} (null : tree.isNull = true)
    (occurs : node.Occurs tree) : node = tree := by
  unfold isNull at null
  split at null
  · cases occurs with
    | root => rfl
    | inChild isChild => exact absurd isChild List.not_mem_nil
  · cases null

theorem owners_null {tree : Tree} (null : tree.isNull = true) : tree.owners = [] := by
  unfold isNull at null
  split at null
  · rfl
  · cases null

end Tree

namespace Closure

/-! ## Types that anchors account for -/

/-- A core type, the type of one of the anchors, or a type above one of them. -/
def Reaches (catalog : Catalog) (anchors : List Anchor) (type : TypeId) : Prop :=
  type.isCore = true ∨ ∃ anchor ∈ anchors, type = anchor.type ∨ catalog.IsAbove anchor.type type

/-- The anchors account for a type that declares something: for its innermost element, or,
if it is an array type, for the type as it stands. -/
def ReachesOwner (catalog : Catalog) (anchors : List Anchor) (owner : TypeId) : Prop :=
  Reaches catalog anchors (catalog.innermost owner) ∨
    ((catalog.element? owner).isSome = true ∧ Reaches catalog anchors owner)

/-- The anchors account for the types of the nodes of a tree and for all their owners. -/
structure Complete (catalog : Catalog) (anchors : List Anchor) (tree : Tree) : Prop where
  types : ∀ node : Tree, node.Counts tree → Reaches catalog anchors (catalog.innermost node.type)
  owners : ∀ node : Tree, node.Counts tree → ∀ owner ∈ node.owners,
    ReachesOwner catalog anchors owner

section Reaching

variable {catalog : Catalog} {anchors : List Anchor} {type : TypeId}

theorem innermost_eq_self (noArray : catalog.element? type = none) :
    catalog.innermost type = type := by
  rw [Catalog.innermost, noArray]

theorem innermost_of_element? (ordered : catalog.Ordered) {element : TypeId}
    (isElement : catalog.element? type = some element) :
    catalog.innermost type = catalog.innermost element := by
  rw [Catalog.innermost, isElement]
  dsimp only
  rw [if_pos (ordered.element_lt isElement)]

theorem standsFor_innermost (ordered : catalog.Ordered) (type : TypeId) :
    catalog.StandsFor type (catalog.innermost type) := by
  induction measure : type.height using Nat.strongRecOn generalizing type with
  | _ height ih =>
      cases isArray : catalog.element? type with
      | none =>
          rw [innermost_eq_self isArray]
          exact .itself isArray
      | some element =>
          rw [innermost_of_element? ordered isArray]
          exact .element isArray (ih _ (measure ▸ ordered.element_lt isArray) element rfl)

theorem reaches_core (isReached : catalog.Reached) (core : type.isCore = true) :
    Reaches catalog anchors (catalog.innermost type) := by
  rw [innermost_eq_self (isReached.element?_of_isCore core)]
  exact .inl core

/-- What a node contributes is accounted for by its anchors. -/
theorem reaches_of_mem_contributions (ordered : catalog.Ordered) {tree : Tree} {isDirect : Bool}
    (within : tree.anchors catalog ⊆ anchors)
    (made : ⟨type, isDirect⟩ ∈ tree.contributions catalog) :
    Reaches catalog anchors (catalog.innermost type) := by
  refine .inr ⟨⟨catalog.innermost type, isDirect⟩, within ?_, .inl rfl⟩
  refine (Tree.mem_anchors_cases tree).mpr (.inl (List.mem_flatMap.mpr ⟨_, made, ?_⟩))
  exact mem_anchorsOf.mpr
    ⟨(Catalog.mem_mentioned_iff ordered).mpr (standsFor_innermost ordered type), rfl⟩

theorem within_child {tree child : Tree} (within : tree.anchors catalog ⊆ anchors)
    (isChild : child ∈ tree.children) : child.anchors catalog ⊆ anchors :=
  fun _ inside => within ((Tree.mem_anchors_cases tree).mpr (.inr ⟨child, isChild, inside⟩))

/-- The base type of a type that is accounted for is accounted for. -/
theorem Reaches.base (isReached : catalog.Reached) (reached : Reaches catalog anchors type)
    {base : TypeId} (isBase : catalog.base? type = some base) : Reaches catalog anchors base := by
  rcases reached with core | ⟨anchor, isAnchor, isType⟩
  · exact .inl (isReached.isCore_of_base? core isBase)
  · by_cases root : base = CoreType.object
    · exact .inl (root ▸ rfl)
    · have step : catalog.StepsUp type base := .base isBase root
      rcases isType with rfl | isAbove
      · exact .inr ⟨anchor, isAnchor, .inr (.single step)⟩
      · exact .inr ⟨anchor, isAnchor, .inr (isAbove.tail step)⟩

theorem Reaches.baseChain (isReached : catalog.Reached) (reached : Reaches catalog anchors type)
    {ancestor : TypeId} (above : ancestor ∈ catalog.baseChain type) :
    Reaches catalog anchors ancestor := by
  induction measure : type.height using Nat.strongRecOn generalizing type with
  | _ height ih =>
      rw [Catalog.baseChain] at above
      rcases List.mem_cons.mp above with rfl | further
      · exact reached
      · split at further
        · rename_i base isBase
          split at further
          · rename_i older
            exact ih _ (measure ▸ older) (reached.base isReached isBase) further rfl
          · exact absurd further List.not_mem_nil
        · exact absurd further List.not_mem_nil

/-- What is declared along the base types of a type that is accounted for has an owner that
is accounted for. -/
theorem reachesOwner_of_mem_baseChain (isReached : catalog.Reached)
    (derived : catalog.ArraysAreDerived)
    (reached : Reaches catalog anchors (catalog.innermost type)) {owner : TypeId}
    (above : owner ∈ catalog.baseChain type) : ReachesOwner catalog anchors owner := by
  have asItself (isOwner : Reaches catalog anchors owner) : ReachesOwner catalog anchors owner := by
    cases isArray : catalog.element? owner with
    | none => exact .inl (by rwa [innermost_eq_self isArray])
    | some element => exact .inr ⟨by rw [isArray]; rfl, isOwner⟩
  cases isArray : catalog.element? type with
  | none =>
      rw [innermost_eq_self isArray] at reached
      exact asItself (reached.baseChain isReached above)
  | some element =>
      rw [Catalog.baseChain, derived type element isArray] at above
      rcases List.mem_cons.mp above with rfl | further
      · exact .inl reached
      · -- above an array type are core types only
        dsimp only at further
        split at further
        · exact asItself ((show Reaches catalog anchors CoreType.array from .inl rfl).baseChain
            isReached further)
        · exact absurd further List.not_mem_nil

end Reaching

/-! ## Putting trees together -/

section Trees

variable {catalog : Catalog} {anchors : List Anchor}

/-- A tree is accounted for if its own node is and the trees below that count are. -/
theorem complete_of_parts {tree : Tree}
    (type : Reaches catalog anchors (catalog.innermost tree.type))
    (owners : ∀ owner ∈ tree.owners, ReachesOwner catalog anchors owner)
    (children : ∀ child ∈ tree.countedChildren, Complete catalog anchors child) :
    Complete catalog anchors tree where
  types node counts := by
    cases counts with
    | root => exact type
    | inChild isChild inside => exact (children _ isChild).types node inside
  owners node counts := by
    cases counts with
    | root => exact owners
    | inChild isChild inside => exact (children _ isChild).owners node inside

theorem Complete.type {tree : Tree} (complete : Complete catalog anchors tree) :
    Reaches catalog anchors (catalog.innermost tree.type) :=
  complete.types tree .root

/-! ## Conversions -/

theorem complete_null {type : TypeId} (reached : Reaches catalog anchors (catalog.innermost type)) :
    Complete catalog anchors (.constant .null type) :=
  complete_of_parts reached (List.forall_mem_nil _) (List.forall_mem_nil _)

theorem complete_convert (ordered : catalog.Ordered) {tree : Tree} {target : TypeId}
    {kind : ConvertKind} (within : (Tree.convert kind tree target).anchors catalog ⊆ anchors)
    (complete : Complete catalog anchors tree) :
    Complete catalog anchors (.convert kind tree target) :=
  complete_of_parts (reaches_of_mem_contributions ordered within List.mem_cons_self)
    (List.forall_mem_nil _) (List.forall_mem_singleton.mpr complete)

/-- A tree that is accounted for as soon as all its anchors are given. If it is a null, its
type is a core type. -/
structure Completes (catalog : Catalog) (anchors : List Anchor) (tree : Tree) : Prop where
  complete : tree.anchors catalog ⊆ anchors → Complete catalog anchors tree
  core : tree.isNull = true → tree.type.isCore = true

/-- A converted tree is accounted for if, should it be a null, the type asked for is. -/
theorem Completes.of_convertsTo (ordered : catalog.Ordered) {tree converted : Tree}
    {target : TypeId} (part : Completes catalog anchors tree)
    (converts : tree.ConvertsTo target converted)
    (within : converted.anchors catalog ⊆ anchors)
    (reached : converted.isNull = true → Reaches catalog anchors (catalog.innermost target)) :
    Complete catalog anchors converted := by
  cases converts with
  | same => exact part.complete within
  | null => exact complete_null (reached rfl)
  | convert =>
      exact complete_convert ordered within (part.complete (within_child within List.mem_cons_self))

theorem Completes.of_widensTo (ordered : catalog.Ordered) {tree wider : Tree}
    (part : Completes catalog anchors tree) (widens : tree.WidensTo wider)
    (within : wider.anchors catalog ⊆ anchors) : Complete catalog anchors wider := by
  cases widens with
  | same => exact part.complete within
  | convert target =>
      exact complete_convert ordered within (part.complete (within_child within List.mem_cons_self))

/-- The type that a tree has already is accounted for if the converted tree is. -/
theorem Completes.reaches_of_convertsTo (isReached : catalog.Reached) {tree converted : Tree}
    (part : Completes catalog anchors tree) (converts : tree.ConvertsTo tree.type converted)
    (within : converted.anchors catalog ⊆ anchors) :
    Reaches catalog anchors (catalog.innermost tree.type) := by
  cases converts with
  | same => exact (part.complete within).type
  | null isNull => exact reaches_core isReached (part.core isNull)
  | convert => exact reaches_of_mem_contributions isReached.ordered within List.mem_cons_self

/-- Arguments that are converted to types that are accounted for. -/
theorem complete_of_allConvert (ordered : catalog.Ordered) {trees converted : List Tree}
    {targets : List TypeId} (parts : ∀ tree ∈ trees, Completes catalog anchors tree)
    (fitting : AllConvert trees targets converted)
    (reached : ∀ target ∈ targets, Reaches catalog anchors (catalog.innermost target))
    {result : Tree} (isResult : result ∈ converted) (within : result.anchors catalog ⊆ anchors) :
    Complete catalog anchors result := by
  obtain ⟨tree, isTree, target, isTarget, converts⟩ := fitting.sources result isResult
  exact (parts tree isTree).of_convertsTo ordered converts within fun _ => reached target isTarget

end Trees

/-! ## Every form of expression -/

section Bound

open Binding Surface

variable {context : Context} {anchors : List Anchor}

theorem isCore_of_isNumeric {type : TypeId} (numeric : type.isNumeric = true) :
    type.isCore = true := by
  simp only [TypeId.isNumeric, Bool.or_eq_true, decide_eq_true_eq] at numeric
  rcases numeric with (rfl | rfl) | rfl <;> rfl

theorem isCore_literalTree (value : Constant) : (literalTree value).type.isCore = true := by
  cases value with
  | integer value =>
      dsimp only [literalTree]
      split <;> rfl
  | _ => rfl

variable (isReached : context.catalog.Reached)
include isReached

theorem completes_literalTree (value : Constant) :
    Completes context.catalog anchors (literalTree value) where
  complete _ := by
    refine complete_of_parts (reaches_core isReached (isCore_literalTree value)) ?_ ?_
    · cases value <;> exact List.forall_mem_nil _
    · cases value <;> exact List.forall_mem_nil _
  core _ := isCore_literalTree value

/-- A call of a method that is declared along the base types of the receiver. -/
theorem complete_call (derived : context.catalog.ArraysAreDerived) {receiver : Tree}
    {method : Method} {arguments converted : List Tree}
    (isReceiver : Completes context.catalog anchors receiver)
    (areArguments : ∀ argument ∈ arguments, Completes context.catalog anchors argument)
    {name : String} (found : method ∈ context.catalog.findMethods receiver.type name)
    (fitting : AllConvert arguments method.parameters converted)
    (within : (Tree.call receiver method converted method.returnType).anchors context.catalog ⊆
      anchors) :
    Complete context.catalog anchors (.call receiver method converted method.returnType) := by
  have below := isReceiver.complete (within_child within List.mem_cons_self)
  have declared := declaresMethod_of_mem_findMethods isReached.owned found
  have signature (type : TypeId) (isParameter : type ∈ method.parameters) :=
    reaches_of_mem_contributions isReached.ordered within
      (Tree.mem_contributions_of_contributes (.inl (.signature receiver converted _ isParameter)))
  refine complete_of_parts ?_ (List.forall_mem_singleton.mpr ?_)
    (List.forall_mem_cons.mpr ⟨below, fun argument isArgument => ?_⟩)
  · exact reaches_of_mem_contributions isReached.ordered within
      (Tree.mem_contributions_of_contributes (.inr (.result receiver method converted _)))
  · exact reachesOwner_of_mem_baseChain isReached derived below.type declared.1
  · exact complete_of_allConvert isReached.ordered areArguments fitting signature isArgument
      (within_child within (List.mem_cons_of_mem _ isArgument))

theorem complete_staticCall {method : Method} {arguments converted : List Tree}
    (areArguments : ∀ argument ∈ arguments, Completes context.catalog anchors argument)
    (fitting : AllConvert arguments method.parameters converted)
    (within : (Tree.staticCall method converted method.returnType).anchors context.catalog ⊆
      anchors) :
    Complete context.catalog anchors (.staticCall method converted method.returnType) := by
  have signature (type : TypeId) (isParameter : type ∈ method.parameters) :=
    reaches_of_mem_contributions isReached.ordered within
      (Tree.mem_contributions_of_contributes (.inl (.staticSignature converted _ isParameter)))
  refine complete_of_parts ?_ (List.forall_mem_singleton.mpr (.inl ?_))
    fun argument isArgument => ?_
  · exact reaches_of_mem_contributions isReached.ordered within
      (Tree.mem_contributions_of_contributes (.inr (.staticResult method converted _)))
  · exact reaches_of_mem_contributions isReached.ordered within
      (Tree.mem_contributions_of_contributes (.inl (.staticMethod method converted _)))
  · exact complete_of_allConvert isReached.ordered areArguments fitting signature isArgument
      (within_child within isArgument)

/-- A creation, whose nulls do not count: nothing is known of the types of parameters. -/
theorem complete_create {type : TypeId} {constructor : Option Constructor}
    {arguments converted : List Tree} {parameters : List TypeId}
    (areArguments : ∀ argument ∈ arguments, Completes context.catalog anchors argument)
    (own : ∀ made ∈ constructor, made.declaringType = type)
    (fitting : AllConvert arguments parameters converted)
    (within : (Tree.create (.of constructor converted type)).anchors context.catalog ⊆ anchors) :
    Complete context.catalog anchors (.create (.of constructor converted type)) := by
  have reached : Reaches context.catalog anchors (context.catalog.innermost type) := by
    have contributed : ⟨type, true⟩ ∈
        (Tree.create (.of constructor converted type)).contributions context.catalog :=
      List.mem_singleton.mpr (by rw [Creation.namedType_of_own own])
    exact reaches_of_mem_contributions isReached.ordered within contributed
  refine complete_of_parts reached ?_ fun argument counted => ?_
  · intro owner isOwner
    cases constructor with
    | none => exact absurd isOwner List.not_mem_nil
    | some made =>
        obtain rfl : owner = made.declaringType := List.mem_singleton.mp isOwner
        rw [own made rfl]
        exact .inl reached
  · obtain ⟨isArgument, notNull⟩ := List.mem_filter.mp counted
    obtain ⟨tree, isTree, target, _, converts⟩ := fitting.sources argument isArgument
    refine (areArguments tree isTree).of_convertsTo isReached.ordered converts
      (within_child within isArgument) fun null => ?_
    rw [null] at notNull
    cases notNull

/-- A conditional, whose type is that of one of its branches. -/
theorem complete_conditional {truth first second convertedTruth convertedFirst
      convertedSecond : Tree} {type : TypeId}
    (isTruth : Completes context.catalog anchors truth)
    (isFirst : Completes context.catalog anchors first)
    (isSecond : Completes context.catalog anchors second)
    (convertsTruth : truth.ConvertsTo CoreType.boolean convertedTruth)
    (isBranch : type = first.type ∨ type = second.type)
    (convertsFirst : first.ConvertsTo type convertedFirst)
    (convertsSecond : second.ConvertsTo type convertedSecond)
    (within : (Tree.conditional convertedTruth convertedFirst convertedSecond type).anchors
      context.catalog ⊆ anchors) :
    Complete context.catalog anchors
      (.conditional convertedTruth convertedFirst convertedSecond type) := by
  have withinTruth := within_child within List.mem_cons_self
  have withinFirst := within_child within (List.mem_cons_of_mem _ List.mem_cons_self)
  have withinSecond := within_child within
    (List.mem_cons_of_mem _ (List.mem_cons_of_mem _ List.mem_cons_self))
  have reached : Reaches context.catalog anchors (context.catalog.innermost type) := by
    rcases isBranch with rfl | rfl
    · exact isFirst.reaches_of_convertsTo isReached convertsFirst withinFirst
    · exact isSecond.reaches_of_convertsTo isReached convertsSecond withinSecond
  refine complete_of_parts reached (List.forall_mem_nil _) (List.forall_mem_cons.mpr
    ⟨?_, List.forall_mem_cons.mpr ⟨?_, List.forall_mem_singleton.mpr ?_⟩⟩)
  · exact isTruth.of_convertsTo isReached.ordered convertsTruth withinTruth fun _ =>
      reaches_core isReached rfl
  · exact isFirst.of_convertsTo isReached.ordered convertsFirst withinFirst fun _ => reached
  · exact isSecond.of_convertsTo isReached.ordered convertsSecond withinSecond fun _ => reached

/-- An element of an array, which has the innermost element of the array. -/
theorem complete_element {array : Tree} {element : TypeId} {indexes converted : List Tree}
    (isArray : Completes context.catalog anchors array)
    (areIndexes : ∀ index ∈ indexes, Completes context.catalog anchors index)
    (isElement : context.catalog.element? array.type = some element)
    (fitting : AllConvert indexes [CoreType.int32] converted)
    (within : (Tree.arrayIndex array converted element).anchors context.catalog ⊆ anchors) :
    Complete context.catalog anchors (.arrayIndex array converted element) := by
  have below := isArray.complete (within_child within List.mem_cons_self)
  refine complete_of_parts ?_ (List.forall_mem_nil _)
    (List.forall_mem_cons.mpr ⟨below, fun index isIndex => ?_⟩)
  · exact innermost_of_element? isReached.ordered isElement ▸ below.type
  · exact complete_of_allConvert isReached.ordered areIndexes fitting
      (List.forall_mem_singleton.mpr (reaches_core isReached rfl)) isIndex
      (within_child within (List.mem_cons_of_mem _ isIndex))

/-- A new array, whose element type is an anchor. -/
theorem complete_newArray {element array : TypeId} {items converted : List Tree}
    (areItems : ∀ item ∈ items, Completes context.catalog anchors item)
    (isArray : context.catalog.findArray? element 1 = some array)
    (fitting : AllConvert items [element] converted)
    (within : (Tree.newArray .elements converted array).anchors context.catalog ⊆ anchors) :
    Complete context.catalog anchors (.newArray .elements converted array) := by
  have isElement := (isReached.interned.array _ _ _ isArray).element?
  have reached := reaches_of_mem_contributions isReached.ordered within
    (Tree.mem_contributions_of_contributes (.inr (.elements _ _ isElement)))
  refine complete_of_parts ?_ (List.forall_mem_nil _) fun item isItem => ?_
  · exact innermost_of_element? isReached.ordered isElement ▸ reached
  · exact complete_of_allConvert isReached.ordered areItems fitting
      (List.forall_mem_singleton.mpr reached) isItem (within_child within isItem)

/-- An operation on two values, whose result is a number or a truth value. -/
theorem complete_binary {op : BinaryOp} {first second widerFirst widerSecond : Tree}
    {type : TypeId} (isFirst : Completes context.catalog anchors first)
    (isSecond : Completes context.catalog anchors second)
    (widensFirst : first.WidensTo widerFirst) (widensSecond : second.WidensTo widerSecond)
    (isResult : type.isNumeric = true ∨ type = CoreType.boolean)
    (within : (Tree.binary op widerFirst widerSecond type).anchors context.catalog ⊆ anchors) :
    Complete context.catalog anchors (.binary op widerFirst widerSecond type) := by
  refine complete_of_parts ?_ (List.forall_mem_nil _)
    (List.forall_mem_cons.mpr ⟨?_, List.forall_mem_singleton.mpr ?_⟩)
  · rcases isResult with numeric | rfl
    · exact reaches_core isReached (isCore_of_isNumeric numeric)
    · exact reaches_core isReached rfl
  · exact isFirst.of_widensTo isReached.ordered widensFirst
      (within_child within List.mem_cons_self)
  · exact isSecond.of_widensTo isReached.ordered widensSecond
      (within_child within (List.mem_cons_of_mem _ List.mem_cons_self))

/-- **One node is accounted for if what it is put together from is.** -/
theorem completes_of_assembles (derived : context.catalog.ArraysAreDerived)
    {expression : Expression} {parts : List Tree} {tree : Tree}
    (assembles : Assembles context expression parts tree)
    (areParts : ∀ part ∈ parts, Completes context.catalog anchors part) :
    Completes context.catalog anchors tree := by
  cases assembles with
  | literal value span => exact completes_literalTree isReached value
  | identifier span bound =>
      refine ⟨fun within => ?_, nofun⟩
      exact complete_of_parts
        (reaches_of_mem_contributions isReached.ordered within List.mem_cons_self)
        (List.forall_mem_nil _) (List.forall_mem_nil _)
  | member span isValue found =>
      refine ⟨fun within => ?_, nofun⟩
      have isReceiver := List.forall_mem_singleton.mp areParts
      have below := isReceiver.complete (within_child within List.mem_cons_self)
      have declared := declaresMember_of_findMember? isReached.owned found
      exact complete_of_parts
        (reaches_of_mem_contributions isReached.ordered within List.mem_cons_self)
        (List.forall_mem_singleton.mpr
          (reachesOwner_of_mem_baseChain isReached derived below.type declared.1))
        (List.forall_mem_singleton.mpr below)
  | staticMember span isType found isStatic =>
      refine ⟨fun within => ?_, nofun⟩
      exact complete_of_parts
        (reaches_of_mem_contributions isReached.ordered within
          (List.mem_cons_of_mem _ List.mem_cons_self))
        (List.forall_mem_singleton.mpr (.inl
          (reaches_of_mem_contributions isReached.ordered within List.mem_cons_self)))
        (List.forall_mem_nil _)
  | call span isValue found fitting =>
      obtain ⟨isReceiver, areArguments⟩ := List.forall_mem_cons.mp areParts
      exact ⟨complete_call isReached derived isReceiver areArguments found fitting, nofun⟩
  | staticCall span isType found isStatic fitting =>
      exact ⟨complete_staticCall isReached areParts fitting, nofun⟩
  | element span isArray fitting =>
      obtain ⟨isReceiver, areArguments⟩ := List.forall_mem_cons.mp areParts
      exact ⟨complete_element isReached isReceiver areArguments isArray fitting, nofun⟩
  | indexer span found fitting =>
      obtain ⟨isReceiver, areArguments⟩ := List.forall_mem_cons.mp areParts
      exact ⟨complete_call isReached derived isReceiver areArguments found fitting, nofun⟩
  | create span resolved own fitting =>
      exact ⟨complete_create isReached areParts own fitting, nofun⟩
  | createArray span resolved isArray fitting =>
      exact ⟨complete_newArray isReached areParts isArray fitting, nofun⟩
  | typeOf span resolved =>
      refine ⟨fun _ => ?_, nofun⟩
      exact complete_of_parts (reaches_core isReached rfl) (List.forall_mem_nil _)
        (List.forall_mem_nil _)
  | typeIs span resolved =>
      refine ⟨fun within => ?_, nofun⟩
      have below := (List.forall_mem_singleton.mp areParts).complete
        (within_child within List.mem_cons_self)
      exact complete_of_parts (reaches_core isReached rfl) (List.forall_mem_nil _)
        (List.forall_mem_singleton.mpr below)
  | typeAs span resolved =>
      refine ⟨fun within => ?_, nofun⟩
      have isOperand := List.forall_mem_singleton.mp areParts
      exact complete_convert isReached.ordered within
        (isOperand.complete (within_child within List.mem_cons_self))
  | unary op span =>
      refine ⟨fun within => ?_, nofun⟩
      have below := (List.forall_mem_singleton.mp areParts).complete
        (within_child within List.mem_cons_self)
      exact complete_of_parts below.type (List.forall_mem_nil _)
        (List.forall_mem_singleton.mpr below)
  | concatenation span fitting => exact ⟨complete_staticCall isReached areParts fitting, nofun⟩
  | binary op span widensFirst widensSecond isResult =>
      obtain ⟨isFirst, others⟩ := List.forall_mem_cons.mp areParts
      have isSecond := List.forall_mem_singleton.mp others
      exact ⟨complete_binary isReached isFirst isSecond widensFirst widensSecond isResult, nofun⟩
  | conditional span convertsTruth isBranch convertsFirst convertsSecond =>
      obtain ⟨isTruth, others⟩ := List.forall_mem_cons.mp areParts
      obtain ⟨isFirst, others⟩ := List.forall_mem_cons.mp others
      have isSecond := List.forall_mem_singleton.mp others
      exact ⟨complete_conditional isReached isTruth isFirst isSecond convertsTruth isBranch
        convertsFirst convertsSecond, nofun⟩
  | assign span converts =>
      obtain ⟨isPlace, others⟩ := List.forall_mem_cons.mp areParts
      have isGiven := List.forall_mem_singleton.mp others
      refine ⟨fun within => ?_, nofun⟩
      have place := isPlace.complete (within_child within List.mem_cons_self)
      have given := isGiven.of_convertsTo isReached.ordered converts
        (within_child within (List.mem_cons_of_mem _ List.mem_cons_self)) fun _ => place.type
      exact complete_of_parts place.type (List.forall_mem_nil _)
        (List.forall_mem_cons.mpr ⟨place, List.forall_mem_singleton.mpr given⟩)

/-- What is bound is accounted for by its own anchors. -/
theorem completes_of_bind (derived : context.catalog.ArraysAreDerived)
    {expression : Expression} {tree : Tree}
    (done : bind context expression = .ok tree) : Completes context.catalog anchors tree :=
  bound_induction isReached.owned (completes_of_assembles isReached derived) done

end Bound

/-! ## What is collected for a text -/

section Collected

variable {catalog : Catalog} {defaults : DefaultAssemblies}

/-- What the anchors of a tree reach is collected, unless a default assembly defines it. -/
theorem accounts_of_reaches (isReached : catalog.Reached)
    (withCore : defaults.contains coreAssemblyName = true) {tree : Tree} {type : TypeId}
    (reached : Reaches catalog (tree.anchors catalog) type) : tree.Accounts catalog defaults type := by
  rcases reached with core | ⟨⟨anchor, isDirect⟩, isAnchor, isType⟩
  · exact .inr (isReached.defines_of_isCore core withCore)
  · cases defined : defaults.defines catalog type with
    | true => exact .inr defined
    | false =>
        refine .inl ((mem_addAnchors_iff isReached.ordered defaults (tree.anchors catalog) type).mpr
          ⟨anchor, isDirect, isAnchor, ?_⟩)
        exact isType.imp (⟨·, .inr defined⟩) (⟨defined, ·⟩)

/-- The declaring type of something that is invoked is accounted for: its innermost element
is, or it is an array type and is so itself. -/
def AccountsOwner (catalog : Catalog) (defaults : DefaultAssemblies) (tree : Tree)
    (owner : TypeId) : Prop :=
  tree.Accounts catalog defaults (catalog.innermost owner) ∨
    ((catalog.element? owner).isSome = true ∧ tree.Accounts catalog defaults owner)

/-- **The types of a compiled text.** The type of every node, and of the owner of whatever
is invoked, is collected or defined by default. Apart from that are only the nulls that a
constructor is given, and a text that is nothing but a null and is compiled for a target. -/
theorem types_accounted {recompiler : Recompiler} (surface : recompiler.IsSurface)
    (isReached : recompiler.catalog.Reached) (derived : recompiler.catalog.ArraysAreDerived)
    (withCore : recompiler.defaults.contains coreAssemblyName = true) {request : Request}
    {compiled : Compiled} (done : recompiler.compile request = .ok compiled) :
    compiled.returnType = compiled.body.type ∧
      ∀ node : Tree, node.Counts compiled.body →
        (compiled.body.Accounts recompiler.catalog recompiler.defaults
            (recompiler.catalog.innermost node.type) ∨
          (node = compiled.body ∧ node.isNull = true ∧ request.target.isSome = true)) ∧
        ∀ owner ∈ node.owners,
          AccountsOwner recompiler.catalog recompiler.defaults compiled.body owner := by
  obtain ⟨expression, tree, _, bound, typed, retargeted⟩ :=
    Recompiler.exists_bound_of_compile surface done
  have part : Completes recompiler.catalog (compiled.body.anchors recompiler.catalog) tree := by
    have inContext : (recompiler.context request).catalog.Reached := isReached
    exact completes_of_bind inContext derived bound
  refine ⟨typed, fun node counts => ?_⟩
  have collected : Complete recompiler.catalog (compiled.body.anchors recompiler.catalog)
        compiled.body ∨ (compiled.body.isNull = true ∧ request.target.isSome = true) := by
    rcases retargeted with same | ⟨target, isTarget, converts⟩
    · exact .inl (same ▸ part.complete (same ▸ List.Subset.refl _))
    · cases isNull : compiled.body.isNull with
      | true => exact .inr ⟨rfl, by rw [isTarget]; rfl⟩
      | false =>
          refine .inl (part.of_convertsTo isReached.ordered converts (List.Subset.refl _) ?_)
          rw [isNull]
          nofun
  rcases collected with complete | ⟨isNull, targeted⟩
  · refine ⟨.inl (accounts_of_reaches isReached withCore (complete.types node counts)), ?_⟩
    intro owner isOwner
    exact (complete.owners node counts owner isOwner).imp (accounts_of_reaches isReached withCore)
      (And.imp_right (accounts_of_reaches isReached withCore))
  · obtain rfl := Tree.eq_of_occurs_null isNull counts.occurs
    exact ⟨.inr ⟨rfl, isNull, targeted⟩, Tree.owners_null isNull ▸ List.forall_mem_nil _⟩

end Collected

end Closure

namespace Sales

open Binding Surface

/-- The request to compile the creation of an order that follows no other one. -/
def creation : Request :=
  { text := "new Contoso.Sales.Order(null)", language := SurfaceCompiler.language }

def creationContext : Context := recompiler.context creation

/-- What the text is read as. -/
def creationRead : Expression :=
  .create ⟨"Contoso.Sales.Order", ⟨4, 19⟩⟩ [.literal .null ⟨24, 4⟩] ⟨0, 29⟩

/-- What the text compiles to. The null has the type of the parameter. -/
def creationCompiled : Compiled :=
  { parameters := []
    body := .create (.of (some ⟨order, [coreOrder]⟩) [.constant .null coreOrder] order)
    returnType := order }

theorem bind_creation : bind creationContext creationRead = .ok creationCompiled.body := by
  have resolved : creationContext.resolve ⟨"Contoso.Sales.Order", ⟨4, 19⟩⟩ = .ok order :=
    Context.resolve_eq_ok_iff.mpr ⟨by decide +kernel, by decide +kernel⟩
  have arguments : bindAll creationContext [.literal .null ⟨24, 4⟩] =
      .ok [.constant .null CoreType.object] := rfl
  have creatable : canBeCreated creationContext.catalog order = true := by decide +kernel
  have declared : creationContext.catalog.constructors order = [⟨order, [coreOrder]⟩] := by
    decide +kernel
  have reference : creationContext.catalog.isValueType coreOrder = false := by decide +kernel
  have converted : creationContext.catalog.convertAll? [.constant .null CoreType.object]
      [coreOrder] = some [.constant .null coreOrder] := by
    simp only [Catalog.convertAll?, Tree.convert?, Tree.isNull, reference]
    rfl
  rw [creationRead, Binding.bind, resolved, arguments]
  simp only [Bind.bind, Except.bind, bindCreation, creatable, declared, List.findSome?_cons,
    converted]
  rfl

theorem compile_creation : recompiler.compile creation = .ok creationCompiled := by
  have isRead : SurfaceCompiler.read creation.session = .ok creationRead := by
    with_unfolding_all rfl
  refine (Recompiler.compile_eq_ok_iff isSurface_recompiler rfl).mpr ⟨creationRead, isRead, ?_⟩
  exact compile_of_bind bind_creation

/-- The type of the parameter is neither collected nor defined by default. -/
theorem not_accounts_coreOrder : ¬ creationCompiled.body.Accounts catalog .builtin coreOrder := by
  have collected : creationCompiled.body.typeReferences catalog .builtin = [order, entity] := by
    decide +kernel
  have foreign : DefaultAssemblies.builtin.defines catalog coreOrder = false := by decide +kernel
  have absent : coreOrder ∉ [order, entity] := by decide
  rintro (inside | defined)
  · exact absent (collected ▸ inside)
  · rw [foreign] at defined
    cases defined

end Sales

namespace Closure

/-- An order that is created from a null is accounted for, and the type of the null is not,
though a node of the tree has it. -/
theorem order_accounted :
    Sales.recompiler.compile Sales.creation = .ok Sales.creationCompiled ∧
      Sales.creationCompiled.body.Accounts Sales.catalog .builtin
        (Sales.catalog.innermost Sales.order) ∧
      (Tree.constant .null Sales.coreOrder).Occurs Sales.creationCompiled.body ∧
      ¬ Sales.creationCompiled.body.Accounts Sales.catalog .builtin Sales.coreOrder := by
  have accounted := (types_accounted Sales.isSurface_recompiler Sales.built_catalog.reached
    Sales.built_catalog.arraysAreDerived (by decide) Sales.compile_creation).2 _ .root
  refine ⟨Sales.compile_creation, accounted.1.resolve_right ?_,
    .inChild List.mem_cons_self .root, Sales.not_accounts_coreOrder⟩
  rintro ⟨_, isNull, _⟩
  cases isNull

end Closure

end ExprImports
