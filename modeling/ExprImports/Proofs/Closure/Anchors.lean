import ExprImports.Closure
import ExprImports.Proofs.Catalog.Growth
import ExprImports.Proofs.Nodes
import Mathlib.Data.List.Basic

/-!
# Where the anchors of a tree come from

Every node mentions types, and calls and creations of arrays produce values of a type
besides. A mention of a type stands for the innermost element of an array, and for the
arguments but the first of a closed instantiation.

**Anchors.** The anchors of a tree are the types that the mentions and products of
its nodes stand for, wherever the nodes occur (`Tree.mem_anchors_iff`).
-/

set_option autoImplicit false

namespace ExprImports

/-! ## What a node contributes -/

/-- The type that a creation names: that of the constructor, or else its own. -/
def Creation.namedType : Creation → TypeId
  | .of constructor _ type => (constructor.map (·.declaringType)).getD type

namespace Tree

/-- The types that a node mentions, each with whether the text needs it there. -/
inductive Mentions (catalog : Catalog) : Tree → TypeId → Bool → Prop where
  | typeConstant (value type : TypeId) :
      Mentions catalog (.constant (.type value) type) value true
  | literal (value : Literal) (runtimeType type : TypeId) :
      Mentions catalog (.constant (.literal value runtimeType) type) runtimeType true
  | parameter (bound : Variable) : Mentions catalog (.parameter bound) bound.type false
  | lambdaParameter {parameters : List Variable} {bound : Variable} (body : Tree) (type : TypeId)
      (isParameter : bound ∈ parameters) :
      Mentions catalog (.lambda parameters body type) bound.type false
  | blockVariable {locals : List Variable} {bound : Variable} (body : List Tree) (type : TypeId)
      (isLocal : bound ∈ locals) : Mentions catalog (.block locals body type) bound.type false
  | memberAccess (receiver : Tree) (member : Member) (type : TypeId) :
      Mentions catalog (.memberAccess receiver member type) type false
  | staticAccess (member : Member) (type : TypeId) :
      Mentions catalog (.staticAccess member type) type false
  | staticMember (member : Member) (type : TypeId) :
      Mentions catalog (.staticAccess member type) member.declaringType true
  | staticMethod (method : Method) (arguments : List Tree) (type : TypeId) :
      Mentions catalog (.staticCall method arguments type) method.declaringType true
  | signature {method : Method} {parameter : TypeId} (receiver : Tree) (arguments : List Tree)
      (type : TypeId) (isParameter : parameter ∈ method.parameters) :
      Mentions catalog (.call receiver method arguments type) parameter false
  | staticSignature {method : Method} {parameter : TypeId} (arguments : List Tree)
      (type : TypeId) (isParameter : parameter ∈ method.parameters) :
      Mentions catalog (.staticCall method arguments type) parameter false
  | typeArgument {method : Method} {argument : TypeId} (receiver : Tree) (arguments : List Tree)
      (type : TypeId) (closed : method.isClosedInstantiation catalog = true)
      (isArgument : argument ∈ method.genericArguments.drop 1) :
      Mentions catalog (.call receiver method arguments type) argument false
  | staticTypeArgument {method : Method} {argument : TypeId} (arguments : List Tree)
      (type : TypeId) (closed : method.isClosedInstantiation catalog = true)
      (isArgument : argument ∈ method.genericArguments.drop 1) :
      Mentions catalog (.staticCall method arguments type) argument false
  | create (creation : Creation) : Mentions catalog (.create creation) creation.namedType true
  | listInit (creation : Creation) (initializers : List ElementInit) :
      Mentions catalog (.listInit creation initializers) creation.namedType true
  | memberInit (creation : Creation) (bindings : List MemberBinding) :
      Mentions catalog (.memberInit creation bindings) creation.namedType true
  | typeIs (operand : Tree) (tested type : TypeId) :
      Mentions catalog (.typeIs operand tested type) tested true
  | convert (kind : ConvertKind) (operand : Tree) (type : TypeId) :
      Mentions catalog (.convert kind operand type) type true

/-- The type of what a node produces: the result of a call, which is the type of the node
itself, and the elements of a created array. -/
inductive Produces (catalog : Catalog) : Tree → TypeId → Bool → Prop where
  | result (receiver : Tree) (method : Method) (arguments : List Tree) (type : TypeId) :
      Produces catalog (.call receiver method arguments type) type false
  | staticResult (method : Method) (arguments : List Tree) (type : TypeId) :
      Produces catalog (.staticCall method arguments type) type false
  | elements {type element : TypeId} (kind : NewArrayKind) (items : List Tree)
      (isArray : catalog.element? type = some element) :
      Produces catalog (.newArray kind items type) element true

/-- The types that a node contributes: those it mentions and those it produces. -/
def Contributes (catalog : Catalog) (node : Tree) (type : TypeId) (isDirect : Bool) : Prop :=
  Mentions catalog node type isDirect ∨ Produces catalog node type isDirect

end Tree

/-- The types that a mention of a type stands for. -/
inductive Catalog.StandsFor (catalog : Catalog) : TypeId → TypeId → Prop where
  | element {type element meant : TypeId} (isArray : catalog.element? type = some element)
      (inner : StandsFor catalog element meant) : StandsFor catalog type meant
  | itself {type : TypeId} (noArray : catalog.element? type = none) : StandsFor catalog type type
  | argument {type argument meant : TypeId} (noArray : catalog.element? type = none)
      (closed : catalog.isClosedInstantiation type = true)
      (isArgument : argument ∈ (catalog.genericArguments type).drop 1)
      (inner : StandsFor catalog argument meant) : StandsFor catalog type meant

/-! ## The anchors of parts that stand side by side -/

section Parts

variable {catalog : Catalog} {anchor : Anchor}

theorem mem_anchorsOf {type : TypeId} {isDirect : Bool} :
    anchor ∈ catalog.anchorsOf type isDirect ↔
      anchor.type ∈ catalog.mentioned type ∧ anchor.isDirect = isDirect := by
  obtain ⟨meant, direct⟩ := anchor
  simp only [Catalog.anchorsOf, List.mem_map, Anchor.mk.injEq]
  constructor
  · rintro ⟨_, mentioned, rfl, rfl⟩
    exact ⟨mentioned, rfl⟩
  · rintro ⟨mentioned, rfl⟩
    exact ⟨meant, mentioned, rfl, rfl⟩

theorem mem_treesAnchors {trees : List Tree} :
    anchor ∈ treesAnchors catalog trees ↔ ∃ tree ∈ trees, anchor ∈ tree.anchors catalog := by
  induction trees with
  | nil => simp [treesAnchors]
  | cons tree rest ih => simp [treesAnchors, ih]

theorem mem_initializersAnchors {initializers : List ElementInit} :
    anchor ∈ initializersAnchors catalog initializers ↔
      ∃ tree ∈ initializers.flatMap ElementInit.arguments, anchor ∈ tree.anchors catalog := by
  induction initializers with
  | nil => simp [initializersAnchors]
  | cons initializer rest ih =>
      obtain ⟨addMethod, arguments⟩ := initializer
      simp only [initializersAnchors, List.flatMap_cons, ElementInit.arguments, List.mem_append,
        mem_treesAnchors, ih, or_and_right, exists_or]

mutual

theorem mem_bindingAnchors : (binding : MemberBinding) →
    (anchor ∈ binding.anchors catalog ↔
      ∃ tree ∈ binding.values, anchor ∈ tree.anchors catalog)
  | .assignment _ value => by
      simp only [MemberBinding.anchors, MemberBinding.values, List.mem_singleton, exists_eq_left]
  | .elements _ initializers => by
      rw [MemberBinding.anchors, MemberBinding.values]
      exact mem_initializersAnchors
  | .nested _ bindings => by
      rw [MemberBinding.anchors, MemberBinding.values]
      exact mem_bindingsAnchors bindings

theorem mem_bindingsAnchors : (bindings : List MemberBinding) →
    (anchor ∈ bindingsAnchors catalog bindings ↔
      ∃ tree ∈ bindingsValues bindings, anchor ∈ tree.anchors catalog)
  | [] => by simp [bindingsAnchors, bindingsValues]
  | binding :: rest => by
      simp only [bindingsAnchors, bindingsValues, List.mem_append, mem_bindingAnchors binding,
        mem_bindingsAnchors rest, or_and_right, exists_or]

end

theorem mem_creationAnchors {creation : Creation} :
    anchor ∈ creation.anchors catalog ↔
      anchor ∈ catalog.direct creation.namedType ∨
        ∃ tree ∈ creation.arguments, anchor ∈ tree.anchors catalog := by
  obtain ⟨constructor, arguments, type⟩ := creation
  rw [Creation.anchors, List.mem_append, mem_treesAnchors]
  rfl

end Parts

/-! ## From the list of anchors to the nodes -/

namespace Tree

/-- The types that a call of a method contributes if it has this type, the declaring type of the
method apart. -/
def signatureTypes (catalog : Catalog) (method : Method) (type : TypeId) : List TypeId :=
  type ::
    ((if method.isClosedInstantiation catalog then method.genericArguments.drop 1 else []) ++
      method.parameters)

/-- What a node contributes, as a list. -/
def contributions (catalog : Catalog) : Tree → List Anchor
  | .constant (.type type) _ => [⟨type, true⟩]
  | .constant (.literal _ runtimeType) _ => [⟨runtimeType, true⟩]
  | .lambda parameters _ _ => parameters.map fun bound => ⟨bound.type, false⟩
  | .listInit creation _ => [⟨creation.namedType, true⟩]
  | .parameter bound => [⟨bound.type, false⟩]
  | .memberAccess _ _ type => [⟨type, false⟩]
  | .staticAccess member type => [⟨member.declaringType, true⟩, ⟨type, false⟩]
  | .memberInit creation _ => [⟨creation.namedType, true⟩]
  | .call _ method _ type => (signatureTypes catalog method type).map (⟨·, false⟩)
  | .staticCall method _ type =>
      ⟨method.declaringType, true⟩ :: (signatureTypes catalog method type).map (⟨·, false⟩)
  | .newArray _ _ type => (catalog.element? type).toList.map (⟨·, true⟩)
  | .create creation => [⟨creation.namedType, true⟩]
  | .typeIs _ tested _ => [⟨tested, true⟩]
  | .convert _ _ type => [⟨type, true⟩]
  | .block locals _ _ => locals.map fun bound => ⟨bound.type, false⟩
  | _ => []

theorem mem_signatureAnchors {catalog : Catalog} {method : Method} {result : TypeId}
    {anchor : Anchor} : anchor ∈ catalog.signatureAnchors method result ↔
      ∃ type ∈ signatureTypes catalog method result, anchor ∈ catalog.indirect type := by
  simp only [Catalog.signatureAnchors, signatureTypes, List.mem_append, List.mem_flatMap,
    List.mem_cons, or_and_right, exists_or, exists_eq_left, or_assoc]

/-- The anchors of a tree are those of its contributions and those of its children. -/
theorem mem_anchors_cases {catalog : Catalog} {anchor : Anchor} (tree : Tree) :
    anchor ∈ tree.anchors catalog ↔
      anchor ∈ (tree.contributions catalog).flatMap
          (fun made => catalog.anchorsOf made.type made.isDirect) ∨
        ∃ child ∈ tree.children, anchor ∈ child.anchors catalog := by
  cases tree with
  | constant value type =>
      cases value <;> simp [anchors, contributions, children, Catalog.direct]
  | newArray kind items type =>
      cases element : catalog.element? type <;>
        simp [anchors, contributions, children, Catalog.direct, mem_treesAnchors, element]
  | _ =>
      simp [anchors, contributions, children, Catalog.direct, Catalog.indirect, mem_treesAnchors,
        mem_initializersAnchors, mem_bindingsAnchors, mem_creationAnchors, mem_signatureAnchors,
        List.flatMap_map, or_and_right, exists_or, or_assoc, or_comm, or_left_comm]

theorem mem_contributions_of_contributes {catalog : Catalog} {tree : Tree} {type : TypeId}
    {isDirect : Bool} (contributes : tree.Contributes catalog type isDirect) :
    ⟨type, isDirect⟩ ∈ tree.contributions catalog := by
  rcases contributes with mentions | produces
  · cases mentions with
    | lambdaParameter _ _ isParameter => exact List.mem_map.mpr ⟨_, isParameter, rfl⟩
    | blockVariable _ _ isLocal => exact List.mem_map.mpr ⟨_, isLocal, rfl⟩
    | signature _ _ _ isParameter =>
        exact List.mem_map.mpr ⟨_, by simp [signatureTypes, isParameter], rfl⟩
    | staticSignature _ _ isParameter =>
        refine List.mem_cons_of_mem _ (List.mem_map.mpr ⟨_, ?_, rfl⟩)
        simp [signatureTypes, isParameter]
    | typeArgument _ _ _ closed isArgument =>
        refine List.mem_map.mpr ⟨_, ?_, rfl⟩
        rw [signatureTypes, if_pos closed]
        exact List.mem_cons_of_mem _ (List.mem_append_left _ isArgument)
    | staticTypeArgument _ _ closed isArgument =>
        refine List.mem_cons_of_mem _ (List.mem_map.mpr ⟨_, ?_, rfl⟩)
        rw [signatureTypes, if_pos closed]
        exact List.mem_cons_of_mem _ (List.mem_append_left _ isArgument)
    | _ => simp [contributions]
  · cases produces with
    | elements _ _ isArray => simp [contributions, isArray]
    | _ => simp [contributions, signatureTypes]

/-- The types of a signature are the result, the type arguments that count and the
parameters. -/
theorem mem_signatureTypes {catalog : Catalog} {method : Method} {result type : TypeId}
    (inside : type ∈ signatureTypes catalog method result) :
    type = result ∨
      (method.isClosedInstantiation catalog = true ∧ type ∈ method.genericArguments.drop 1) ∨
        type ∈ method.parameters := by
  rcases List.mem_cons.mp inside with result | further
  · exact .inl result
  · rcases List.mem_append.mp further with argument | isParameter
    · split at argument
      · rename_i closed
        exact .inr (.inl ⟨closed, argument⟩)
      · exact absurd argument List.not_mem_nil
    · exact .inr (.inr isParameter)

theorem contributes_of_mem_contributions {catalog : Catalog} {tree : Tree} {anchor : Anchor}
    (inside : anchor ∈ tree.contributions catalog) :
    tree.Contributes catalog anchor.type anchor.isDirect := by
  cases tree with
  | constant value type =>
      cases value with
      | null => exact absurd inside List.not_mem_nil
      | type named =>
          obtain rfl := List.mem_singleton.mp inside
          exact .inl (.typeConstant named type)
      | literal value runtimeType =>
          obtain rfl := List.mem_singleton.mp inside
          exact .inl (.literal value runtimeType type)
  | lambda parameters body type =>
      obtain ⟨bound, isParameter, rfl⟩ := List.mem_map.mp inside
      exact .inl (.lambdaParameter body type isParameter)
  | listInit creation initializers =>
      obtain rfl := List.mem_singleton.mp inside
      exact .inl (.listInit creation initializers)
  | parameter bound =>
      obtain rfl := List.mem_singleton.mp inside
      exact .inl (.parameter bound)
  | memberAccess receiver member type =>
      obtain rfl := List.mem_singleton.mp inside
      exact .inl (.memberAccess receiver member type)
  | staticAccess member type =>
      rcases List.mem_cons.mp inside with rfl | own
      · exact .inl (.staticMember member type)
      · obtain rfl := List.mem_singleton.mp own
        exact .inl (.staticAccess member type)
  | memberInit creation bindings =>
      obtain rfl := List.mem_singleton.mp inside
      exact .inl (.memberInit creation bindings)
  | call receiver method arguments type =>
      obtain ⟨named, ofSignature, rfl⟩ := List.mem_map.mp inside
      rcases mem_signatureTypes ofSignature with rfl | ⟨closed, isArgument⟩ | isParameter
      · exact .inr (.result receiver method arguments named)
      · exact .inl (.typeArgument receiver arguments type closed isArgument)
      · exact .inl (.signature receiver arguments type isParameter)
  | staticCall method arguments type =>
      rcases List.mem_cons.mp inside with rfl | further
      · exact .inl (.staticMethod method arguments type)
      · obtain ⟨named, ofSignature, rfl⟩ := List.mem_map.mp further
        rcases mem_signatureTypes ofSignature with rfl | ⟨closed, isArgument⟩ | isParameter
        · exact .inr (.staticResult method arguments named)
        · exact .inl (.staticTypeArgument arguments type closed isArgument)
        · exact .inl (.staticSignature arguments type isParameter)
  | newArray kind items type =>
      obtain ⟨element, isElement, rfl⟩ := List.mem_map.mp inside
      exact .inr (.elements kind items (Option.mem_toList.mp isElement))
  | create creation =>
      obtain rfl := List.mem_singleton.mp inside
      exact .inl (.create creation)
  | typeIs operand tested type =>
      obtain rfl := List.mem_singleton.mp inside
      exact .inl (.typeIs operand tested type)
  | convert kind operand type =>
      obtain rfl := List.mem_singleton.mp inside
      exact .inl (.convert kind operand type)
  | block locals body type =>
      obtain ⟨bound, isLocal, rfl⟩ := List.mem_map.mp inside
      exact .inl (.blockVariable body type isLocal)
  | _ => exact absurd inside List.not_mem_nil

end Tree

/-! ## Induction on the children -/

theorem sizeOf_lt_of_mem_arguments {creation : Creation} {tree : Tree}
    (inside : tree ∈ creation.arguments) : sizeOf tree < sizeOf creation := by
  obtain ⟨constructor, arguments, type⟩ := creation
  have smaller : sizeOf tree < sizeOf arguments := List.sizeOf_lt_of_mem inside
  rw [Creation.of.sizeOf_spec]
  omega

theorem sizeOf_lt_of_mem_initializers {initializers : List ElementInit} {tree : Tree}
    (inside : tree ∈ initializers.flatMap ElementInit.arguments) :
    sizeOf tree < sizeOf initializers := by
  obtain ⟨⟨addMethod, arguments⟩, isInitializer, isArgument⟩ := List.mem_flatMap.mp inside
  have inner : sizeOf tree < sizeOf arguments := List.sizeOf_lt_of_mem isArgument
  have outer := List.sizeOf_lt_of_mem isInitializer
  rw [ElementInit.of.sizeOf_spec] at outer
  omega

mutual

theorem sizeOf_lt_of_mem_values {tree : Tree} : (binding : MemberBinding) →
    tree ∈ binding.values → sizeOf tree < sizeOf binding
  | .assignment member value, inside => by
      rw [MemberBinding.values, List.mem_singleton] at inside
      subst inside
      rw [MemberBinding.assignment.sizeOf_spec]
      omega
  | .elements member initializers, inside => by
      rw [MemberBinding.values] at inside
      have smaller := sizeOf_lt_of_mem_initializers inside
      rw [MemberBinding.elements.sizeOf_spec]
      omega
  | .nested member bindings, inside => by
      rw [MemberBinding.values] at inside
      have smaller := sizeOf_lt_of_mem_bindingsValues bindings inside
      rw [MemberBinding.nested.sizeOf_spec]
      omega

theorem sizeOf_lt_of_mem_bindingsValues {tree : Tree} : (bindings : List MemberBinding) →
    tree ∈ bindingsValues bindings → sizeOf tree < sizeOf bindings
  | [], inside => absurd inside List.not_mem_nil
  | binding :: rest, inside => by
      rw [List.cons.sizeOf_spec]
      rw [bindingsValues] at inside
      rcases List.mem_append.mp inside with here | later
      · have smaller := sizeOf_lt_of_mem_values binding here
        omega
      · have smaller := sizeOf_lt_of_mem_bindingsValues rest later
        omega

end

namespace Tree

/-- A child is smaller than its node. -/
theorem sizeOf_lt_of_mem_children {tree child : Tree} (isChild : child ∈ tree.children) :
    sizeOf child < sizeOf tree := by
  have inList (trees : List Tree) : child ∈ trees → sizeOf child < sizeOf trees :=
    List.sizeOf_lt_of_mem
  have inCreation (creation : Creation) : child ∈ creation.arguments →
      sizeOf child < sizeOf creation := sizeOf_lt_of_mem_arguments
  have inInitializers (initializers : List ElementInit) :
      child ∈ initializers.flatMap ElementInit.arguments →
        sizeOf child < sizeOf initializers := sizeOf_lt_of_mem_initializers
  have inBindings (bindings : List MemberBinding) : child ∈ bindingsValues bindings →
      sizeOf child < sizeOf bindings := sizeOf_lt_of_mem_bindingsValues bindings
  cases tree <;> rw [children] at isChild <;> grind

/-- The anchors of a tree are what the contributions of its nodes are made into. -/
theorem mem_anchors_iff_occurs {catalog : Catalog} {tree : Tree} {anchor : Anchor} :
    anchor ∈ tree.anchors catalog ↔
      ∃ (node : Tree) (type : TypeId), node.Occurs tree ∧
        node.Contributes catalog type anchor.isDirect ∧ anchor.type ∈ catalog.mentioned type := by
  constructor
  · intro inside
    induction size : sizeOf tree using Nat.strongRecOn generalizing tree with
    | _ bound ih =>
        rcases (mem_anchors_cases tree).mp inside with own | ⟨child, isChild, further⟩
        · obtain ⟨made, contributed, named⟩ := List.mem_flatMap.mp own
          obtain ⟨meant, direct⟩ := mem_anchorsOf.mp named
          refine ⟨tree, made.type, .root, ?_, meant⟩
          rw [direct]
          exact contributes_of_mem_contributions contributed
        · have smaller := sizeOf_lt_of_mem_children isChild
          obtain ⟨node, type, occurs, contributes, meant⟩ := ih _ (size ▸ smaller) further rfl
          exact ⟨node, type, .inChild isChild occurs, contributes, meant⟩
  · rintro ⟨node, type, occurs, contributes, meant⟩
    induction occurs with
    | root =>
        refine (mem_anchors_cases node).mpr (.inl (List.mem_flatMap.mpr ?_))
        exact ⟨⟨type, anchor.isDirect⟩, mem_contributions_of_contributes contributes,
          mem_anchorsOf.mpr ⟨meant, rfl⟩⟩
    | inChild isChild _ ih => exact (mem_anchors_cases _).mpr (.inr ⟨_, isChild, ih⟩)

end Tree

/-! ## What a mention stands for -/

namespace Catalog

/-- The types that a mention stands for, without the comparison of ages. -/
theorem mentioned_eq {catalog : Catalog} (ordered : catalog.Ordered) (type : TypeId) :
    catalog.mentioned type =
      match catalog.element? type with
      | some element => catalog.mentioned element
      | none =>
          type :: (if catalog.isClosedInstantiation type then
              (catalog.genericArguments type).drop 1
            else []).flatMap catalog.mentioned := by
  rw [mentioned]
  cases isArray : catalog.element? type with
  | some element => simp only [if_pos (ordered.element_lt isArray)]
  | none =>
      dsimp only
      congr 1
      refine List.flatMap_congr fun argument inside => ?_
      split at inside
      · rename_i closed
        rw [if_pos (ordered.argument_lt closed (List.mem_of_mem_drop inside))]
      · exact absurd inside List.not_mem_nil

theorem mem_mentioned_iff {catalog : Catalog} (ordered : catalog.Ordered) {type meant : TypeId} :
    meant ∈ catalog.mentioned type ↔ catalog.StandsFor type meant := by
  constructor
  · intro inside
    induction measure : type.height using Nat.strongRecOn generalizing type with
    | _ height ih =>
        rw [mentioned_eq ordered] at inside
        split at inside
        · rename_i element isArray
          have older := ordered.element_lt isArray
          exact .element isArray (ih _ (measure ▸ older) inside rfl)
        · rename_i noArray
          rcases List.mem_cons.mp inside with rfl | further
          · exact .itself noArray
          · obtain ⟨argument, isArgument, inner⟩ := List.mem_flatMap.mp further
            split at isArgument
            · rename_i closed
              have older := ordered.argument_lt closed (List.mem_of_mem_drop isArgument)
              exact .argument noArray closed isArgument (ih _ (measure ▸ older) inner rfl)
            · exact absurd isArgument List.not_mem_nil
  · intro stands
    induction stands with
    | element isArray _ ih =>
        rw [mentioned_eq ordered, isArray]
        exact ih
    | itself noArray =>
        rw [mentioned_eq ordered, noArray]
        exact List.mem_cons_self
    | argument noArray closed isArgument _ ih =>
        rw [mentioned_eq ordered, noArray]
        refine List.mem_cons_of_mem _ (List.mem_flatMap.mpr ⟨_, ?_, ih⟩)
        rw [if_pos closed]
        exact isArgument

end Catalog

/-- **Where anchors come from.** The anchors of a tree are the types that the
contributions of its nodes stand for, wherever the nodes occur. -/
theorem Tree.mem_anchors_iff {catalog : Catalog} (ordered : catalog.Ordered) {tree : Tree}
    {anchor : Anchor} :
    anchor ∈ tree.anchors catalog ↔
      ∃ (node : Tree) (type : TypeId), node.Occurs tree ∧
        node.Contributes catalog type anchor.isDirect ∧ catalog.StandsFor type anchor.type := by
  rw [mem_anchors_iff_occurs]
  simp only [Catalog.mem_mentioned_iff ordered]

end ExprImports
