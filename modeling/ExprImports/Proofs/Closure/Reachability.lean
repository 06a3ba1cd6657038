import ExprImports.Proofs.Closure.Anchors
import ExprImports.Proofs.Closure.Walk

/-!
# Which types an expression needs

A type is above another one if it is reached by steps from a type to one of its
interfaces, or to its base type if that is not the root. An expression needs an
anchor that is direct or not defined in a default assembly, and every type above an
anchor that is not defined in a default assembly.

**Closure.** Exactly the needed types are collected (`typeReferences_iff_needed`), in
whatever order the anchors are added. So nothing is lost that is above a dropped
type only. The anchors are what the nodes mention and what they produce; mentions
alone do not account for the result of a call or the elements of a created array
(`needed_beyond_mentions`).
-/

set_option autoImplicit false

namespace ExprImports

namespace Catalog

/-- One step up from a type. -/
inductive StepsUp (catalog : Catalog) (type : TypeId) : TypeId → Prop where
  | interface {parent : TypeId} (declared : parent ∈ catalog.interfaces type) :
      StepsUp catalog type parent
  | base {parent : TypeId} (declared : catalog.base? type = some parent)
      (belowRoot : parent ≠ CoreType.object) : StepsUp catalog type parent

/-- The second type is reached from the first one by one or more steps up. -/
abbrev IsAbove (catalog : Catalog) : TypeId → TypeId → Prop :=
  Relation.TransGen catalog.StepsUp

/-- What is needed for anchors: those that are direct or not defined by default, and
all types above them that are not defined by default. -/
def Needed (catalog : Catalog) (defaults : DefaultAssemblies) (anchored : TypeId → Bool → Prop)
    (type : TypeId) : Prop :=
  ∃ anchor isDirect, anchored anchor isDirect ∧
    (type = anchor ∧ (isDirect = true ∨ defaults.defines catalog type = false) ∨
      defaults.defines catalog type = false ∧ catalog.IsAbove anchor type)

end Catalog

/-- Some node of the tree contributes a type that stands for the anchor. -/
def Tree.AnchoredBy (catalog : Catalog) (contributes : Tree → TypeId → Bool → Prop)
    (tree : Tree) (anchor : TypeId) (isDirect : Bool) : Prop :=
  ∃ (node : Tree) (named : TypeId), node.Occurs tree ∧ contributes node named isDirect ∧
    catalog.StandsFor named anchor

namespace Closure

variable {catalog : Catalog} {defaults : DefaultAssemblies}

/-! ## The plain walk reaches what is above -/

theorem keeps_eq_true_iff {type : TypeId} {isDirect : Bool} :
    keeps catalog defaults type isDirect = true ↔
      isDirect = true ∨ defaults.defines catalog type = false := by
  rw [keeps, Bool.or_eq_true, Bool.not_eq_true']

/-- A base type below the root is reached by steps up. -/
theorem isAbove_of_mem_basesBelowRoot (ordered : catalog.Ordered) {type base : TypeId}
    (isBase : base ∈ basesBelowRoot catalog type) : catalog.IsAbove type base := by
  induction measure : type.height using Nat.strongRecOn generalizing type with
  | _ height ih =>
      rw [basesBelowRoot_eq ordered] at isBase
      split at isBase
      · rename_i parent declared
        split at isBase
        · exact absurd isBase List.not_mem_nil
        · rename_i belowRoot
          have step := Catalog.StepsUp.base declared belowRoot
          rcases List.mem_cons.mp isBase with rfl | further
          · exact .single step
          · have older := ordered.base_lt declared
            exact .head step (ih _ (measure ▸ older) further rfl)
      · exact absurd isBase List.not_mem_nil

theorem isAbove_of_mem_above (ordered : catalog.Ordered) {type parent : TypeId}
    (isAbove : parent ∈ above catalog type) : catalog.IsAbove type parent := by
  rcases List.mem_append.mp isAbove with interface | base
  · exact .single (.interface interface)
  · exact isAbove_of_mem_basesBelowRoot ordered base

theorem mem_above_of_stepsUp (ordered : catalog.Ordered) {type parent : TypeId}
    (step : catalog.StepsUp type parent) : parent ∈ above catalog type := by
  cases step with
  | interface declared => exact List.mem_append_left _ declared
  | base declared belowRoot =>
      refine List.mem_append_right _ ?_
      rw [basesBelowRoot_eq ordered, declared]
      dsimp only
      rw [if_neg belowRoot]
      exact List.mem_cons_self

/-- The plain walk emits the type itself if it is kept, and the types above it that are
not defined by default. -/
theorem mem_walk_iff (ordered : catalog.Ordered) {type x : TypeId} {isDirect : Bool} :
    x ∈ walk catalog defaults type isDirect ↔
      x = type ∧ (isDirect = true ∨ defaults.defines catalog x = false) ∨
        defaults.defines catalog x = false ∧ catalog.IsAbove type x := by
  constructor
  · intro emitted
    induction measure : type.height using Nat.strongRecOn generalizing type isDirect with
    | _ height ih =>
        rw [walk_eq ordered] at emitted
        rcases List.mem_append.mp emitted with itself | further
        · split at itself
          · rename_i kept
            obtain rfl := List.mem_singleton.mp itself
            exact .inl ⟨rfl, keeps_eq_true_iff.mp kept⟩
          · exact absurd itself List.not_mem_nil
        · obtain ⟨parent, isAbove, emittedAbove⟩ := List.mem_flatMap.mp further
          have older := height_lt_of_mem_above ordered isAbove
          have climbs := isAbove_of_mem_above ordered isAbove
          rcases ih _ (measure ▸ older) emittedAbove rfl with ⟨rfl, kept⟩ | ⟨needed, higher⟩
          · exact .inr ⟨kept.resolve_left Bool.false_ne_true, climbs⟩
          · exact .inr ⟨needed, climbs.trans higher⟩
  · rintro (⟨rfl, kept⟩ | ⟨needed, climbs⟩)
    · rw [walk_eq ordered, if_pos (keeps_eq_true_iff.mpr kept)]
      exact List.mem_append_left _ List.mem_cons_self
    · induction climbs using Relation.TransGen.head_induction_on generalizing isDirect with
      | single step =>
          rw [walk_eq ordered]
          refine List.mem_append_right _ (List.mem_flatMap.mpr
            ⟨x, mem_above_of_stepsUp ordered step, ?_⟩)
          rw [walk_eq ordered, if_pos (keeps_eq_true_iff.mpr (.inr needed))]
          exact List.mem_append_left _ List.mem_cons_self
      | head step _ ih =>
          rw [walk_eq ordered]
          exact List.mem_append_right _ (List.mem_flatMap.mpr
            ⟨_, mem_above_of_stepsUp ordered step, ih⟩)

/-- Anchors added in any order collect what is needed for them. -/
theorem mem_addAnchors_iff (ordered : catalog.Ordered) (defaults : DefaultAssemblies)
    (anchors : List Anchor) (type : TypeId) :
    type ∈ (addAnchors catalog defaults {} anchors).references ↔
      catalog.Needed defaults (fun anchor isDirect => ⟨anchor, isDirect⟩ ∈ anchors) type := by
  have added := adds_addAnchors ordered anchors (settled_empty catalog defaults)
  rw [added.references, mem_foldl_insertNew, List.mem_flatMap]
  constructor
  · rintro (nothing | ⟨⟨anchor, isDirect⟩, inside, emitted⟩)
    · exact absurd nothing List.not_mem_nil
    · exact ⟨anchor, isDirect, inside, (mem_walk_iff ordered).mp emitted⟩
  · rintro ⟨anchor, isDirect, inside, reached⟩
    exact .inr ⟨⟨anchor, isDirect⟩, inside, (mem_walk_iff ordered).mpr reached⟩

/-- A person is collected with what is above, and an integer that is not direct is not. -/
example : (addAnchors Catalog.Crm.catalog .builtin {}
      [⟨Catalog.Crm.person, true⟩, ⟨CoreType.int32, false⟩]).references =
    [Catalog.Crm.person, Catalog.Crm.entity, Catalog.Crm.audited] := by
  decide +kernel

/-- **Exactly the needed types are collected.** The anchors are those that some node of
the tree contributes, and the order in which they are added does not matter. -/
theorem typeReferences_iff_needed (reached : catalog.Reached) (defaults : DefaultAssemblies)
    (tree : Tree) :
    (∀ type, type ∈ tree.typeReferences catalog defaults ↔
      catalog.Needed defaults (tree.AnchoredBy catalog (Tree.Contributes catalog)) type) ∧
    ∀ anchors, anchors.Perm (tree.anchors catalog) →
      ∀ type, type ∈ (addAnchors catalog defaults {} anchors).references ↔
        type ∈ tree.typeReferences catalog defaults := by
  have collected := mem_addAnchors_iff reached.ordered defaults
  constructor
  · intro type
    refine (collected (tree.anchors catalog) type).trans ?_
    simp only [Catalog.Needed, Tree.mem_anchors_iff reached.ordered, Tree.AnchoredBy]
  · intro anchors reordered type
    refine (collected anchors type).trans (Iff.trans ?_ (collected _ type).symm)
    simp only [Catalog.Needed, reordered.mem_iff]

/-- An interface that is declared two base types further up is needed. -/
theorem audited_needed :
    Catalog.Crm.catalog.Reached ∧
      Catalog.Crm.audited ∈ (Tree.parameter ⟨"owner", Catalog.Crm.customer⟩).typeReferences
        Catalog.Crm.catalog .builtin := by
  have reached := Catalog.Crm.built_catalog.reached
  refine ⟨reached, ((typeReferences_iff_needed reached .builtin _).1 _).mpr ?_⟩
  refine ⟨Catalog.Crm.customer, false,
    ⟨_, _, .root, .inl (.parameter _), .itself (by decide +kernel)⟩,
    .inr ⟨by decide +kernel, ?_⟩⟩
  have toPerson : Catalog.Crm.catalog.StepsUp Catalog.Crm.customer Catalog.Crm.person :=
    .base (by decide +kernel) (by decide)
  have toEntity : Catalog.Crm.catalog.StepsUp Catalog.Crm.person Catalog.Crm.entity :=
    .base (by decide +kernel) (by decide)
  have toAudited : Catalog.Crm.catalog.StepsUp Catalog.Crm.entity Catalog.Crm.audited :=
    .interface (by decide +kernel)
  exact .head toPerson (.head toEntity (.single toAudited))

/-! ## Mentions are not enough -/

/-- A method of all objects that finds something audited. -/
def findAudited : Method :=
  { name := "Find", declaringType := CoreType.object, parameters := []
    returnType := Catalog.Crm.audited }

/-- Whether what is found for a variable is a new array of entities. -/
def searchTree : Tree :=
  .binary .equal (.callOf (some (.parameter ⟨"store", CoreType.object⟩)) findAudited [])
    (.newArray .elements [] Catalog.Crm.entities) CoreType.boolean

/-- Nothing is above the root. -/
theorem not_stepsUp_object (type : TypeId) :
    ¬ Catalog.Crm.catalog.StepsUp CoreType.object type := by
  have noInterface : Catalog.Crm.catalog.interfaces CoreType.object = [] := by decide +kernel
  have noBase : Catalog.Crm.catalog.base? CoreType.object = none := by decide +kernel
  rintro (declared | ⟨declared, _⟩)
  · rw [noInterface] at declared
    exact absurd declared List.not_mem_nil
  · rw [noBase] at declared
    cases declared

/-- All that is mentioned in the search is the root, and not directly. -/
theorem anchor_of_searchTree {anchor : TypeId} {isDirect : Bool}
    (anchored : searchTree.AnchoredBy Catalog.Crm.catalog
      (Tree.Mentions Catalog.Crm.catalog) anchor isDirect) :
    anchor = CoreType.object ∧ isDirect = false := by
  obtain ⟨node, named, occurs, mentions, stands⟩ := anchored
  have variableOnly : named = CoreType.object ∧ isDirect = false := by
    cases occurs with
    | root => cases mentions
    | inChild isChild inside =>
        rcases List.mem_cons.mp isChild with rfl | isArray
        · cases inside with
          | root =>
              cases mentions with
              | signature _ _ _ isParameter => exact absurd isParameter List.not_mem_nil
              | typeArgument _ _ _ _ isArgument => exact absurd isArgument List.not_mem_nil
          | inChild isReceiver inside =>
              obtain rfl := List.mem_singleton.mp isReceiver
              cases inside with
              | root =>
                  cases mentions
                  exact ⟨rfl, rfl⟩
              | inChild isChild _ => exact absurd isChild List.not_mem_nil
        · obtain rfl := List.mem_singleton.mp isArray
          cases inside with
          | root => cases mentions
          | inChild isChild _ => exact absurd isChild List.not_mem_nil
  obtain ⟨rfl, rfl⟩ := variableOnly
  have noArray : Catalog.Crm.catalog.element? CoreType.object = none := by decide +kernel
  have notClosed : Catalog.Crm.catalog.isClosedInstantiation CoreType.object = false := by
    decide +kernel
  refine ⟨?_, rfl⟩
  cases stands with
  | element isArray _ => simp [noArray] at isArray
  | itself _ => rfl
  | argument _ closed _ _ => simp [notClosed] at closed

/-- **Mentions do not account for all needed types.** What a call results in and what a
new array holds is collected without being mentioned. -/
theorem needed_beyond_mentions :
    Catalog.Crm.catalog.Reached ∧
      ¬ ∀ type, type ∈ searchTree.typeReferences Catalog.Crm.catalog .builtin ↔
        Catalog.Crm.catalog.Needed .builtin (searchTree.AnchoredBy Catalog.Crm.catalog
          (Tree.Mentions Catalog.Crm.catalog)) type := by
  refine ⟨Catalog.Crm.built_catalog.reached, fun equivalent => ?_⟩
  have collected : searchTree.typeReferences Catalog.Crm.catalog .builtin =
      [Catalog.Crm.audited, Catalog.Crm.entity] := by decide +kernel
  obtain ⟨anchor, isDirect, anchored, reached⟩ := (equivalent Catalog.Crm.audited).mp (by
    rw [collected]
    exact List.mem_cons_self)
  obtain ⟨rfl, rfl⟩ := anchor_of_searchTree anchored
  rcases reached with ⟨same, _⟩ | ⟨_, climbs⟩
  · exact absurd same (by decide)
  · obtain ⟨next, step, _⟩ := Relation.TransGen.head'_iff.mp climbs
    exact not_stepsUp_object next step

end Closure
end ExprImports
