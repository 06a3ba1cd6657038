import ExprImports.Proofs.Catalog.Ancestors
import ExprImports.Proofs.Closure.Anchors
import ExprImports.Proofs.Closure.Walk

/-!
# Walks that follow whatever they find

The walks over types compare the age of a part with the age of the type before they follow it.
Those of this module do not: they follow interfaces, base types, elements and arguments
wherever these lead. They are given the depth to which calls may be nested and loops may be
repeated, and they have no result if that is not enough. A walk ends if it has one and the same
result from some depth on (`Settles`). Along base types that come back to where they started no
depth is enough (`findMethods_eq_none`).

**Order.** In a catalog that is reached by operations every part was created before the type that
it is part of. So all walks end, on every type, and they find what the walks with the
comparison find (`walks_end_of_reached`).

**Pending types.** The walk to what a type can be viewed as keeps a list of pending types. It is
followed one pending type at a time: what is seen after a type has been worked off does not
depend on the types that are pending behind it (`WorksOff`).
-/

set_option autoImplicit false

namespace ExprImports

namespace Unguarded

/-! ## Walks without a comparison of ages -/

/-- From some depth on the walk has this result. -/
def Settles {α : Type} (walk : Nat → Option α) (result : α) : Prop :=
  ∃ enough, ∀ depth, enough ≤ depth → walk depth = some result

section Types

variable (catalog : Catalog)

/-- Whether a generic parameter occurs in the type. -/
def isOpen : Nat → TypeId → Option Bool
  | 0, _ => none
  | depth + 1, type =>
    match catalog.find? type with
    | none => some false
    | some entry =>
      match entry.kind with
      | .parameter => some true
      | .array element _ => isOpen depth element
      | .nominal _ =>
        match entry.genericity with
        | .plain => some false
        | .definition _ => some true
        | .instantiation _ arguments => arguments.anyM (isOpen depth)

/-- Whether the type is an instantiation in whose arguments no generic parameter occurs. -/
def isClosedInstantiation (depth : Nat) (type : TypeId) : Option Bool :=
  match (catalog.find? type).map TypeEntry.genericity with
  | some (.instantiation _ arguments) => do
    let anyOpen ← arguments.anyM (isOpen catalog depth)
    some !anyOpen
  | _ => some false

/-- The name of a type, with or without namespaces. -/
def nameOf (qualified : Bool) : Nat → TypeId → Option String
  | 0, _ => none
  | depth + 1, type =>
    match catalog.find? type with
    | none => some Catalog.unknownName
    | some entry =>
      match entry.kind with
      | .array element rank => do
        let name ← nameOf qualified depth element
        some (name ++ Catalog.arrayBrackets rank)
      | _ =>
        let bare :=
          match entry.namespaceName, qualified with
          | some namespaceName, true => namespaceName ++ "." ++ entry.name
          | _, _ => entry.name
        match entry.genericity with
        | .plain => some bare
        | .definition parameters => some (bare ++ "`" ++ toString parameters.length)
        | .instantiation _ arguments => do
          let names ← arguments.mapM (nameOf qualified depth)
          some (bare ++ "<" ++ ", ".intercalate names ++ ">")

/-- The first field or property with this name along the base types. -/
def findMember? (name : String) : Nat → TypeId → Option (Option Member)
  | 0, _ => none
  | depth + 1, type =>
    match catalog.find? type with
    | none => some none
    | some entry =>
      match entry.members.find? (·.name == name) with
      | some member => some (some member)
      | none =>
        match entry.base with
        | none => some none
        | some base => findMember? name depth base

/-- The methods found so far, and those with this name along the base types. -/
def findMethods (name : String) : Nat → List Method → TypeId → Option (List Method)
  | 0, _, _ => none
  | depth + 1, before, type =>
    match catalog.find? type with
    | none => some before
    | some entry =>
      let found := before ++ entry.methods.filter (·.name == name)
      match entry.base with
      | none => some found
      | some base => findMethods name depth found base

/-- The types seen so far, and those that the pending ones can be viewed as. The base type of a
type is looked at before its interfaces, and the last interface before the others. -/
def supertypes : Nat → List TypeId → List TypeId → Option (List TypeId)
  | 0, _, _ => none
  | _ + 1, seen, [] => some seen
  | depth + 1, seen, type :: rest =>
    if type ∈ seen then supertypes depth seen rest
    else supertypes depth (type :: seen) ((catalog.parents type).reverse ++ rest)

end Types

section Collecting

variable (catalog : Catalog) (defaults : DefaultAssemblies)

mutual

/-- Adds a type if it is to be kept, its interfaces, and its base types. -/
def add : Nat → Closure → TypeId → Bool → Option Closure
  | 0, _, _, _ => none
  | depth + 1, closure, type, isDirect =>
    if type ∈ closure.references then some closure
    else
      let kept := Closure.keep catalog defaults closure type isDirect
      if type ∈ kept.expanded then some kept
      else do
        let looked : Closure := { kept with expanded := type :: kept.expanded }
        let below ← (catalog.interfaces type).foldlM
          (fun closure interface => add depth closure interface false) looked
        addBases depth below (catalog.base? type)

/-- Adds a base type and those above it, as long as they are not the root. -/
def addBases : Nat → Closure → Option TypeId → Option Closure
  | 0, _, _ => none
  | depth + 1, closure, next =>
    match next with
    | none => some closure
    | some base =>
      if base = CoreType.object then some closure
      else do
        let added ← add depth closure base false
        addBases depth added (catalog.base? base)

end

/-- Adds what the use of one type needs. -/
def ensure : Nat → Closure → TypeId → Bool → Option Closure
  | 0, _, _, _ => none
  | depth + 1, closure, type, isDirect =>
    match catalog.element? type with
    | some element => ensure depth closure element isDirect
    | none => do
      let added ← add catalog defaults depth closure type isDirect
      let closed ← isClosedInstantiation catalog depth type
      if closed then
        ((catalog.genericArguments type).drop 1).foldlM
          (fun closure argument => ensure depth closure argument isDirect) added
      else some added

end Collecting

/-! ## Tests, changes and steps that always have a result -/

section Lists

variable {items : List TypeId}

theorem anyM_eq {test : TypeId → Option Bool} {plain : TypeId → Bool}
    (agree : ∀ item ∈ items, test item = some (plain item)) :
    items.anyM test = some (items.any plain) := by
  induction items with
  | nil => rfl
  | cons item rest ih =>
      obtain ⟨here, later⟩ := List.forall_mem_cons.mp agree
      rw [List.anyM, here, List.any_cons]
      cases plain item with
      | true => rfl
      | false => exact ih later

theorem mapM_eq {α : Type} {change : TypeId → Option α} {plain : TypeId → α}
    (agree : ∀ item ∈ items, change item = some (plain item)) :
    items.mapM change = some (items.map plain) := by
  induction items with
  | nil => rfl
  | cons item rest ih =>
      obtain ⟨here, later⟩ := List.forall_mem_cons.mp agree
      rw [List.mapM_cons, here, ih later]
      rfl

theorem foldlM_eq {α : Type} {step : α → TypeId → Option α} {plain : α → TypeId → α}
    (agree : ∀ state, ∀ item ∈ items, step state item = some (plain state item)) (state : α) :
    items.foldlM step state = some (items.foldl plain state) := by
  induction items generalizing state with
  | nil => rfl
  | cons item rest ih =>
      rw [List.foldlM_cons, agree state item List.mem_cons_self]
      exact ih (fun state item inside => agree state item (List.mem_cons_of_mem _ inside)) _

end Lists

variable {catalog : Catalog}

/-- There is no end to the base types of a type that is its own base type. -/
theorem findMethods_eq_none {type : TypeId} (isOwnBase : catalog.base? type = some type)
    (name : String) (depth : Nat) (before : List Method) :
    findMethods catalog name depth before type = none := by
  obtain ⟨entry, found, isBase⟩ := Option.bind_eq_some_iff.mp isOwnBase
  induction depth generalizing before with
  | zero => rfl
  | succ depth ih =>
      rw [findMethods, found]
      dsimp only
      rw [isBase]
      exact ih _

/-! ## Pending types -/

/-- The pending types are worked off one after the other, with more and more types seen. What is
seen can be reached from them, and the types that are newly seen have their parents seen too. -/
structure WorksOff (catalog : Catalog) (before pending after : List TypeId) : Prop where
  runs : ∃ steps, ∀ depth rest, supertypes catalog (depth + steps) before (pending ++ rest) =
    supertypes catalog depth after rest
  kept : before ⊆ after
  done : pending ⊆ after
  reached : ∀ type ∈ after, type ∈ before ∨ ∃ lower ∈ pending, catalog.IsViewedAs lower type
  closed : ∀ type ∈ after, type ∈ before ∨ catalog.parents type ⊆ after

theorem WorksOff.nil (before : List TypeId) : WorksOff catalog before [] before where
  runs := ⟨0, fun _ _ => rfl⟩
  kept := List.Subset.refl before
  done := List.nil_subset before
  reached _ := .inl
  closed _ := .inl

theorem WorksOff.append {before front middle back after : List TypeId}
    (first : WorksOff catalog before front middle) (second : WorksOff catalog middle back after) :
    WorksOff catalog before (front ++ back) after where
  runs := by
    obtain ⟨early, runsFirst⟩ := first.runs
    obtain ⟨late, runsSecond⟩ := second.runs
    refine ⟨late + early, fun depth rest => ?_⟩
    rw [← Nat.add_assoc, List.append_assoc, runsFirst, runsSecond]
  kept := List.Subset.trans first.kept second.kept
  done := List.append_subset.mpr ⟨List.Subset.trans first.done second.kept, second.done⟩
  reached type seen := by
    rcases second.reached type seen with between | ⟨lower, isPending, isView⟩
    · rcases first.reached type between with wasSeen | ⟨lower, isPending, isView⟩
      · exact .inl wasSeen
      · exact .inr ⟨lower, List.mem_append_left _ isPending, isView⟩
    · exact .inr ⟨lower, List.mem_append_right _ isPending, isView⟩
  closed type seen := by
    rcases second.closed type seen with between | above
    · rcases first.closed type between with wasSeen | above
      · exact .inl wasSeen
      · exact .inr (List.Subset.trans above second.kept)
    · exact .inr above

theorem exists_worksOff_list {pending : List TypeId}
    (each : ∀ type ∈ pending, ∀ before, ∃ after, WorksOff catalog before [type] after)
    (before : List TypeId) : ∃ after, WorksOff catalog before pending after := by
  induction pending generalizing before with
  | nil => exact ⟨before, .nil before⟩
  | cons type rest ih =>
      obtain ⟨here, later⟩ := List.forall_mem_cons.mp each
      obtain ⟨middle, first⟩ := here before
      obtain ⟨after, second⟩ := ih later middle
      exact ⟨after, first.append second⟩

section Ordered

variable (ordered : catalog.Ordered)
include ordered

/-! ## Walks over all parts -/

theorem isOpen_eq {depth : Nat} {type : TypeId} (deep : type.height < depth) :
    isOpen catalog depth type = some (catalog.isOpen type) := by
  induction depth generalizing type with
  | zero => exact absurd deep (Nat.not_lt_zero _)
  | succ depth ih =>
      rw [isOpen, Catalog.isOpen]
      cases found : catalog.find? type with
      | none => rfl
      | some entry =>
          dsimp only
          cases isKind : entry.kind with
          | parameter => rfl
          | array element rank =>
              have older := ordered.part_lt (Catalog.isPartOf_element found isKind)
              dsimp only
              rw [if_pos older]
              exact ih (Nat.lt_of_lt_of_le older (Nat.le_of_lt_succ deep))
          | nominal kind =>
              dsimp only
              cases generic : entry.genericity with
              | plain => rfl
              | definition parameters => rfl
              | instantiation definition arguments =>
                  refine anyM_eq fun argument isArgument => ?_
                  have older := ordered.part_lt (Catalog.isPartOf_argument found generic isArgument)
                  rw [if_pos older]
                  exact ih (Nat.lt_of_lt_of_le older (Nat.le_of_lt_succ deep))

theorem nameOf_eq (qualified : Bool) {depth : Nat} {type : TypeId} (deep : type.height < depth) :
    nameOf catalog qualified depth type = some (catalog.nameOf qualified type) := by
  induction depth generalizing type with
  | zero => exact absurd deep (Nat.not_lt_zero _)
  | succ depth ih =>
      rw [nameOf, Catalog.nameOf]
      cases found : catalog.find? type with
      | none => rfl
      | some entry =>
          dsimp only
          cases isKind : entry.kind with
          | array element rank =>
              have older := ordered.part_lt (Catalog.isPartOf_element found isKind)
              dsimp only
              rw [if_pos older, ih (Nat.lt_of_lt_of_le older (Nat.le_of_lt_succ deep))]
              rfl
          | _ =>
              dsimp only
              cases generic : entry.genericity with
              | plain => rfl
              | definition parameters => rfl
              | instantiation definition arguments =>
                  have names : arguments.mapM (nameOf catalog qualified depth) =
                      some (arguments.map fun argument =>
                        if argument.height < type.height then catalog.nameOf qualified argument
                        else Catalog.unknownName) := by
                    refine mapM_eq fun argument isArgument => ?_
                    have older :=
                      ordered.part_lt (Catalog.isPartOf_argument found generic isArgument)
                    rw [if_pos older]
                    exact ih (Nat.lt_of_lt_of_le older (Nat.le_of_lt_succ deep))
                  dsimp only
                  rw [names]
                  rfl

theorem isClosedInstantiation_eq {depth : Nat} {type : TypeId} (deep : type.height ≤ depth) :
    isClosedInstantiation catalog depth type = some (catalog.isClosedInstantiation type) := by
  rw [isClosedInstantiation, Catalog.isClosedInstantiation]
  cases found : catalog.find? type with
  | none => rfl
  | some entry =>
      rw [Option.map_some]
      cases generic : entry.genericity with
      | plain => rfl
      | definition parameters => rfl
      | instantiation definition arguments =>
          dsimp only
          rw [anyM_eq fun argument isArgument => isOpen_eq ordered (Nat.lt_of_lt_of_le
            (ordered.part_lt (Catalog.isPartOf_argument found generic isArgument)) deep)]
          rfl

/-! ## Walks along the base types -/

theorem findMember?_eq (name : String) {depth : Nat} {type : TypeId}
    (deep : type.height < depth) :
    findMember? catalog name depth type = some (catalog.findMember? type name) := by
  induction depth generalizing type with
  | zero => exact absurd deep (Nat.not_lt_zero _)
  | succ depth ih =>
      rw [findMember?, Catalog.findMember?, Catalog.baseChain_eq ordered, List.findSome?_cons,
        Catalog.members, Catalog.base?]
      cases found : catalog.find? type with
      | none => rfl
      | some entry =>
          rw [Option.map_some, Option.getD_some, Option.bind_some]
          dsimp only
          cases entry.members.find? (·.name == name) with
          | some member => rfl
          | none =>
              cases isBase : entry.base with
              | none => rfl
              | some base =>
                  have older := ordered.part_lt (Catalog.isPartOf_base found isBase)
                  exact ih (Nat.lt_of_lt_of_le older (Nat.le_of_lt_succ deep))

theorem findMethods_eq (name : String) {depth : Nat} (before : List Method) {type : TypeId}
    (deep : type.height < depth) :
    findMethods catalog name depth before type =
      some (before ++ catalog.findMethods type name) := by
  induction depth generalizing before type with
  | zero => exact absurd deep (Nat.not_lt_zero _)
  | succ depth ih =>
      rw [findMethods, Catalog.findMethods, Catalog.baseChain_eq ordered, List.flatMap_cons,
        Catalog.methods, Catalog.base?]
      cases found : catalog.find? type with
      | none => simp
      | some entry =>
          rw [Option.map_some, Option.getD_some, Option.bind_some]
          dsimp only
          cases isBase : entry.base with
          | none => simp
          | some base =>
              have older := ordered.part_lt (Catalog.isPartOf_base found isBase)
              rw [← List.append_assoc]
              exact ih _ (Nat.lt_of_lt_of_le older (Nat.le_of_lt_succ deep))

/-! ## The walk to all that a type can be viewed as -/

/-- Every type is worked off, since its parents are. -/
theorem exists_worksOff (type : TypeId) (before : List TypeId) :
    ∃ after, WorksOff catalog before [type] after := by
  induction type using ordered.wellFounded.induction generalizing before with
  | _ type ih =>
      by_cases wasSeen : type ∈ before
      · refine ⟨before, ⟨1, fun depth rest => ?_⟩, List.Subset.refl before, ?_, fun _ => .inl,
          fun _ => .inl⟩
        · rw [List.singleton_append, supertypes, if_pos wasSeen]
        · exact List.cons_subset.mpr ⟨wasSeen, List.nil_subset before⟩
      · have parents : ∀ parent ∈ (catalog.parents type).reverse, ∀ before,
            ∃ after, WorksOff catalog before [parent] after := by
          intro parent isParent
          exact ih parent (Catalog.isPartOf_of_mem_parents (List.mem_reverse.mp isParent))
        obtain ⟨after, above⟩ := exists_worksOff_list parents (type :: before)
        obtain ⟨isSeen, kept⟩ := List.cons_subset.mp above.kept
        obtain ⟨steps, runs⟩ := above.runs
        refine ⟨after, ⟨steps + 1, fun depth rest => ?_⟩, kept, ?_, ?_, ?_⟩
        · rw [← Nat.add_assoc, List.singleton_append, supertypes, if_neg wasSeen, runs]
        · exact List.cons_subset.mpr ⟨isSeen, List.nil_subset after⟩
        · intro other seen
          rcases above.reached other seen with known | ⟨parent, isParent, isView⟩
          · rcases List.mem_cons.mp known with rfl | known
            · exact .inr ⟨other, List.mem_singleton_self other, .refl⟩
            · exact .inl known
          · exact .inr ⟨type, List.mem_singleton_self type,
              .head (List.mem_reverse.mp isParent) isView⟩
        · intro other seen
          rcases above.closed other seen with known | inside
          · rcases List.mem_cons.mp known with rfl | known
            · exact .inr fun parent isParent => above.done (List.mem_reverse.mpr isParent)
            · exact .inl known
          · exact .inr inside

/-- The walk with a list of pending types sees what the sweep finds. -/
theorem exists_supertypes (type : TypeId) :
    ∃ seen, Settles (supertypes catalog · [] [type]) seen ∧
      ∀ other, other ∈ seen ↔ other ∈ catalog.supertypes type := by
  obtain ⟨seen, worksOff⟩ := exists_worksOff ordered type []
  refine ⟨seen, ?_, fun other => ?_⟩
  · obtain ⟨steps, runs⟩ := worksOff.runs
    refine ⟨steps + 1, fun depth deep => ?_⟩
    obtain ⟨further, rfl⟩ := Nat.exists_eq_add_of_le deep
    have ends := runs (further + 1) []
    rw [supertypes, List.append_nil] at ends
    rw [← ends, Nat.add_comm (steps + 1) further, Nat.add_right_comm, Nat.add_assoc]
  · rw [Catalog.mem_supertypes_iff ordered]
    constructor
    · intro isSeen
      rcases worksOff.reached other isSeen with known | ⟨lower, isPending, isView⟩
      · exact absurd known List.not_mem_nil
      · obtain rfl := List.mem_singleton.mp isPending
        exact isView
    · intro isView
      induction isView with
      | refl => exact worksOff.done (List.mem_singleton_self type)
      | tail _ isParent lowerSeen =>
          rcases worksOff.closed _ lowerSeen with known | above
          · exact absurd known List.not_mem_nil
          · exact above isParent

/-! ## The walk that collects -/

section Collecting

variable {defaults : DefaultAssemblies}

/-- A type takes two more calls than its parents at most: one for itself, and one for the step
along the base types. -/
theorem add_addBases_eq (depth : Nat) :
    (∀ closure type isDirect, 2 * type.height + 1 < depth →
      add catalog defaults depth closure type isDirect =
        some (closure.add catalog defaults type isDirect)) ∧
    ∀ closure type, 2 * type.height < depth →
      addBases catalog defaults depth closure (catalog.base? type) =
        some ((Closure.basesBelowRoot catalog type).foldl
          (fun closure base => closure.add catalog defaults base false) closure) := by
  induction depth with
  | zero => exact ⟨fun _ _ _ deep => absurd deep (Nat.not_lt_zero _),
      fun _ _ deep => absurd deep (Nat.not_lt_zero _)⟩
  | succ depth ih =>
      obtain ⟨addIh, basesIh⟩ := ih
      constructor
      · intro closure type isDirect deep
        have interfaces (state : Closure) (interface : TypeId)
            (declared : interface ∈ catalog.interfaces type) :
            add catalog defaults depth state interface false =
              some (state.add catalog defaults interface false) := by
          have older := ordered.interface_lt declared
          exact addIh state interface false (by omega)
        rw [add, Closure.add_eq ordered]
        by_cases known : type ∈ closure.references
        · rw [if_pos known, if_pos known]
        · rw [if_neg known, if_neg known]
          dsimp only
          rw [Closure.keep_expanded]
          by_cases looked : type ∈ closure.expanded
          · rw [if_pos looked, if_pos looked]
          · rw [if_neg looked, if_neg looked, foldlM_eq interfaces, Closure.above,
              List.foldl_append]
            exact basesIh _ type (by omega)
      · intro closure type deep
        rw [Closure.basesBelowRoot_eq ordered]
        cases isBase : catalog.base? type with
        | none => rfl
        | some base =>
            have older := ordered.base_lt isBase
            rw [addBases]
            dsimp only
            by_cases isRoot : base = CoreType.object
            · rw [if_pos isRoot, if_pos isRoot]
              rfl
            · rw [if_neg isRoot, if_neg isRoot, addIh closure base false (by omega),
                List.foldl_cons]
              exact basesIh _ base (by omega)

/-- What the use of a type needs, without the comparison of ages. -/
theorem ensure_plain (closure : Closure) (type : TypeId) (isDirect : Bool) :
    closure.ensure catalog defaults type isDirect =
      match catalog.element? type with
      | some element => closure.ensure catalog defaults element isDirect
      | none =>
          (if catalog.isClosedInstantiation type then (catalog.genericArguments type).drop 1
            else []).foldl
              (fun closure argument => closure.ensure catalog defaults argument isDirect)
              (closure.add catalog defaults type isDirect) := by
  simp only [Closure.ensure, Catalog.anchorsOf, Closure.addAnchors]
  rw [Catalog.mentioned_eq ordered]
  cases catalog.element? type with
  | some element => rfl
  | none => simp only [List.map_cons, List.foldl_cons, List.map_flatMap, List.foldl_flatMap]

theorem ensure_eq {depth : Nat} (closure : Closure) {type : TypeId} (isDirect : Bool)
    (deep : 2 * type.height + 2 < depth) :
    ensure catalog defaults depth closure type isDirect =
      some (closure.ensure catalog defaults type isDirect) := by
  induction depth generalizing closure type with
  | zero => exact absurd deep (Nat.not_lt_zero _)
  | succ depth ih =>
      rw [ensure, ensure_plain ordered]
      cases isArray : catalog.element? type with
      | some element =>
          have older := ordered.element_lt isArray
          exact ih closure (by omega)
      | none =>
          dsimp only
          rw [(add_addBases_eq ordered depth).1 closure type isDirect (by omega),
            isClosedInstantiation_eq ordered (by omega)]
          cases closed : catalog.isClosedInstantiation type with
          | false => rfl
          | true =>
              refine foldlM_eq (fun state argument inside => ?_) _
              have older := ordered.argument_lt closed (List.mem_of_mem_drop inside)
              exact ih state (by omega)

end Collecting

/-- All walks that start at the type end, and find what those find that compare ages. -/
structure Ends (catalog : Catalog) (type : TypeId) : Prop where
  supertypes : ∃ seen, Settles (supertypes catalog · [] [type]) seen ∧
    ∀ other, other ∈ seen ↔ other ∈ catalog.supertypes type
  findMember? : ∀ name,
    Settles (findMember? catalog name · type) (catalog.findMember? type name)
  findMethods : ∀ name,
    Settles (findMethods catalog name · [] type) (catalog.findMethods type name)
  isOpen : Settles (isOpen catalog · type) (catalog.isOpen type)
  nameOf : ∀ qualified,
    Settles (nameOf catalog qualified · type) (catalog.nameOf qualified type)
  ensure : ∀ defaults closure isDirect,
    Settles (ensure catalog defaults · closure type isDirect)
      (closure.ensure catalog defaults type isDirect)

theorem ends (type : TypeId) : Ends catalog type where
  supertypes := exists_supertypes ordered type
  findMember? name := ⟨type.height + 1, fun _ => findMember?_eq ordered name⟩
  findMethods name := ⟨type.height + 1, fun _ => findMethods_eq ordered name []⟩
  isOpen := ⟨type.height + 1, fun _ => isOpen_eq ordered⟩
  nameOf qualified := ⟨type.height + 1, fun _ => nameOf_eq ordered qualified⟩
  ensure _ closure isDirect := ⟨2 * type.height + 3, fun _ => ensure_eq ordered closure isDirect⟩

end Ordered

/-- **Whatever operations make a catalog, its types are well-founded.** Every part of a type was
created before the type. So no way down from parts to parts goes on for ever or comes back, and
all walks over types end wherever they start. -/
theorem walks_end_of_reached (reached : catalog.Reached) :
    (∀ position part, catalog.IsPartOf part (.entry position) →
      part = .null ∨ ∃ earlier < position, part = .entry earlier) ∧
    WellFounded catalog.IsPartOf ∧
    (∀ type, ¬ Relation.TransGen catalog.IsPartOf type type) ∧
    ∀ type, Ends catalog type := by
  have ordered := reached.ordered
  refine ⟨?_, ordered.wellFounded, ordered.acyclic, ends ordered⟩
  intro position part isPart
  exact ordered.part_cases isPart

theorem walks_end_crm :
    Catalog.Crm.catalog.Reached ∧
    Settles (nameOf Catalog.Crm.catalog true · Catalog.Crm.entities) "Contoso.Crm.Entity[]" ∧
    ∃ closure, closure.references = [Catalog.Crm.entity, Catalog.Crm.audited] ∧
      Settles (ensure Catalog.Crm.catalog .builtin · {} Catalog.Crm.entities true) closure := by
  have reached := Catalog.Crm.built_catalog.reached
  obtain ⟨_, _, _, ends⟩ := walks_end_of_reached reached
  have isName : Catalog.Crm.catalog.nameOf true Catalog.Crm.entities = "Contoso.Crm.Entity[]" := by
    decide +kernel
  refine ⟨reached, ?_, _, ?_, (ends Catalog.Crm.entities).ensure .builtin {} true⟩
  · rw [← isName]
    exact (ends Catalog.Crm.entities).nameOf true
  · decide +kernel

end Unguarded

end ExprImports
