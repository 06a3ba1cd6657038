import ExprImports.Proofs.Catalog.Steps

/-!
# Catalogs built by the operations

A catalog is reached when it comes from the initial one by the operations that grow
catalogs, each given types that exist already, or the null type (`Reached`). It is
built if moreover all declared types are classes, structures, interfaces and
enumerations (`Built`).

**Order.** Every type is made of older ones: its interfaces, its base type, its
element, its definition and its arguments all come before it (`Reached.ordered`).
So no type is above itself.

**Ownership.** What a type declares names that type as its declaring type
(`Reached.owned`).

**Persistence.** Nothing that the initial catalog knows of a type is ever lost or replaced
(`Reached.extends_initial`).
-/

set_option autoImplicit false

namespace ExprImports

namespace Catalog

/-! ## Catalogs that are reached by operations -/

/-- One operation, given types that exist already or the null type. A type may be added as one of
any kind. -/
inductive Operation (catalog : Catalog) : Catalog → Prop where
  | defineAssembly (name : AssemblyName) (isDynamic : Bool) :
      Operation catalog (catalog.defineAssembly name isDynamic).2
  | define (kind : TypeKind) (declaration : TypeDeclaration)
      (admitted : ∀ part ∈ declaration.interfaces ++ declaration.base.toList ++ kind.parts,
        catalog.Admits part) : Operation catalog (catalog.defineAs kind declaration).2
  | instantiate {generic : TypeId} {arguments : List TypeId} {made : TypeId × Catalog}
      (admitted : ∀ argument ∈ arguments, catalog.Admits argument)
      (found : catalog.instantiate? generic arguments = some made) : Operation catalog made.2
  | arrayOf {element : TypeId} (admitted : catalog.Admits element) (rank : Nat) :
      Operation catalog (catalog.arrayOf element rank).2
  | addMember (type : TypeId) (name : String) (memberType : TypeId) (kind : MemberKind)
      (isStatic : Bool) : Operation catalog (catalog.addMember type name memberType kind isStatic)
  | addMethod (type : TypeId) (method : Method) : Operation catalog (catalog.addMethod type method)
  | addIndexer (type : TypeId) (parameters : List TypeId) (itemType : TypeId) (settable : Bool) :
      Operation catalog (catalog.addIndexer type parameters itemType settable)
  | addConstructor (type : TypeId) (parameters : List TypeId) :
      Operation catalog (catalog.addConstructor type parameters)

/-- An operation on a catalog with the core types consists of elementary steps. -/
theorem Operation.steps {catalog grown : Catalog} (operation : Operation catalog grown)
    (ordered : catalog.Ordered) (core : CoreType.count ≤ catalog.types.size) :
    Steps catalog grown := by
  cases operation with
  | defineAssembly name isDynamic => exact steps_defineAssembly catalog name isDynamic
  | define kind declaration admitted => exact steps_defineAs catalog kind declaration admitted
  | instantiate admitted found => exact steps_instantiate ordered admitted found
  | arrayOf admitted rank => exact steps_arrayOf core admitted rank
  | addMember type name memberType kind isStatic =>
      exact steps_addMember catalog type name memberType kind isStatic
  | addMethod type method => exact steps_addMethod catalog type method
  | addIndexer type parameters itemType settable => exact steps_addMethod catalog type _
  | addConstructor type parameters => exact steps_addConstructor catalog type parameters

/-- The catalogs that sequences of operations make of the initial one. -/
abbrev Reached (catalog : Catalog) : Prop :=
  Relation.ReflTransGen Operation initial catalog

/-! ## Built catalogs -/

/-- The catalogs that the operations build, given types that exist already, if every type is
declared as one of its own kind and not as an array or a parameter. -/
inductive Built : Catalog → Prop where
  | initial : Built initial
  | defineAssembly {catalog : Catalog} (built : Built catalog) (name : AssemblyName)
      (isDynamic : Bool) : Built (catalog.defineAssembly name isDynamic).2
  | define {catalog : Catalog} (built : Built catalog) (declaration : TypeDeclaration)
      (admitted : ∀ parent ∈ declaration.interfaces ++ declaration.base.toList,
        catalog.Admits parent) : Built (catalog.define declaration).2
  | instantiate {catalog : Catalog} (built : Built catalog) {generic : TypeId}
      {arguments : List TypeId} {made : TypeId × Catalog}
      (admitted : ∀ argument ∈ arguments, catalog.Admits argument)
      (found : catalog.instantiate? generic arguments = some made) : Built made.2
  | arrayOf {catalog : Catalog} (built : Built catalog) {element : TypeId}
      (admitted : catalog.Admits element) (rank : Nat) : Built (catalog.arrayOf element rank).2
  | addMember {catalog : Catalog} (built : Built catalog) (type : TypeId) (name : String)
      (memberType : TypeId) (kind : MemberKind) (isStatic : Bool) :
      Built (catalog.addMember type name memberType kind isStatic)
  | addMethod {catalog : Catalog} (built : Built catalog) (type : TypeId) (method : Method) :
      Built (catalog.addMethod type method)
  | addIndexer {catalog : Catalog} (built : Built catalog) (type : TypeId)
      (parameters : List TypeId) (itemType : TypeId) (settable : Bool) :
      Built (catalog.addIndexer type parameters itemType settable)
  | addConstructor {catalog : Catalog} (built : Built catalog) (type : TypeId)
      (parameters : List TypeId) : Built (catalog.addConstructor type parameters)

theorem size_initial : initial.types.size = CoreType.count := by
  decide +kernel

/-- What can be decided for each core type holds of every entry of the initial
catalog. -/
theorem every_initial {property : TypeId → TypeEntry → Prop}
    (each : ∀ position < CoreType.count, ∀ entry, initial.find? (.entry position) = some entry →
      property (.entry position) entry) : initial.Every property := by
  intro type entry found
  cases type with
  | null => cases found
  | entry position =>
      have inside : position + 1 ≤ initial.types.size := admits_of_find? found
      rw [size_initial] at inside
      exact each position inside entry found

theorem ordered_initial : initial.Ordered := by
  refine every_initial fun position inside entry found => ?_
  have all : ∀ position < CoreType.count, (initial.find? (.entry position)).all fun entry =>
      entry.parts.all fun part => decide (part.height < position + 1) := by
    decide +kernel
  have here := all position inside
  rw [found, Option.all_some, List.all_eq_true] at here
  exact fun part member => of_decide_eq_true (here part member)

/-- A sequence of operations is a sequence of elementary steps. -/
theorem Reached.steps {catalog : Catalog} (reached : Reached catalog) :
    Steps Catalog.initial catalog := by
  induction reached with
  | refl => exact .refl
  | tail _ operation ih =>
      have core := ih.extends.size_le
      rw [size_initial] at core
      exact ih.trans (operation.steps (ih.ordered ordered_initial) core)

/-- **Nothing of the initial catalog is lost.** -/
theorem Reached.extends_initial {catalog : Catalog} (reached : Reached catalog) :
    catalog.Extends Catalog.initial :=
  reached.steps.extends

/-- **Every type is made of older ones**, whatever kinds the types are added with. -/
theorem Reached.ordered {catalog : Catalog} (reached : Reached catalog) : catalog.Ordered :=
  reached.steps.ordered ordered_initial

theorem Built.reached {catalog : Catalog} (built : Built catalog) : Reached catalog := by
  induction built with
  | initial => exact .refl
  | defineAssembly _ name isDynamic ih => exact ih.tail (.defineAssembly name isDynamic)
  | define _ declaration admitted ih =>
      refine ih.tail (.define (.nominal declaration.kind) declaration ?_)
      rw [TypeKind.parts_nominal, List.append_nil]
      exact admitted
  | instantiate _ admitted found ih => exact ih.tail (.instantiate admitted found)
  | arrayOf _ admitted rank ih => exact ih.tail (.arrayOf admitted rank)
  | addMember _ type name memberType kind isStatic ih =>
      exact ih.tail (.addMember type name memberType kind isStatic)
  | addMethod _ type method ih => exact ih.tail (.addMethod type method)
  | addIndexer _ type parameters itemType settable ih =>
      exact ih.tail (.addIndexer type parameters itemType settable)
  | addConstructor _ type parameters ih => exact ih.tail (.addConstructor type parameters)

theorem Built.extends_initial {catalog : Catalog} (built : Built catalog) :
    catalog.Extends Catalog.initial :=
  built.reached.extends_initial

/-- **Every type is made of older ones.** -/
theorem Built.ordered {catalog : Catalog} (built : Built catalog) : catalog.Ordered :=
  built.reached.ordered

/-- What every type declares names that type as its declaring type. -/
def Owned (catalog : Catalog) : Prop :=
  catalog.Every fun type entry => entry.OwnedBy type

theorem owned_initial : initial.Owned := by
  refine every_initial fun position inside entry found => ?_
  have all : ∀ position < CoreType.count, (initial.find? (.entry position)).all fun entry =>
      entry.members.all (fun member => member.declaringType = .entry position) &&
        entry.methods.all (fun method => method.declaringType = .entry position) &&
          entry.constructors.all fun made => made.declaringType = .entry position := by
    decide +kernel
  have here := all position inside
  rw [found, Option.all_some] at here
  simp only [Bool.and_eq_true, List.all_eq_true, decide_eq_true_eq] at here
  obtain ⟨⟨members, methods⟩, constructors⟩ := here
  exact ⟨members, methods, constructors⟩

/-- **What a type declares names that type as its declaring type**, whatever kinds the types are
added with. -/
theorem Reached.owned {catalog : Catalog} (reached : Reached catalog) : catalog.Owned :=
  reached.steps.every (fun _ _ bare _ => bare.ownedBy _)
    (fun _ _ _ owned declares => owned.declares declares) owned_initial

/-- **What a type declares names that type as its declaring type.** -/
theorem Built.owned {catalog : Catalog} (built : Built catalog) : catalog.Owned :=
  built.reached.owned

/-! ## Assemblies -/

theorem assemblies_modify (catalog : Catalog) (type : TypeId) (change : TypeEntry → TypeEntry) :
    (catalog.modify type change).assemblies = catalog.assemblies := by
  cases type <;> rfl

/-- An operation leaves the assemblies as they are, or adds one whose simple name is new. -/
theorem Operation.assemblies_cases {catalog grown : Catalog} (operation : Operation catalog grown) :
    grown.assemblies = catalog.assemblies ∨
      ∃ added, catalog.findAssembly? added.name.name = none ∧
        grown.assemblies = catalog.assemblies.push added := by
  cases operation with
  | defineAssembly name isDynamic =>
      unfold Catalog.defineAssembly
      split
      · exact .inl rfl
      · rename_i unknown
        exact .inr ⟨{ name, isDynamic }, unknown, rfl⟩
  | define kind declaration _ => exact .inl (assemblies_defineAs catalog kind declaration)
  | instantiate _ found =>
      obtain ⟨_, _, _, _, _, ⟨_, same⟩ | ⟨_, _, isMade⟩⟩ := cases_of_instantiate? found
      · exact .inl (congrArg Catalog.assemblies same)
      · exact .inl ((congrArg Catalog.assemblies isMade).trans rfl)
  | arrayOf _ rank =>
      rcases cases_of_arrayOf catalog _ rank with ⟨_, same⟩ | ⟨_, made⟩
      · exact .inl (congrArg Catalog.assemblies same)
      · exact .inl (congrArg (fun made => made.2.assemblies) made)
  | addMember | addMethod | addIndexer | addConstructor => exact .inl (assemblies_modify _ _ _)

/-- The first assembly is the core assembly. -/
theorem Reached.exists_coreAssembly {catalog : Catalog} (reached : Reached catalog) :
    ∃ assembly, catalog.assembly? coreAssembly = some assembly ∧
      assembly.name.name = coreAssemblyName := by
  induction reached with
  | refl =>
      have first : (initial.assembly? coreAssembly).map (·.name.name) = some coreAssemblyName := by
        decide +kernel
      exact Option.map_eq_some_iff.mp first
  | tail _ operation ih =>
      obtain ⟨assembly, known, isCore⟩ := ih
      refine ⟨assembly, ?_, isCore⟩
      rcases operation.assemblies_cases with same | ⟨added, _, more⟩
      · exact (congrArg (·[0]?) same).trans known
      · have inside := (Array.getElem?_eq_some_iff.mp known).1
        refine (congrArg (·[0]?) more).trans ((Array.getElem?_push_lt inside).trans ?_)
        exact (Array.getElem?_eq_getElem inside).symm.trans known

/-! ## A small built catalog -/

instance (catalog : Catalog) (type : TypeId) : Decidable (catalog.Admits type) :=
  inferInstanceAs (Decidable (type.height ≤ catalog.types.size))

namespace Crm

def audited : TypeId := .entry 16

def entity : TypeId := .entry 17

def person : TypeId := .entry 18

def customer : TypeId := .entry 19

/-- The array type of entities. -/
def entities : TypeId := .entry 20

/-- An interface, and three classes each of which is the base of the next one. -/
def declarations : List TypeDeclaration :=
  let declare (name : String) (kind : NominalKind) (base : Option TypeId)
      (interfaces : List TypeId) : TypeDeclaration :=
    { name, namespaceName := "Contoso.Crm", assembly := .entry 1, kind, base, interfaces }
  [ declare "IAudited" .interfaceType none [],
    declare "Entity" .classType (some CoreType.object) [audited],
    declare "Person" .classType (some entity) [],
    declare "Customer" .classType (some person) [CoreType.comparable] ]

/-- The initial catalog with the assembly `Contoso.Crm` and its types. -/
def catalog : Catalog :=
  let assembled := (Catalog.initial.defineAssembly { name := "Contoso.Crm" } false).2
  let declared := declarations.foldl (fun catalog declaration => (catalog.define declaration).2)
    assembled
  (declared.arrayOf entity 1).2

theorem built_catalog : catalog.Built := by
  refine .arrayOf (.define (.define (.define (.define (.defineAssembly .initial _ _) _ ?_) _ ?_)
    _ ?_) _ ?_) ?_ 1
  all_goals decide +kernel

end Crm

/-! ## What the views of a type are taken from -/

/-- What is looked up in a table stands in it. -/
theorem mem_of_lookup {α β : Type} [BEq α] [LawfulBEq α] {table : List (α × β)} {key : α}
    {value : β} (found : table.lookup key = some value) : (key, value) ∈ table := by
  obtain ⟨front, back, split, _⟩ := List.lookup_eq_some_iff.mp found
  rw [split]
  exact List.mem_append_right _ List.mem_cons_self

/-- What is in the list that a catalog gives for a type is in the entry of the type. -/
theorem exists_find?_of_mem_getD {catalog : Catalog} {α : Type} {list : TypeEntry → List α}
    {type : TypeId} {item : α} (inside : item ∈ ((catalog.find? type).map list).getD []) :
    ∃ entry, catalog.find? type = some entry ∧ item ∈ list entry := by
  cases found : catalog.find? type with
  | none => simp [found] at inside
  | some entry =>
      rw [found, Option.map_some, Option.getD_some] at inside
      exact ⟨entry, rfl, inside⟩

theorem exists_of_element? {catalog : Catalog} {type element : TypeId}
    (isArray : catalog.element? type = some element) :
    ∃ entry rank, catalog.find? type = some entry ∧ entry.kind = .array element rank := by
  unfold element? at isArray
  cases found : catalog.find? type with
  | none => simp [found] at isArray
  | some entry =>
      rw [found, Option.map_some] at isArray
      split at isArray
      · rename_i kind
        cases isArray
        exact ⟨entry, _, rfl, Option.some.inj kind⟩
      · cases isArray

theorem exists_of_isClosedInstantiation {catalog : Catalog} {type : TypeId}
    (instantiated : catalog.isClosedInstantiation type = true) :
    ∃ entry generic arguments, catalog.find? type = some entry ∧
      entry.genericity = .instantiation generic arguments := by
  unfold isClosedInstantiation at instantiated
  cases found : catalog.find? type with
  | none => simp [found] at instantiated
  | some entry =>
      rw [found, Option.map_some] at instantiated
      split at instantiated
      · rename_i generic
        exact ⟨entry, _, _, rfl, Option.some.inj generic⟩
      · cases instantiated

/-! ## What order says of the parts of a type -/

/-- The first type is a part of the second one: an interface, its base type, its element, or its
definition or an argument of it. -/
def IsPartOf (catalog : Catalog) (part type : TypeId) : Prop :=
  ∃ entry, catalog.find? type = some entry ∧ part ∈ entry.parts

section Parts

variable {catalog : Catalog} {type : TypeId} {entry : TypeEntry}
  (found : catalog.find? type = some entry)
include found

theorem isPartOf_interface {interface : TypeId} (declared : interface ∈ entry.interfaces) :
    catalog.IsPartOf interface type := by
  refine ⟨entry, found, ?_⟩
  simp only [TypeEntry.parts, declared, List.mem_append, true_or]

theorem isPartOf_base {base : TypeId} (isBase : entry.base = some base) :
    catalog.IsPartOf base type := by
  refine ⟨entry, found, ?_⟩
  simp only [TypeEntry.parts, isBase, Option.toList_some, List.mem_append, List.mem_singleton,
    or_true, true_or]

theorem isPartOf_element {element : TypeId} {rank : Nat}
    (isArray : entry.kind = .array element rank) : catalog.IsPartOf element type := by
  refine ⟨entry, found, ?_⟩
  simp only [TypeEntry.parts, isArray, TypeKind.parts, List.mem_append, List.mem_singleton,
    or_true, true_or]

theorem isPartOf_argument {generic argument : TypeId} {arguments : List TypeId}
    (isInstantiation : entry.genericity = .instantiation generic arguments)
    (isArgument : argument ∈ arguments) : catalog.IsPartOf argument type := by
  refine ⟨entry, found, ?_⟩
  simp only [TypeEntry.parts, isInstantiation, Genericity.parts, List.mem_append, List.mem_cons,
    isArgument, or_true]

end Parts

section Ordered

variable {catalog : Catalog} (ordered : catalog.Ordered)
include ordered

theorem Ordered.part_lt {part type : TypeId} (isPart : catalog.IsPartOf part type) :
    part.height < type.height := by
  obtain ⟨entry, found, inside⟩ := isPart
  exact ordered type entry found part inside

theorem Ordered.interface_lt {type interface : TypeId}
    (declared : interface ∈ catalog.interfaces type) : interface.height < type.height := by
  obtain ⟨entry, found, isInterface⟩ := exists_find?_of_mem_getD declared
  exact ordered.part_lt (isPartOf_interface found isInterface)

theorem Ordered.base_lt {type base : TypeId} (declared : catalog.base? type = some base) :
    base.height < type.height := by
  obtain ⟨entry, found, isBase⟩ := Option.bind_eq_some_iff.mp declared
  exact ordered.part_lt (isPartOf_base found isBase)

theorem Ordered.element_lt {type element : TypeId}
    (isArray : catalog.element? type = some element) : element.height < type.height := by
  obtain ⟨entry, rank, found, kind⟩ := exists_of_element? isArray
  exact ordered.part_lt (isPartOf_element found kind)

theorem Ordered.argument_lt {type argument : TypeId}
    (instantiated : catalog.isClosedInstantiation type = true)
    (isArgument : argument ∈ catalog.genericArguments type) : argument.height < type.height := by
  obtain ⟨entry, generic, arguments, found, applied⟩ := exists_of_isClosedInstantiation instantiated
  rw [genericArguments, found, Option.map_some, Option.getD_some, applied] at isArgument
  exact ordered.part_lt (isPartOf_argument found applied isArgument)

end Ordered

/-! ## What ownership and persistence say of the views of a type -/

theorem Owned.declaringType_of_mem_members {catalog : Catalog} (owned : catalog.Owned)
    {type : TypeId} {member : Member} (declared : member ∈ catalog.members type) :
    member.declaringType = type := by
  obtain ⟨entry, found, inside⟩ := exists_find?_of_mem_getD declared
  exact (owned type entry found).member member inside

theorem Owned.declaringType_of_mem_methods {catalog : Catalog} (owned : catalog.Owned)
    {type : TypeId} {method : Method} (declared : method ∈ catalog.methods type) :
    method.declaringType = type := by
  obtain ⟨entry, found, inside⟩ := exists_find?_of_mem_getD declared
  exact (owned type entry found).method method inside

theorem Owned.declaringType_of_mem_constructors {catalog : Catalog} (owned : catalog.Owned)
    {type : TypeId} {constructor : Constructor}
    (declared : constructor ∈ catalog.constructors type) : constructor.declaringType = type := by
  obtain ⟨entry, found, inside⟩ := exists_find?_of_mem_getD declared
  exact (owned type entry found).constructor constructor inside

theorem Extends.methods_prefix {later earlier : Catalog} (extended : later.Extends earlier)
    (type : TypeId) : earlier.methods type <+: later.methods type := by
  unfold methods
  cases found : earlier.find? type with
  | none => exact List.nil_prefix
  | some entry =>
      obtain ⟨grown, known, more⟩ := extended.types type entry found
      rw [known]
      exact more.methods

theorem Extends.isValueType_eq {later earlier : Catalog} (extended : later.Extends earlier)
    {type : TypeId} (known : earlier.has type = true) :
    later.isValueType type = earlier.isValueType type := by
  obtain ⟨entry, found⟩ := Option.isSome_iff_exists.mp known
  obtain ⟨grown, knownLater, more⟩ := extended.types type entry found
  simp only [isValueType, found, knownLater, Option.any_some, TypeEntry.isValueType, more.kind]

end Catalog

end ExprImports
