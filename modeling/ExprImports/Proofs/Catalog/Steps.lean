import ExprImports.Catalog.Initial
import Mathlib.Logic.Relation

/-!
# Elementary steps

Whatever operation is used, the types of a catalog change by elementary steps only: a type
without members of its own is put behind all others, or one member, method or constructor is put
behind those of a type, which becomes its declaring type (`Step`). The tables only gain entries
under keys that they did not have.

**Persistence.** Nothing that a catalog knows of a type is lost or replaced by a step, and what is
found in its tables is found there afterwards (`Step.extends`).

**Operations.** What an operation makes is told once: a declaration puts its type and its
parameters behind all others (`find?_defineAs_cases`), an instantiation is known already or made
of its definition (`cases_of_instantiate?`), and an array type is known already or made for its
element (`cases_of_arrayOf`).
-/

set_option autoImplicit false

namespace ExprImports

/-! ## The parts of a type -/

/-- The element of an array type. -/
def TypeKind.parts : TypeKind → List TypeId
  | .array element _ => [element]
  | _ => []

@[simp] theorem TypeKind.parts_nominal (kind : NominalKind) :
    (TypeKind.nominal kind).parts = [] := rfl

/-- The definition and the arguments of an instantiation. -/
def Genericity.parts : Genericity → List TypeId
  | .instantiation generic arguments => generic :: arguments
  | _ => []

namespace TypeEntry

/-- The types that a type is made of. -/
def parts (entry : TypeEntry) : List TypeId :=
  entry.interfaces ++ entry.base.toList ++ entry.kind.parts ++ entry.genericity.parts

/-- Declares nothing: no member, no method and no constructor. -/
def IsBare (entry : TypeEntry) : Prop :=
  entry.members = [] ∧ entry.methods = [] ∧ entry.constructors = []

/-- All that an entry declares names the type as the declaring type. -/
structure OwnedBy (type : TypeId) (entry : TypeEntry) : Prop where
  member : ∀ member ∈ entry.members, member.declaringType = type
  method : ∀ method ∈ entry.methods, method.declaringType = type
  constructor : ∀ constructor ∈ entry.constructors, constructor.declaringType = type

/-- The same type with one more member, method or constructor of its own. -/
inductive Declares (type : TypeId) (entry : TypeEntry) : TypeEntry → Prop where
  | member (member : Member) (own : member.declaringType = type) :
      Declares type entry { entry with members := entry.members ++ [member] }
  | method (method : Method) (own : method.declaringType = type) :
      Declares type entry { entry with methods := entry.methods ++ [method] }
  | constructor (constructor : Constructor) (own : constructor.declaringType = type) :
      Declares type entry { entry with constructors := entry.constructors ++ [constructor] }

/-- The same type, known in as much detail or in more. -/
structure Extends (later earlier : TypeEntry) : Prop where
  name : later.name = earlier.name
  namespaceName : later.namespaceName = earlier.namespaceName
  assembly : later.assembly = earlier.assembly
  kind : later.kind = earlier.kind
  base : later.base = earlier.base
  interfaces : later.interfaces = earlier.interfaces
  genericity : later.genericity = earlier.genericity
  members : earlier.members <+: later.members
  methods : earlier.methods <+: later.methods
  constructors : earlier.constructors <+: later.constructors

theorem Extends.refl (entry : TypeEntry) : entry.Extends entry :=
  ⟨rfl, rfl, rfl, rfl, rfl, rfl, rfl, List.prefix_rfl, List.prefix_rfl, List.prefix_rfl⟩

theorem Extends.trans {last middle first : TypeEntry} (second : last.Extends middle)
    (start : middle.Extends first) : last.Extends first where
  name := second.name.trans start.name
  namespaceName := second.namespaceName.trans start.namespaceName
  assembly := second.assembly.trans start.assembly
  kind := second.kind.trans start.kind
  base := second.base.trans start.base
  interfaces := second.interfaces.trans start.interfaces
  genericity := second.genericity.trans start.genericity
  members := start.members.trans second.members
  methods := start.methods.trans second.methods
  constructors := start.constructors.trans second.constructors

theorem Declares.extends {type : TypeId} {entry grown : TypeEntry}
    (declares : Declares type entry grown) : grown.Extends entry := by
  cases declares with
  | member member _ => exact { Extends.refl entry with members := List.prefix_append _ _ }
  | method method _ => exact { Extends.refl entry with methods := List.prefix_append _ _ }
  | constructor constructor _ =>
      exact { Extends.refl entry with constructors := List.prefix_append _ _ }

theorem Extends.parts {later earlier : TypeEntry} (grown : later.Extends earlier) :
    later.parts = earlier.parts := by
  simp only [TypeEntry.parts, grown.interfaces, grown.base, grown.kind, grown.genericity]

theorem IsBare.ownedBy {entry : TypeEntry} (bare : entry.IsBare) (type : TypeId) :
    entry.OwnedBy type := by
  obtain ⟨members, methods, constructors⟩ := bare
  constructor <;> simp [members, methods, constructors]

theorem OwnedBy.declares {type : TypeId} {entry grown : TypeEntry} (owned : entry.OwnedBy type)
    (declares : Declares type entry grown) : grown.OwnedBy type := by
  cases declares with
  | member member own =>
      refine { owned with member := fun other inside => ?_ }
      rcases List.mem_append.mp inside with old | new
      · exact owned.member other old
      · rw [List.mem_singleton.mp new, own]
  | method method own =>
      refine { owned with method := fun other inside => ?_ }
      rcases List.mem_append.mp inside with old | new
      · exact owned.method other old
      · rw [List.mem_singleton.mp new, own]
  | constructor constructor own =>
      refine { owned with constructor := fun other inside => ?_ }
      rcases List.mem_append.mp inside with old | new
      · exact owned.constructor other old
      · rw [List.mem_singleton.mp new, own]

end TypeEntry

namespace Catalog

/-! ## Looking up types in a grown catalog -/

theorem find?_push (catalog : Catalog) (entry : TypeEntry) (type : TypeId) :
    (catalog.push entry).find? type =
      if type = catalog.nextId then some entry else catalog.find? type := by
  cases type with
  | null => simp [find?, nextId]
  | entry position => simp only [find?, push, Array.getElem?_push, nextId, TypeId.entry.injEq]

theorem find?_modify (catalog : Catalog) (changed type : TypeId)
    (change : TypeEntry → TypeEntry) :
    (catalog.modify changed change).find? type =
      if changed = type then (catalog.find? type).map change else catalog.find? type := by
  cases changed with
  | null => cases type <;> simp [find?, modify]
  | entry place =>
      cases type with
      | null => simp [find?]
      | entry position =>
          simp only [find?, modify, Array.getElem?_modify, TypeId.entry.injEq]

theorem find?_of_types_eq {grown catalog : Catalog} (same : grown.types = catalog.types)
    (type : TypeId) : grown.find? type = catalog.find? type := by
  cases type with
  | null => rfl
  | entry position => simp only [find?, same]

/-- The null type and every type issued so far. -/
def Admits (catalog : Catalog) (type : TypeId) : Prop :=
  type.height ≤ catalog.types.size

theorem admits_of_find? {catalog : Catalog} {type : TypeId} {entry : TypeEntry}
    (found : catalog.find? type = some entry) : catalog.Admits type := by
  cases type with
  | null => simp [find?] at found
  | entry position =>
      obtain ⟨inside, _⟩ := Array.getElem?_eq_some_iff.mp found
      exact inside

/-- The next type has no entry yet. -/
theorem find?_nextId (catalog : Catalog) : catalog.find? catalog.nextId = none := by
  simp [find?, nextId]

/-! ## Elementary steps -/

/-- The array types and the instantiations that are found in the earlier catalog are found in
the later one. -/
structure KeepsTables (later earlier : Catalog) : Prop where
  arrays : ∀ element rank array, earlier.findArray? element rank = some array →
    later.findArray? element rank = some array
  instances : ∀ generic arguments instantiation,
    earlier.findInstantiation? generic arguments = some instantiation →
      later.findInstantiation? generic arguments = some instantiation

theorem KeepsTables.of_eq {later earlier : Catalog} (arrays : later.arrays = earlier.arrays)
    (instances : later.instances = earlier.instances) : later.KeepsTables earlier where
  arrays _ _ _ found := by
    rw [findArray?, arrays]
    exact found
  instances _ _ _ found := by
    rw [findInstantiation?, instances]
    exact found

/-- What is found in a table is found behind an entry with a key that was not there. -/
theorem lookup_cons_of_lookup {α β : Type} [BEq α] [LawfulBEq α] {table : List (α × β)}
    {key new : α} {value added : β} (unknown : table.lookup new = none)
    (found : table.lookup key = some value) :
    ((new, added) :: table).lookup key = some value := by
  have other : (key == new) = false := by
    rw [beq_eq_false_iff_ne]
    rintro rfl
    rw [unknown] at found
    cases found
  rw [List.lookup_cons, other]
  exact found

theorem keepsTables_modify (catalog : Catalog) (type : TypeId)
    (change : TypeEntry → TypeEntry) : (catalog.modify type change).KeepsTables catalog := by
  cases type <;> exact .of_eq rfl rfl

/-- One elementary change of a catalog. The first kind leaves the types alone and changes
assemblies, names and tables only. -/
inductive Step (catalog : Catalog) : Catalog → Prop where
  | relabel (grown : Catalog) (same : grown.types = catalog.types)
      (keeps : grown.KeepsTables catalog) : Step catalog grown
  | push (entry : TypeEntry) (bare : entry.IsBare)
      (admitted : ∀ part ∈ entry.parts, catalog.Admits part) : Step catalog (catalog.push entry)
  | declare (type : TypeId) (change : TypeEntry → TypeEntry)
      (declares : ∀ entry : TypeEntry, entry.Declares type (change entry)) :
      Step catalog (catalog.modify type change)

/-- Every type of the earlier catalog is known in the later one, in as much detail
or in more, and what its tables hold is found there. -/
structure Extends (later earlier : Catalog) : Prop extends later.KeepsTables earlier where
  types : ∀ type entry, earlier.find? type = some entry →
    ∃ grown, later.find? type = some grown ∧ grown.Extends entry

theorem Extends.refl (catalog : Catalog) : catalog.Extends catalog where
  arrays _ _ _ found := found
  instances _ _ _ found := found
  types _ entry found := ⟨entry, found, .refl entry⟩

theorem Extends.trans {last middle first : Catalog} (second : last.Extends middle)
    (start : middle.Extends first) : last.Extends first where
  arrays _ _ _ found := second.arrays _ _ _ (start.arrays _ _ _ found)
  instances _ _ _ found := second.instances _ _ _ (start.instances _ _ _ found)
  types type entry found := by
    obtain ⟨between, known, grown⟩ := start.types type entry found
    obtain ⟨final, knownLast, grownLast⟩ := second.types type between known
    exact ⟨final, knownLast, grownLast.trans grown⟩

theorem Extends.size_le {later earlier : Catalog} (extended : later.Extends earlier) :
    earlier.types.size ≤ later.types.size := by
  rcases Nat.eq_zero_or_pos earlier.types.size with none | some
  · rw [none]
    exact Nat.zero_le _
  · have last : earlier.types.size - 1 < earlier.types.size := Nat.sub_lt some Nat.one_pos
    obtain ⟨_, known, _⟩ := extended.types (.entry (earlier.types.size - 1)) _
      (Array.getElem?_eq_getElem last)
    have admitted : earlier.types.size - 1 + 1 ≤ later.types.size := admits_of_find? known
    omega

/-- **A step loses nothing.** -/
theorem Step.extends {catalog grown : Catalog} (step : Step catalog grown) :
    grown.Extends catalog := by
  cases step with
  | relabel _ same keeps =>
      refine ⟨keeps, fun type entry found => ⟨entry, ?_, .refl entry⟩⟩
      rw [find?_of_types_eq same, found]
  | push added _ _ =>
      refine ⟨.of_eq rfl rfl, fun type entry found => ⟨entry, ?_, .refl entry⟩⟩
      have old : type ≠ catalog.nextId := by
        rintro rfl
        rw [find?_nextId] at found
        cases found
      rw [find?_push, if_neg old, found]
  | declare changed change declares =>
      refine ⟨keepsTables_modify _ _ _, fun type entry found => ?_⟩
      by_cases here : changed = type
      · subst here
        exact ⟨change entry, by rw [find?_modify, if_pos rfl, found, Option.map_some],
          (declares entry).extends⟩
      · exact ⟨entry, by rw [find?_modify, if_neg here, found], .refl entry⟩

/-- A property of every entry, given its type. -/
def Every (catalog : Catalog) (property : TypeId → TypeEntry → Prop) : Prop :=
  ∀ type entry, catalog.find? type = some entry → property type entry

/-- What holds of every new entry, and is kept by declarations, is kept by a step. -/
theorem Step.every {catalog grown : Catalog} {property : TypeId → TypeEntry → Prop}
    (step : Step catalog grown)
    (pushed : ∀ entry, entry.IsBare → (∀ part ∈ entry.parts, catalog.Admits part) →
      property catalog.nextId entry)
    (declared : ∀ type entry changed, property type entry → entry.Declares type changed →
      property type changed)
    (holds : catalog.Every property) : grown.Every property := by
  intro type entry found
  cases step with
  | relabel _ same _ => exact holds type entry (by rw [← found, find?_of_types_eq same])
  | push added bare admitted =>
      rw [find?_push] at found
      split at found
      · rename_i new
        cases found
        exact new ▸ pushed entry bare admitted
      · exact holds type entry found
  | declare changed change declares =>
      rw [find?_modify] at found
      split at found
      · rename_i here
        subst here
        obtain ⟨old, known, rfl⟩ := Option.map_eq_some_iff.mp found
        exact declared _ _ _ (holds _ old known) (declares old)
      · exact holds type entry found

/-! ## What the operations make -/

theorem extends_push (catalog : Catalog) (entry : TypeEntry) :
    (catalog.push entry).Extends catalog := by
  refine ⟨.of_eq rfl rfl, fun type known found => ⟨known, ?_, .refl known⟩⟩
  have old : type ≠ catalog.nextId := by
    rintro rfl
    rw [find?_nextId] at found
    cases found
  rw [find?_push, if_neg old, found]

theorem step_recordName (catalog : Catalog) (type : TypeId) :
    Step catalog (catalog.recordName type) :=
  .relabel _ rfl (.of_eq rfl rfl)

theorem step_recordArray {catalog : Catalog} {element : TypeId} {rank : Nat}
    (unknown : catalog.findArray? element rank = none) (array : TypeId) :
    Step catalog (catalog.recordArray element rank array) :=
  .relabel _ rfl {
    arrays := fun _ _ _ found => lookup_cons_of_lookup unknown found
    instances := fun _ _ _ found => found }

theorem step_recordInstance {catalog : Catalog} {generic : TypeId} {arguments : List TypeId}
    (unknown : catalog.findInstantiation? generic arguments = none) (instantiation : TypeId) :
    Step catalog (catalog.recordInstance generic arguments instantiation) :=
  .relabel _ rfl {
    arrays := fun _ _ _ found => found
    instances := fun _ _ _ found => lookup_cons_of_lookup unknown found }

theorem extends_recordName (catalog : Catalog) (type : TypeId) :
    (catalog.recordName type).Extends catalog :=
  (step_recordName catalog type).extends

theorem find?_push_nextId (catalog : Catalog) (entry : TypeEntry) :
    (catalog.push entry).find? catalog.nextId = some entry := by
  rw [find?_push, if_pos rfl]

section Declaring

variable {before : Catalog} {kind : TypeKind} {declaration : TypeDeclaration} {type : TypeId}
  {entry : TypeEntry}

/-- Putting several types behind all others changes nothing else. -/
theorem pushAll_eq (made : String → TypeEntry) (names : List String) (catalog : Catalog) :
    names.foldl (fun grown name => grown.push (made name)) catalog =
      { catalog with types := catalog.types ++ (names.map made).toArray } := by
  induction names generalizing catalog with
  | nil => simp
  | cons name rest ih =>
      rw [List.foldl_cons, ih]
      simp [push]

theorem types_defineAs (catalog : Catalog) (kind : TypeKind) (declaration : TypeDeclaration) :
    (catalog.defineAs kind declaration).2.types =
      catalog.types.push (declaration.entry kind catalog.types.size) ++
        (declaration.parameters.map declaration.parameterEntry).toArray := by
  rw [defineAs, pushAll_eq]
  rfl

theorem arrays_defineAs (catalog : Catalog) (kind : TypeKind) (declaration : TypeDeclaration) :
    (catalog.defineAs kind declaration).2.arrays = catalog.arrays := by
  rw [defineAs, pushAll_eq]
  rfl

theorem instances_defineAs (catalog : Catalog) (kind : TypeKind)
    (declaration : TypeDeclaration) :
    (catalog.defineAs kind declaration).2.instances = catalog.instances := by
  rw [defineAs, pushAll_eq]
  rfl

theorem assemblies_defineAs (catalog : Catalog) (kind : TypeKind)
    (declaration : TypeDeclaration) :
    (catalog.defineAs kind declaration).2.assemblies = catalog.assemblies := by
  rw [defineAs, pushAll_eq]
  rfl

theorem find?_defineAs_old (found : before.find? type = some entry) :
    (before.defineAs kind declaration).2.find? type = some entry := by
  cases type with
  | null => cases found
  | entry position =>
      have inside : position < before.types.size := admits_of_find? found
      simp only [find?, types_defineAs] at found ⊢
      rw [Array.getElem?_append_left (by simp; omega), Array.getElem?_push,
        if_neg (Nat.ne_of_lt inside), found]

theorem find?_defineAs_nextId (catalog : Catalog) (kind : TypeKind)
    (declaration : TypeDeclaration) :
    (catalog.defineAs kind declaration).2.find? catalog.nextId =
      some (declaration.entry kind catalog.types.size) := by
  simp only [nextId, find?, types_defineAs]
  rw [Array.getElem?_append_left (by simp)]
  simp

theorem find?_defineAs_parameter (catalog : Catalog) (kind : TypeKind)
    (declaration : TypeDeclaration) {index : Nat}
    (inside : index < declaration.parameters.length) :
    (catalog.defineAs kind declaration).2.find? (.entry (catalog.types.size + 1 + index)) =
      some (declaration.parameterEntry declaration.parameters[index]) := by
  simp only [find?, types_defineAs]
  rw [Array.getElem?_append_right (by simp)]
  simp [inside]

/-- **What a declaration makes**: the type, and behind it its parameters. -/
theorem find?_defineAs_cases
    (found : (before.defineAs kind declaration).2.find? type = some entry) :
    before.find? type = some entry ∨
      (type = before.nextId ∧ entry = declaration.entry kind before.types.size) ∨
        ∃ name ∈ declaration.parameters, type ∈ declaration.parameterIds before.types.size ∧
          entry = declaration.parameterEntry name := by
  cases type with
  | null => cases found
  | entry position =>
      simp only [find?, types_defineAs, Array.getElem?_append] at found
      split at found
      · rename_i inside
        rw [Array.getElem?_push] at found
        split at found
        · rename_i here
          exact .inr (.inl ⟨congrArg TypeId.entry here, (Option.some.inj found).symm⟩)
        · exact .inl found
      · rename_i behind
        rw [Array.size_push] at found behind
        rw [List.getElem?_toArray] at found
        obtain ⟨index, isMade⟩ := List.getElem?_eq_some_iff.mp found
        rw [List.length_map] at index
        rw [List.getElem_map] at isMade
        refine .inr (.inr ⟨_, List.getElem_mem index, ?_, isMade.symm⟩)
        refine List.mem_map.mpr ⟨_, List.mem_range.mpr index, congrArg TypeId.entry ?_⟩
        omega

theorem extends_defineAs (catalog : Catalog) (kind : TypeKind) (declaration : TypeDeclaration) :
    (catalog.defineAs kind declaration).2.Extends catalog where
  toKeepsTables := .of_eq (arrays_defineAs _ _ _) (instances_defineAs _ _ _)
  types _ entry found := ⟨entry, find?_defineAs_old found, .refl entry⟩

end Declaring

section Making

variable {catalog : Catalog}

/-- **What instantiating a definition makes**: the instantiation is known already, or it is made
as the next type. -/
theorem cases_of_instantiate? {generic : TypeId} {arguments : List TypeId}
    {made : TypeId × Catalog} (found : catalog.instantiate? generic arguments = some made) :
    ∃ entry parameters, catalog.find? generic = some entry ∧
      entry.genericity = .definition parameters ∧ parameters.length = arguments.length ∧
        ((catalog.findInstantiation? generic arguments = some made.1 ∧ made.2 = catalog) ∨
          (catalog.findInstantiation? generic arguments = none ∧ made.1 = catalog.nextId ∧
            made.2 = ((catalog.push (entry.instantiate generic arguments)).recordInstance generic
              arguments catalog.nextId).recordName catalog.nextId)) := by
  unfold instantiate? at found
  split at found
  · cases found
  · rename_i entry known
    split at found
    · rename_i parameters isDefinition
      split at found
      · cases found
      · rename_i sameLength
        rw [Decidable.not_not] at sameLength
        refine ⟨entry, parameters, known, isDefinition, sameLength, ?_⟩
        split at found
        · rename_i old isOld
          cases found
          exact .inl ⟨isOld, rfl⟩
        · rename_i isNew
          cases found
          exact .inr ⟨isNew, rfl, rfl⟩
    · cases found

theorem arrayOf_of_findArray? {element array : TypeId} {rank : Nat}
    (found : catalog.findArray? element rank = some array) :
    catalog.arrayOf element rank = (array, catalog) := by
  rw [arrayOf, found]

/-- **What asking for an array type makes**: it is known already, or it is made as the next
type. -/
theorem cases_of_arrayOf (catalog : Catalog) (element : TypeId) (rank : Nat) :
    (catalog.findArray? element rank = some (catalog.arrayOf element rank).1 ∧
        (catalog.arrayOf element rank).2 = catalog) ∨
      (catalog.findArray? element rank = none ∧
        catalog.arrayOf element rank = (catalog.nextId,
          (catalog.push (arrayEntry element rank (catalog.find? element))).recordArray element rank
            catalog.nextId)) := by
  cases known : catalog.findArray? element rank with
  | some array =>
      rw [arrayOf_of_findArray? known]
      exact .inl ⟨rfl, rfl⟩
  | none =>
      rw [arrayOf, known]
      exact .inr ⟨rfl, rfl⟩

theorem extends_arrayOf (catalog : Catalog) (element : TypeId) (rank : Nat) :
    (catalog.arrayOf element rank).2.Extends catalog := by
  rcases cases_of_arrayOf catalog element rank with ⟨_, same⟩ | ⟨unknown, made⟩
  · rw [same]
    exact .refl catalog
  · let grown := catalog.push (arrayEntry element rank (catalog.find? element))
    have stillUnknown : grown.findArray? element rank = none := unknown
    have entered := step_recordArray stillUnknown catalog.nextId
    rw [made]
    exact entered.extends.trans (extends_push catalog _)

theorem extends_instantiate {generic : TypeId} {arguments : List TypeId} {made : TypeId × Catalog}
    (found : catalog.instantiate? generic arguments = some made) :
    made.2.Extends catalog := by
  obtain ⟨entry, _, _, _, _, ⟨_, same⟩ | ⟨unknown, _, isMade⟩⟩ := cases_of_instantiate? found
  · rw [same]
    exact .refl catalog
  · let grown := catalog.push (entry.instantiate generic arguments)
    have stillUnknown : grown.findInstantiation? generic arguments = none := unknown
    have entered := step_recordInstance stillUnknown catalog.nextId
    rw [isMade]
    exact (extends_recordName _ _).trans (entered.extends.trans (extends_push catalog _))

end Making

/-! ## The operations as sequences of steps -/

/-- Finitely many steps. -/
abbrev Steps (catalog grown : Catalog) : Prop :=
  Relation.ReflTransGen Step catalog grown

theorem Steps.extends {catalog grown : Catalog} (steps : Steps catalog grown) :
    grown.Extends catalog := by
  induction steps with
  | refl => exact .refl catalog
  | tail _ step ih => exact step.extends.trans ih

theorem Steps.every {catalog grown : Catalog} {property : TypeId → TypeEntry → Prop}
    (steps : Steps catalog grown)
    (pushed : ∀ (catalog : Catalog) (entry : TypeEntry), entry.IsBare →
      (∀ part ∈ entry.parts, catalog.Admits part) → property catalog.nextId entry)
    (declared : ∀ type entry changed, property type entry → entry.Declares type changed →
      property type changed)
    (holds : catalog.Every property) : grown.Every property := by
  induction steps with
  | refl => exact holds
  | tail _ step ih => exact step.every (pushed _) declared ih

theorem steps_defineAssembly (catalog : Catalog) (name : AssemblyName) (isDynamic : Bool) :
    Steps catalog (catalog.defineAssembly name isDynamic).2 := by
  unfold defineAssembly
  split
  · exact .refl
  · exact .single (.relabel _ rfl (.of_eq rfl rfl))

/-- Putting generic parameters behind all other types. -/
theorem steps_pushAll (parameter : String → TypeEntry) (names : List String)
    (bare : ∀ name, (parameter name).IsBare) (single : ∀ name, (parameter name).parts = [])
    (catalog : Catalog) :
    Steps catalog (names.foldl (fun grown name => grown.push (parameter name)) catalog) := by
  induction names generalizing catalog with
  | nil => exact .refl
  | cons name rest ih =>
      refine .head (.push (parameter name) (bare name) ?_) (ih _)
      rw [single name]
      exact fun _ inside => absurd inside List.not_mem_nil

theorem mem_parts_entry {declaration : TypeDeclaration} {kind : TypeKind} {place : Nat}
    {part : TypeId} (inside : part ∈ (declaration.entry kind place).parts) :
    part ∈ declaration.interfaces ++ declaration.base.toList ++ kind.parts := by
  rcases List.mem_append.mp inside with declared | generic
  · exact declared
  · -- a declared type is plain or a definition, and neither is made of another type
    unfold TypeDeclaration.entry at generic
    dsimp only at generic
    split at generic <;> exact absurd generic List.not_mem_nil

theorem steps_defineAs (catalog : Catalog) (kind : TypeKind) (declaration : TypeDeclaration)
    (admitted : ∀ part ∈ declaration.interfaces ++ declaration.base.toList ++ kind.parts,
      catalog.Admits part) :
    Steps catalog (catalog.defineAs kind declaration).2 := by
  have own : Step catalog (catalog.push (declaration.entry kind catalog.types.size)) :=
    .push _ ⟨rfl, rfl, rfl⟩ fun part inside => admitted part (mem_parts_entry inside)
  have parameters := steps_pushAll declaration.parameterEntry declaration.parameters
    (fun _ => ⟨rfl, rfl, rfl⟩) (fun _ => rfl)
    (catalog.push (declaration.entry kind catalog.types.size))
  exact .tail (.head own parameters) (step_recordName _ _)

theorem steps_define (catalog : Catalog) (declaration : TypeDeclaration)
    (admitted : ∀ parent ∈ declaration.interfaces ++ declaration.base.toList,
      catalog.Admits parent) :
    Steps catalog (catalog.define declaration).2 := by
  refine steps_defineAs catalog _ declaration ?_
  rw [TypeKind.parts_nominal, List.append_nil]
  exact admitted

/-- Every type is made of older ones. -/
def Ordered (catalog : Catalog) : Prop :=
  catalog.Every fun type entry => ∀ part ∈ entry.parts, part.height < type.height

theorem Steps.ordered {catalog grown : Catalog} (steps : Steps catalog grown)
    (ordered : catalog.Ordered) : grown.Ordered := by
  refine steps.every ?_ ?_ ordered
  · intro before entry _ admitted part inside
    exact Nat.lt_succ_of_le (admitted part inside)
  · intro type entry changed older declares
    rw [declares.extends.parts]
    exact older

theorem steps_instantiate {catalog : Catalog} (ordered : catalog.Ordered) {generic : TypeId}
    {arguments : List TypeId} {made : TypeId × Catalog}
    (admitted : ∀ argument ∈ arguments, catalog.Admits argument)
    (found : catalog.instantiate? generic arguments = some made) : Steps catalog made.2 := by
  obtain ⟨entry, _, known, _, _, ⟨_, same⟩ | ⟨unknown, _, isMade⟩⟩ := cases_of_instantiate? found
  · rw [same]
  · let grown := catalog.push (entry.instantiate generic arguments)
    have own : Step catalog grown := by
      refine .push _ ⟨rfl, rfl, rfl⟩ fun part inside => ?_
      rcases List.mem_append.mp inside with shared | applied
      · -- the rest of the entry is that of the definition, which is older
        have smaller := ordered generic entry known part (List.mem_append_left _ shared)
        exact Nat.le_trans (Nat.le_of_lt smaller) (admits_of_find? known)
      · rcases List.mem_cons.mp applied with rfl | argument
        · exact admits_of_find? known
        · exact admitted part argument
    have stillUnknown : grown.findInstantiation? generic arguments = none := unknown
    have entered := step_recordInstance stillUnknown catalog.nextId
    rw [isMade]
    exact .tail (.tail (.single own) entered) (step_recordName _ _)

theorem steps_arrayOf {catalog : Catalog} (core : CoreType.count ≤ catalog.types.size)
    {element : TypeId} (admitted : catalog.Admits element) (rank : Nat) :
    Steps catalog (catalog.arrayOf element rank).2 := by
  rcases cases_of_arrayOf catalog element rank with ⟨_, same⟩ | ⟨unknown, made⟩
  · rw [same]
  · let grown := catalog.push (arrayEntry element rank (catalog.find? element))
    have own : Step catalog grown := by
      refine .push _ ⟨rfl, rfl, rfl⟩ fun part inside => ?_
      simp only [TypeEntry.parts, arrayEntry, TypeKind.parts, Genericity.parts,
        Option.toList_some, List.nil_append, List.append_nil, List.cons_append, List.mem_cons,
        List.not_mem_nil, or_false] at inside
      rcases inside with rfl | rfl
      · exact Nat.le_of_succ_le core
      · exact admitted
    have stillUnknown : grown.findArray? element rank = none := unknown
    have entered := step_recordArray stillUnknown catalog.nextId
    rw [made]
    exact .tail (.single own) entered

theorem steps_addMember (catalog : Catalog) (type : TypeId) (name : String) (memberType : TypeId)
    (kind : MemberKind) (isStatic : Bool) :
    Steps catalog (catalog.addMember type name memberType kind isStatic) :=
  .single (.declare type _ fun _ => .member _ rfl)

theorem steps_addMethod (catalog : Catalog) (type : TypeId) (method : Method) :
    Steps catalog (catalog.addMethod type method) :=
  .single (.declare type _ fun _ => .method _ rfl)

theorem steps_addConstructor (catalog : Catalog) (type : TypeId) (parameters : List TypeId) :
    Steps catalog (catalog.addConstructor type parameters) :=
  .single (.declare type _ fun _ => .constructor _ rfl)

end Catalog

end ExprImports
