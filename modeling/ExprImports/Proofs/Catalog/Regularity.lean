import ExprImports.Catalog.Hierarchy
import ExprImports.DefaultAssemblies
import ExprImports.Proofs.Catalog.Growth

/-!
# Arrays, names and core types

Whatever is added to a built catalog, all array types have the base type `System.Array`
and no name stands for an array type (`Built.regular`). An array type that is declared may
have another base type (`ArraysAreDerived`).

The core types stay what they are, whatever operations are carried out: they are no arrays,
their base types are core types, and the core assembly defines them.
-/

set_option autoImplicit false

namespace ExprImports

/-- Whether the type is an array type. -/
def TypeKind.isArray : TypeKind → Bool
  | .array _ _ => true
  | _ => false

/-- The only type above an array type is its base type `System.Array`, and it is not generic. -/
def TypeEntry.ArraysArePlain (entry : TypeEntry) : Prop :=
  entry.kind.isArray = true →
    entry.base = some CoreType.array ∧ entry.interfaces = [] ∧ entry.genericity = .plain

theorem TypeEntry.arraysArePlain_of_isArray {entry : TypeEntry}
    (noArray : entry.kind.isArray = false) : entry.ArraysArePlain :=
  fun isArray => absurd isArray (by simp [noArray])

namespace Catalog

/-- The type has an entry, which is not that of an array type. -/
def IsNominal (catalog : Catalog) (type : TypeId) : Prop :=
  ∃ entry, catalog.find? type = some entry ∧ entry.kind.isArray = false

/-- The shape that a catalog keeps as it grows. -/
structure Regular (catalog : Catalog) : Prop where
  arrays : catalog.Every fun _ entry => entry.ArraysArePlain
  names : ∀ name type, (name, type) ∈ catalog.names → catalog.IsNominal type

/-! ## Each operation keeps the shape -/

theorem every_push {catalog : Catalog} {property : TypeId → TypeEntry → Prop} {added : TypeEntry}
    (every : catalog.Every property) (new : property catalog.nextId added) :
    (catalog.push added).Every property := by
  intro type entry found
  rw [find?_push] at found
  split at found
  · rename_i here
    cases found
    exact here ▸ new
  · exact every type entry found

theorem IsNominal.extends {later earlier : Catalog} {type : TypeId}
    (extended : later.Extends earlier) (nominal : earlier.IsNominal type) :
    later.IsNominal type := by
  obtain ⟨entry, found, noArray⟩ := nominal
  obtain ⟨grown, known, more⟩ := extended.types type entry found
  exact ⟨grown, known, by rw [more.kind, noArray]⟩

namespace Regular

variable {catalog : Catalog} (regular : catalog.Regular)
include regular

theorem push {entry : TypeEntry} (plain : entry.ArraysArePlain) : (catalog.push entry).Regular where
  arrays := every_push regular.arrays plain
  names name type named := by
    obtain ⟨known, found, noArray⟩ := regular.names name type named
    have old : type ≠ catalog.nextId := by
      rintro rfl
      rw [find?_nextId] at found
      cases found
    exact ⟨known, by rw [find?_push, if_neg old, found], noArray⟩

theorem recordName {type : TypeId} (nominal : catalog.IsNominal type) :
    (catalog.recordName type).Regular where
  arrays := regular.arrays
  names name named inside := by
    rcases List.mem_cons.mp inside with new | old
    · cases new
      exact nominal
    · exact regular.names name named old

theorem recordArray (element : TypeId) (rank : Nat) (array : TypeId) :
    (catalog.recordArray element rank array).Regular :=
  ⟨regular.arrays, regular.names⟩

theorem recordInstance (generic : TypeId) (arguments : List TypeId) (instantiation : TypeId) :
    (catalog.recordInstance generic arguments instantiation).Regular :=
  ⟨regular.arrays, regular.names⟩

theorem modify {type : TypeId} {change : TypeEntry → TypeEntry}
    (declares : ∀ entry : TypeEntry, entry.Declares type (change entry)) :
    (catalog.modify type change).Regular where
  arrays other entry found := by
    rw [find?_modify] at found
    split at found
    · obtain ⟨old, known, rfl⟩ := Option.map_eq_some_iff.mp found
      have same := (declares old).extends
      intro isArray
      rw [same.kind] at isArray
      rw [same.base, same.interfaces, same.genericity]
      exact regular.arrays other old known isArray
    · exact regular.arrays other entry found
  names name named inside := by
    have known : (name, named) ∈ catalog.names := by
      cases type <;> exact inside
    exact (regular.names name named known).extends (Step.declare type change declares).extends

theorem pushAll (parameter : String → TypeEntry) (names : List String)
    (plain : ∀ name, (parameter name).ArraysArePlain) :
    (names.foldl (fun grown name => grown.push (parameter name)) catalog).Regular := by
  induction names generalizing catalog with
  | nil => exact regular
  | cons name rest ih => exact ih (regular.push (plain name))

theorem defineAssembly (name : AssemblyName) (isDynamic : Bool) :
    (catalog.defineAssembly name isDynamic).2.Regular := by
  unfold Catalog.defineAssembly
  split
  · exact regular
  · exact ⟨regular.arrays, regular.names⟩

theorem define (declaration : TypeDeclaration) : (catalog.define declaration).2.Regular := by
  refine recordName (pushAll (push regular ?_) _ _ fun _ => ?_) ?_
  · exact TypeEntry.arraysArePlain_of_isArray rfl
  · exact TypeEntry.arraysArePlain_of_isArray rfl
  · exact ⟨_, find?_defineAs_nextId _ _ declaration, rfl⟩

/-- An array type is plain, so a definition is none. -/
theorem isArray_eq_false_of_definition {type : TypeId} {entry : TypeEntry}
    {parameters : List TypeId} (found : catalog.find? type = some entry)
    (isDefinition : entry.genericity = .definition parameters) : entry.kind.isArray = false := by
  rw [← Bool.not_eq_true]
  intro isArray
  rw [(regular.arrays type entry found isArray).2.2] at isDefinition
  cases isDefinition

theorem instantiate {generic : TypeId} {arguments : List TypeId} {made : TypeId × Catalog}
    (found : catalog.instantiate? generic arguments = some made) : made.2.Regular := by
  obtain ⟨entry, _, known, isDefinition, _, ⟨_, same⟩ | ⟨_, _, isMade⟩⟩ :=
    cases_of_instantiate? found
  · rw [same]
    exact regular
  · -- what is made of a definition is no array type either
    have noArray := regular.isArray_eq_false_of_definition known isDefinition
    rw [isMade]
    refine recordName (recordInstance (regular.push ?_) _ _ _) ⟨_, find?_push_nextId _ _, noArray⟩
    exact TypeEntry.arraysArePlain_of_isArray noArray

theorem arrayOf (element : TypeId) (rank : Nat) : (catalog.arrayOf element rank).2.Regular := by
  rcases cases_of_arrayOf catalog element rank with ⟨_, same⟩ | ⟨_, made⟩
  · rw [same]
    exact regular
  · rw [made]
    exact recordArray (regular.push fun _ => ⟨rfl, rfl, rfl⟩) _ _ _

end Regular

theorem regular_initial : initial.Regular where
  arrays := by
    refine every_initial fun position inside entry found => ?_
    have all : ∀ position < CoreType.count, (initial.find? (.entry position)).all fun entry =>
        !entry.kind.isArray := by
      decide +kernel
    have here := all position inside
    rw [found, Option.all_some, Bool.not_eq_true'] at here
    exact TypeEntry.arraysArePlain_of_isArray here
  names := by
    have all : initial.names.all fun named => (initial.find? named.2).any fun entry =>
        !entry.kind.isArray := by
      decide +kernel
    intro name type named
    have here := List.all_eq_true.mp all (name, type) named
    obtain ⟨entry, found, noArray⟩ := (Option.any_eq_true _ _).mp here
    exact ⟨entry, found, Bool.not_eq_true' _ ▸ noArray⟩

theorem Built.regular {catalog : Catalog} (built : catalog.Built) : catalog.Regular := by
  induction built with
  | initial => exact regular_initial
  | defineAssembly _ name isDynamic ih => exact ih.defineAssembly name isDynamic
  | define _ declaration _ ih => exact ih.define declaration
  | instantiate _ _ found ih => exact ih.instantiate found
  | arrayOf _ _ rank ih => exact ih.arrayOf _ rank
  | addMember _ type name memberType kind isStatic ih => exact ih.modify fun _ => .member _ rfl
  | addMethod _ type method ih => exact ih.modify fun _ => .method _ rfl
  | addIndexer _ type parameters itemType settable ih => exact ih.modify fun _ => .method _ rfl
  | addConstructor _ type parameters ih => exact ih.modify fun _ => .constructor _ rfl

/-! ## Arrays and names -/

theorem kind_of_element? {catalog : Catalog} {type element : TypeId}
    (isElement : catalog.element? type = some element) :
    ∃ entry, catalog.find? type = some entry ∧ entry.kind.isArray = true := by
  obtain ⟨entry, rank, found, kind⟩ := exists_of_element? isElement
  exact ⟨entry, found, by rw [kind]; rfl⟩

theorem IsNominal.element?_eq_none {catalog : Catalog} {type : TypeId}
    (nominal : catalog.IsNominal type) : catalog.element? type = none := by
  obtain ⟨entry, found, noArray⟩ := nominal
  rw [Option.eq_none_iff_forall_ne_some]
  intro element isElement
  obtain ⟨known, foundArray, isArray⟩ := kind_of_element? isElement
  rw [found, Option.some.injEq] at foundArray
  rw [foundArray, isArray] at noArray
  cases noArray

theorem Regular.base?_of_element? {catalog : Catalog} (regular : catalog.Regular)
    {type element : TypeId} (isElement : catalog.element? type = some element) :
    catalog.base? type = some CoreType.array := by
  obtain ⟨entry, found, isArray⟩ := kind_of_element? isElement
  rw [base?, found, Option.bind_some, (regular.arrays type entry found isArray).1]

/-- Every array type is derived from `System.Array`. -/
def ArraysAreDerived (catalog : Catalog) : Prop :=
  ∀ type element, catalog.element? type = some element → catalog.base? type = some CoreType.array

theorem Built.arraysAreDerived {catalog : Catalog} (built : catalog.Built) :
    catalog.ArraysAreDerived :=
  fun _ _ => built.regular.base?_of_element?

/-- Nothing but `System.Array` stands directly above an array type. -/
theorem Regular.parents_of_isArray {catalog : Catalog} (regular : catalog.Regular) {type : TypeId}
    (array : catalog.isArray type = true) : catalog.parents type = [CoreType.array] := by
  obtain ⟨element, isElement⟩ := Option.isSome_iff_exists.mp array
  obtain ⟨entry, found, isArray⟩ := kind_of_element? isElement
  obtain ⟨isBase, noInterfaces, _⟩ := regular.arrays type entry found isArray
  rw [parents, interfaces, base?, found, Option.map_some, Option.getD_some, Option.bind_some,
    isBase, noInterfaces]
  rfl

theorem Regular.isNominal_of_findType? {catalog : Catalog} (regular : catalog.Regular)
    {name : String} {type : TypeId} (found : catalog.findType? name = some type) :
    catalog.IsNominal type :=
  regular.names name type (mem_of_lookup found)

/-! ## Core types -/

end Catalog

/-- Whether the type is one of the core types. -/
def TypeId.isCore : TypeId → Bool
  | .null => false
  | .entry position => position < CoreType.count

namespace Catalog

/-- A core type is no array, the core assembly defines it, and its base type is a core type. -/
structure IsCoreEntry (entry : TypeEntry) : Prop where
  noArray : entry.kind.isArray = false
  assembly : entry.assembly = coreAssembly
  base : ∀ base, entry.base = some base → base.isCore = true

theorem isCoreEntry_initial : ∀ position < CoreType.count,
    ∃ entry, initial.find? (.entry position) = some entry ∧ IsCoreEntry entry := by
  have all : ∀ position < CoreType.count, (initial.find? (.entry position)).any fun entry =>
      !entry.kind.isArray && entry.assembly = coreAssembly && entry.base.all TypeId.isCore := by
    decide +kernel
  intro position inside
  obtain ⟨entry, found, here⟩ := (Option.any_eq_true _ _).mp (all position inside)
  simp only [Bool.and_eq_true, Bool.not_eq_true', decide_eq_true_eq, Option.all_eq_true] at here
  obtain ⟨⟨noArray, assembly⟩, base⟩ := here
  exact ⟨entry, found, noArray, assembly, base⟩

namespace Reached

variable {catalog : Catalog} (reached : catalog.Reached) {type : TypeId} (core : type.isCore = true)
include reached core

theorem exists_coreEntry : ∃ entry, catalog.find? type = some entry ∧ IsCoreEntry entry := by
  cases type with
  | null => cases core
  | entry position =>
      obtain ⟨entry, found, isCore⟩ := isCoreEntry_initial position (of_decide_eq_true core)
      obtain ⟨grown, known, more⟩ := reached.extends_initial.types _ entry found
      refine ⟨grown, known, ?_, ?_, ?_⟩
      · rw [more.kind, isCore.noArray]
      · rw [more.assembly, isCore.assembly]
      · rw [more.base]
        exact isCore.base

theorem element?_of_isCore : catalog.element? type = none := by
  obtain ⟨entry, found, isCore⟩ := reached.exists_coreEntry core
  exact IsNominal.element?_eq_none ⟨entry, found, isCore.noArray⟩

theorem isCore_of_base? {base : TypeId} (isBase : catalog.base? type = some base) :
    base.isCore = true := by
  obtain ⟨entry, found, isCore⟩ := reached.exists_coreEntry core
  rw [base?, found, Option.bind_some] at isBase
  exact isCore.base base isBase

/-- Default assemblies with the core assembly among them define all core types. -/
theorem defines_of_isCore {defaults : DefaultAssemblies}
    (withCore : defaults.contains coreAssemblyName = true) :
    defaults.defines catalog type = true := by
  obtain ⟨entry, found, isCore⟩ := reached.exists_coreEntry core
  obtain ⟨assembly, known, isName⟩ := reached.exists_coreAssembly
  rw [DefaultAssemblies.defines, assemblyOf?, found, Option.bind_some, isCore.assembly, known,
    Option.any_some, isName, withCore]

end Reached

end Catalog

end ExprImports
