import ExprImports.Proofs.Catalog.Growth

/-!
# Array types and instantiations are made once

Operations keep tables of array types and instantiations apart from the types themselves. What one
operation does to the types and the tables is said once (`Operation.change`).

**Agreement.** What is found in a table is an array type of that element and rank, or an
instantiation of that definition at these arguments, and every instantiation is found
(`Reached.interned`). A type that was declared as an array is not found as one: only what
`Catalog.arrayOf` makes is entered among the arrays.

**Interning.** An array type is given back for its element and rank whatever happens in between,
and for nothing else (`Interned.arrayOf_eq_iff`), and so is an instantiation for its definition and
arguments (`Interned.instantiate?_eq_iff`).
-/

set_option autoImplicit false

namespace ExprImports.Catalog

/-- Finitely many operations. -/
abbrev Operations (catalog later : Catalog) : Prop :=
  Relation.ReflTransGen Operation catalog later

variable {catalog grown later earlier : Catalog} {type : TypeId}

/-! ## What is kept -/

theorem Reached.core_le (reached : Reached catalog) : CoreType.count ≤ catalog.types.size :=
  size_initial ▸ reached.extends_initial.size_le

theorem Reached.extends_of_operation (reached : Reached catalog)
    (operation : Operation catalog grown) : grown.Extends catalog :=
  (operation.steps reached.ordered reached.core_le).extends

/-- **Later operations lose nothing.** -/
theorem Reached.extends (reached : Reached catalog) (operations : Operations catalog later) :
    later.Extends catalog := by
  induction operations with
  | refl => exact .refl catalog
  | tail earlier operation ih =>
      exact (Reached.extends_of_operation (reached.trans earlier) operation).trans ih

/-! ## What one operation does -/

/-- The change that one operation makes. If it makes no type, it leaves the tables as they are and
the types up to what they declare. -/
inductive Change (catalog : Catalog) : Catalog → Prop where
  | quiet (grown : Catalog) (names : grown.names = catalog.names)
      (arrays : grown.arrays = catalog.arrays) (instances : grown.instances = catalog.instances)
      (old : ∀ type entry, grown.find? type = some entry →
        ∃ known, catalog.find? type = some known ∧ entry.Extends known) : Change catalog grown
  | declaration (kind : TypeKind) (declaration : TypeDeclaration) :
      Change catalog (catalog.defineAs kind declaration).2
  | instantiation {generic : TypeId} {arguments : List TypeId} (entry : TypeEntry)
      (unknown : catalog.findInstantiation? generic arguments = none) :
      Change catalog (((catalog.push (entry.instantiate generic arguments)).recordInstance generic
        arguments catalog.nextId).recordName catalog.nextId)
  | array {element : TypeId} {rank : Nat} (unknown : catalog.findArray? element rank = none) :
      Change catalog ((catalog.push (arrayEntry element rank (catalog.find? element))).recordArray
        element rank catalog.nextId)

theorem Change.refl (catalog : Catalog) : Change catalog catalog :=
  .quiet _ rfl rfl rfl fun _ entry found => ⟨entry, found, .refl entry⟩

theorem change_modify {changed : TypeId} {change : TypeEntry → TypeEntry}
    (declares : ∀ entry : TypeEntry, entry.Declares changed (change entry)) :
    Change catalog (catalog.modify changed change) := by
  refine .quiet _ ?_ ?_ ?_ fun type entry found => ?_
  · cases changed <;> rfl
  · cases changed <;> rfl
  · cases changed <;> rfl
  · rw [find?_modify] at found
    split at found
    · obtain ⟨old, known, rfl⟩ := Option.map_eq_some_iff.mp found
      exact ⟨old, known, (declares old).extends⟩
    · exact ⟨entry, found, .refl entry⟩

theorem change_instantiate {generic : TypeId} {arguments : List TypeId}
    {made : TypeId × Catalog} (found : catalog.instantiate? generic arguments = some made) :
    Change catalog made.2 := by
  obtain ⟨entry, _, _, _, _, ⟨_, same⟩ | ⟨unknown, _, isMade⟩⟩ := cases_of_instantiate? found
  · rw [same]
    exact .refl catalog
  · rw [isMade]
    exact .instantiation entry unknown

theorem change_arrayOf (catalog : Catalog) (element : TypeId) (rank : Nat) :
    Change catalog (catalog.arrayOf element rank).2 := by
  rcases cases_of_arrayOf catalog element rank with ⟨_, same⟩ | ⟨unknown, made⟩
  · rw [same]
    exact .refl catalog
  · rw [made]
    exact .array unknown

theorem change_defineAssembly (catalog : Catalog) (name : AssemblyName) (isDynamic : Bool) :
    Change catalog (catalog.defineAssembly name isDynamic).2 := by
  unfold defineAssembly
  split
  · exact .refl catalog
  · exact .quiet _ rfl rfl rfl fun _ entry found => ⟨entry, found, .refl entry⟩

/-- **What one operation does.** -/
theorem Operation.change (operation : Operation catalog grown) : Change catalog grown := by
  cases operation with
  | defineAssembly name isDynamic => exact change_defineAssembly catalog name isDynamic
  | define kind declaration _ => exact .declaration kind declaration
  | instantiate _ found => exact change_instantiate found
  | arrayOf _ rank => exact change_arrayOf catalog _ rank
  | addMember => exact change_modify fun _ => .member _ rfl
  | addMethod => exact change_modify fun _ => .method _ rfl
  | addIndexer => exact change_modify fun _ => .method _ rfl
  | addConstructor => exact change_modify fun _ => .constructor _ rfl

/-! ## The tables agree with the types -/

/-- The catalog knows the type as one of this kind, with this part in generics. -/
def HasShape (catalog : Catalog) (type : TypeId) (kind : TypeKind) (genericity : Genericity) :
    Prop :=
  ∃ entry, catalog.find? type = some entry ∧ entry.kind = kind ∧ entry.genericity = genericity

theorem HasShape.extends {kind : TypeKind} {genericity : Genericity}
    (extended : later.Extends earlier) (shape : earlier.HasShape type kind genericity) :
    later.HasShape type kind genericity := by
  obtain ⟨entry, found, isKind, isGeneric⟩ := shape
  obtain ⟨grown, known, more⟩ := extended.types type entry found
  exact ⟨grown, known, more.kind.trans isKind, more.genericity.trans isGeneric⟩

theorem HasShape.unique {kind other : TypeKind} {genericity otherGenericity : Genericity}
    (shape : catalog.HasShape type kind genericity)
    (otherShape : catalog.HasShape type other otherGenericity) :
    kind = other ∧ genericity = otherGenericity := by
  obtain ⟨entry, found, rfl, rfl⟩ := shape
  obtain ⟨same, known, rfl, rfl⟩ := otherShape
  obtain rfl := Option.some.inj (found.symm.trans known)
  exact ⟨rfl, rfl⟩

theorem HasShape.admits {kind : TypeKind} {genericity : Genericity}
    (shape : catalog.HasShape type kind genericity) : catalog.Admits type := by
  obtain ⟨entry, found, _⟩ := shape
  exact admits_of_find? found

theorem HasShape.element? {element : TypeId} {rank : Nat} {genericity : Genericity}
    (shape : catalog.HasShape type (.array element rank) genericity) :
    catalog.element? type = some element := by
  obtain ⟨entry, found, isArray, _⟩ := shape
  rw [Catalog.element?, found, Option.map_some, isArray]

/-- The next type is not known yet in any way. -/
theorem not_admits_nextId (catalog : Catalog) : ¬ catalog.Admits catalog.nextId :=
  Nat.not_succ_le_self _

/-- What the tables hold is what its key says, all instantiations are in their table, and the
parameters of definitions are parameters. -/
structure Interned (catalog : Catalog) : Prop where
  array : ∀ element rank type, catalog.findArray? element rank = some type →
    catalog.HasShape type (.array element rank) .plain
  instantiation : ∀ generic arguments type,
    catalog.findInstantiation? generic arguments = some type ↔
      ∃ kind, catalog.HasShape type kind (.instantiation generic arguments)
  parameter : ∀ type kind parameters, catalog.HasShape type kind (.definition parameters) →
    ∀ parameter ∈ parameters, catalog.HasShape parameter .parameter .plain

theorem isEmpty_parameterIds (declaration : TypeDeclaration) (place : Nat) :
    (declaration.parameterIds place).isEmpty = declaration.parameters.isEmpty := by
  unfold TypeDeclaration.parameterIds
  cases declaration.parameters <;> simp [List.range_succ]

/-- What is declared is no instantiation. If it is open, its parameters are those that are made
with it. -/
theorem genericity_entry (declaration : TypeDeclaration) (kind : TypeKind) (place : Nat) :
    (declaration.entry kind place).genericity = .plain ∨
      (declaration.entry kind place).genericity =
        .definition (declaration.parameterIds place) := by
  unfold TypeDeclaration.entry
  cases none : (declaration.parameterIds place).isEmpty with
  | true => exact .inl rfl
  | false => exact .inr rfl

theorem hasShape_parameter {kind : TypeKind} {declaration : TypeDeclaration}
    {parameter : TypeId} (isParameter : parameter ∈ declaration.parameterIds catalog.types.size) :
    (catalog.defineAs kind declaration).2.HasShape parameter .parameter .plain := by
  obtain ⟨index, inside, rfl⟩ := List.mem_map.mp isParameter
  exact ⟨_, find?_defineAs_parameter catalog kind declaration (List.mem_range.mp inside), rfl, rfl⟩

/-- What a catalog with one more type knows. -/
theorem hasShape_push {entry : TypeEntry} {kind : TypeKind} {genericity : Genericity}
    (shape : (catalog.push entry).HasShape type kind genericity) :
    (type = catalog.nextId ∧ entry.kind = kind ∧ entry.genericity = genericity) ∨
      catalog.HasShape type kind genericity := by
  obtain ⟨known, found, isKind, isGeneric⟩ := shape
  rw [find?_push] at found
  split at found
  · rename_i new
    cases found
    exact .inl ⟨new, isKind, isGeneric⟩
  · exact .inr ⟨known, found, isKind, isGeneric⟩

/-- A change that makes no array type and no instantiation keeps the agreement, if the types that
it makes are right. -/
theorem Interned.keep (interned : catalog.Interned) (extended : grown.Extends catalog)
    (arrays : grown.arrays = catalog.arrays) (instances : grown.instances = catalog.instances)
    (old : ∀ type kind generic arguments,
      grown.HasShape type kind (.instantiation generic arguments) →
        catalog.HasShape type kind (.instantiation generic arguments))
    (definitions : ∀ type kind parameters, grown.HasShape type kind (.definition parameters) →
      catalog.HasShape type kind (.definition parameters) ∨
        ∀ parameter ∈ parameters, grown.HasShape parameter .parameter .plain) :
    grown.Interned where
  array element rank type found := by
    rw [findArray?, arrays] at found
    exact (interned.array element rank type found).extends extended
  instantiation generic arguments type := by
    rw [findInstantiation?, instances]
    refine (interned.instantiation generic arguments type).trans ⟨?_, ?_⟩
    · rintro ⟨kind, shape⟩
      exact ⟨kind, shape.extends extended⟩
    · rintro ⟨kind, shape⟩
      exact ⟨kind, old type kind generic arguments shape⟩
  parameter type kind parameters shape parameter isParameter := by
    rcases definitions type kind parameters shape with known | new
    · exact (interned.parameter type kind parameters known parameter isParameter).extends extended
    · exact new parameter isParameter

theorem Interned.declaration (interned : catalog.Interned) (kind : TypeKind)
    (declaration : TypeDeclaration) : (catalog.defineAs kind declaration).2.Interned := by
  refine interned.keep (extends_defineAs _ _ _) (arrays_defineAs _ _ _)
    (instances_defineAs _ _ _) ?_ ?_
  · rintro type made generic arguments ⟨entry, found, isKind, isInstantiation⟩
    rcases find?_defineAs_cases found with known | ⟨_, rfl⟩ | ⟨_, _, _, rfl⟩
    · exact ⟨entry, known, isKind, isInstantiation⟩
    · rcases genericity_entry declaration kind catalog.types.size with plain | isDefinition
      · rw [plain] at isInstantiation
        cases isInstantiation
      · rw [isDefinition] at isInstantiation
        cases isInstantiation
    · cases isInstantiation
  · rintro type made parameters ⟨entry, found, isKind, isOpen⟩
    rcases find?_defineAs_cases found with known | ⟨_, rfl⟩ | ⟨_, _, _, rfl⟩
    · exact .inl ⟨entry, known, isKind, isOpen⟩
    · rcases genericity_entry declaration kind catalog.types.size with plain | isDefinition
      · rw [plain] at isOpen
        cases isOpen
      · rw [isDefinition] at isOpen
        cases isOpen
        exact .inr fun parameter isParameter => hasShape_parameter isParameter
    · cases isOpen

/-- The instantiation that is entered is the one that is made. -/
theorem Interned.addInstantiation (interned : catalog.Interned) {generic : TypeId}
    {arguments : List TypeId} (entry : TypeEntry)
    (extended : (((catalog.push (entry.instantiate generic arguments)).recordInstance generic
      arguments catalog.nextId).recordName catalog.nextId).Extends catalog) :
    (((catalog.push (entry.instantiate generic arguments)).recordInstance generic arguments
      catalog.nextId).recordName catalog.nextId).Interned := by
  have made := find?_push_nextId catalog (entry.instantiate generic arguments)
  refine ⟨fun element rank type found => ?_, fun other others type => ?_,
    fun type kind parameters shape parameter isParameter => ?_⟩
  · exact (interned.array element rank type found).extends extended
  · constructor
    · intro found
      rw [findInstantiation?, recordName, recordInstance, List.lookup_cons] at found
      split at found
      · rename_i same
        rw [beq_iff_eq, Prod.mk.injEq] at same
        obtain ⟨rfl, rfl⟩ := same
        cases found
        exact ⟨entry.kind, _, made, rfl, rfl⟩
      · obtain ⟨kind, shape⟩ := (interned.instantiation other others type).mp found
        exact ⟨kind, shape.extends extended⟩
    · rintro ⟨kind, shape⟩
      rcases hasShape_push shape with ⟨rfl, _, isGeneric⟩ | known
      · cases isGeneric
        exact List.lookup_cons_self
      · exact extended.instances other others type
          ((interned.instantiation other others type).mpr ⟨kind, known⟩)
  · rcases hasShape_push shape with ⟨_, _, isGeneric⟩ | known
    · cases isGeneric
    · exact (interned.parameter type kind parameters known parameter isParameter).extends extended

/-- The array type that is entered is the one that is made. -/
theorem Interned.addArray (interned : catalog.Interned) {element : TypeId} {rank : Nat}
    (extended : ((catalog.push (arrayEntry element rank (catalog.find? element))).recordArray
      element rank catalog.nextId).Extends catalog) :
    ((catalog.push (arrayEntry element rank (catalog.find? element))).recordArray element rank
      catalog.nextId).Interned := by
  have made := find?_push_nextId catalog (arrayEntry element rank (catalog.find? element))
  refine ⟨fun other otherRank type found => ?_, fun generic arguments type => ?_,
    fun type kind parameters shape parameter isParameter => ?_⟩
  · rw [findArray?, recordArray, List.lookup_cons] at found
    split at found
    · rename_i same
      rw [beq_iff_eq, Prod.mk.injEq] at same
      obtain ⟨rfl, rfl⟩ := same
      cases found
      exact ⟨_, made, rfl, rfl⟩
    · exact (interned.array other otherRank type found).extends extended
  · refine (interned.instantiation generic arguments type).trans ⟨?_, ?_⟩
    · rintro ⟨kind, shape⟩
      exact ⟨kind, shape.extends extended⟩
    · rintro ⟨kind, shape⟩
      rcases hasShape_push shape with ⟨_, _, isGeneric⟩ | known
      · cases isGeneric
      · exact ⟨kind, known⟩
  · rcases hasShape_push shape with ⟨_, _, isGeneric⟩ | known
    · cases isGeneric
    · exact (interned.parameter type kind parameters known parameter isParameter).extends extended

theorem Interned.change (interned : catalog.Interned) (extended : grown.Extends catalog)
    (change : Change catalog grown) : grown.Interned := by
  cases change with
  | quiet _ _ arrays instances old =>
      have known {type : TypeId} {kind : TypeKind} {genericity : Genericity}
          (shape : grown.HasShape type kind genericity) :
          catalog.HasShape type kind genericity := by
        obtain ⟨entry, found, rfl, rfl⟩ := shape
        obtain ⟨earlier, isKnown, more⟩ := old type entry found
        exact ⟨earlier, isKnown, more.kind.symm, more.genericity.symm⟩
      exact interned.keep extended arrays instances (fun _ _ _ _ => known)
        fun _ _ _ shape => .inl (known shape)
  | declaration kind declaration => exact interned.declaration kind declaration
  | instantiation entry _ => exact interned.addInstantiation entry extended
  | array _ => exact interned.addArray extended

theorem interned_initial : initial.Interned := by
  have plain : initial.Every fun _ entry => entry.genericity = .plain := by
    refine every_initial fun position inside entry found => ?_
    have all : ∀ position < CoreType.count, (initial.find? (.entry position)).all fun entry =>
        entry.genericity = .plain := by
      decide +kernel
    have here := all position inside
    rw [found, Option.all_some] at here
    exact of_decide_eq_true here
  have noTables : initial.arrays = [] ∧ initial.instances = [] := by decide +kernel
  refine ⟨fun element rank type found => ?_, fun generic arguments type => ?_, ?_⟩
  · rw [findArray?, noTables.1] at found
    cases found
  · rw [findInstantiation?, noTables.2]
    constructor
    · intro found
      cases found
    · rintro ⟨kind, entry, found, _, isGeneric⟩
      rw [plain type entry found] at isGeneric
      cases isGeneric
  · rintro type kind parameters ⟨entry, found, _, isGeneric⟩
    rw [plain type entry found] at isGeneric
    cases isGeneric

/-- **The tables agree with the types**, whatever operations made the catalog. -/
theorem Reached.interned (reached : Reached catalog) : catalog.Interned := by
  induction reached with
  | refl => exact interned_initial
  | tail earlier operation ih =>
      exact ih.change (Reached.extends_of_operation earlier operation) operation.change

/-! ## Interning -/

section Arrays

variable {element : TypeId} {rank : Nat}

theorem findArray?_arrayOf (catalog : Catalog) (element : TypeId) (rank : Nat) :
    (catalog.arrayOf element rank).2.findArray? element rank =
      some (catalog.arrayOf element rank).1 := by
  rcases cases_of_arrayOf catalog element rank with ⟨found, same⟩ | ⟨_, made⟩
  · rw [same, found]
  · rw [made]
    exact List.lookup_cons_self

/-- Array types are not known by name. -/
theorem names_arrayOf (catalog : Catalog) (element : TypeId) (rank : Nat) :
    (catalog.arrayOf element rank).2.names = catalog.names := by
  rcases cases_of_arrayOf catalog element rank with ⟨_, same⟩ | ⟨_, made⟩
  · exact congrArg Catalog.names same
  · exact congrArg (fun made => made.2.names) made

/-- **The array type of an element and a rank is given back later, and no other one is.** -/
theorem Interned.arrayOf_eq_iff (interned : later.Interned)
    (extended : later.Extends (catalog.arrayOf element rank).2) {other : TypeId}
    {otherRank : Nat} :
    (later.arrayOf other otherRank).1 = (catalog.arrayOf element rank).1 ↔
      other = element ∧ otherRank = rank := by
  have kept := extended.arrays _ _ _ (findArray?_arrayOf catalog element rank)
  constructor
  · intro same
    have shape := interned.array _ _ _ kept
    rcases cases_of_arrayOf later other otherRank with ⟨isKnown, _⟩ | ⟨_, made⟩
    · obtain ⟨sameKind, _⟩ := (same ▸ interned.array _ _ _ isKnown).unique shape
      cases sameKind
      exact ⟨rfl, rfl⟩
    · rw [← same, made] at shape
      exact absurd shape.admits (not_admits_nextId later)
  · rintro ⟨rfl, rfl⟩
    rw [arrayOf_of_findArray? kept]

end Arrays

section Instantiations

variable {generic : TypeId} {arguments : List TypeId} {made : TypeId × Catalog}

theorem findInstantiation?_instantiate
    (found : catalog.instantiate? generic arguments = some made) :
    made.2.findInstantiation? generic arguments = some made.1 := by
  obtain ⟨_, _, _, _, _, ⟨known, same⟩ | ⟨_, isNext, isMade⟩⟩ := cases_of_instantiate? found
  · rw [same, known]
  · rw [isMade, isNext]
    exact List.lookup_cons_self

/-- A definition that was instantiated once can be instantiated in the same way again. -/
theorem instantiate?_again (found : catalog.instantiate? generic arguments = some made)
    (extended : later.Extends made.2) :
    later.instantiate? generic arguments = some (made.1, later) := by
  obtain ⟨entry, parameters, known, isDefinition, sameLength, _⟩ := cases_of_instantiate? found
  obtain ⟨grown, still, more⟩ :=
    (extended.trans (extends_instantiate found)).types generic entry known
  have kept := extended.instances _ _ _ (findInstantiation?_instantiate found)
  have definition := more.genericity.trans isDefinition
  simp only [instantiate?, still, definition, sameLength, ne_eq, not_true_eq_false, if_false, kept]

/-- **The instantiation of a definition at some arguments is given back later, and no other one
is.** -/
theorem Interned.instantiate?_eq_iff (interned : later.Interned)
    (found : catalog.instantiate? generic arguments = some made)
    (extended : later.Extends made.2) {other : TypeId} {otherArguments : List TypeId} :
    (later.instantiate? other otherArguments).map Prod.fst = some made.1 ↔
      other = generic ∧ otherArguments = arguments := by
  have kept := extended.instances _ _ _ (findInstantiation?_instantiate found)
  constructor
  · intro again
    obtain ⟨remade, isRemade, same⟩ := Option.map_eq_some_iff.mp again
    obtain ⟨kind, shape⟩ := (interned.instantiation _ _ _).mp kept
    obtain ⟨entry, _, _, _, _, ⟨isKnown, _⟩ | ⟨_, isNext, _⟩⟩ := cases_of_instantiate? isRemade
    · obtain ⟨otherKind, otherShape⟩ := (interned.instantiation _ _ _).mp isKnown
      obtain ⟨_, sameGeneric⟩ := (same ▸ otherShape).unique shape
      cases sameGeneric
      exact ⟨rfl, rfl⟩
    · rw [← same, isNext] at shape
      exact absurd shape.admits (not_admits_nextId later)
  · rintro ⟨rfl, rfl⟩
    rw [instantiate?_again found extended, Option.map_some]

end Instantiations

end ExprImports.Catalog
