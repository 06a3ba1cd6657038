import ExprImports.Proofs.Catalog.Interning

/-!
# Full names

Operations keep a table of names apart from the types themselves. A type that is declared or
instantiated is entered in it under its full name while it is the newest one, and nothing is ever
taken out. Array types that are made for their elements, and parameters that come with a
definition, are not entered; all other types are (`IsEntered`).

**Names are kept.** The full name of a type is made of those of the types that it is made of. As
these are older, nothing that is added later changes it (`Extends.nameOf_eq`).

**Index.** What one operation does to the table is said once (`Operation.enters`). So a name
stands for the latest of the types that bear it and are entered, and for no other type
(`Indexed.findType?_eq_some_iff`).

**Kinds.** Classes, structures, interfaces, enumerations and instantiations are entered
(`Reached.isEntered`). So is a type that was declared as an array or a parameter. In a catalog
that has none of these, what a name stands for is of the other kinds (`Built.findType?_eq_some_iff`).
-/

set_option autoImplicit false

namespace ExprImports

theorem TypeId.height_injective : Function.Injective TypeId.height := by
  intro first second same
  cases first <;> cases second
  · rfl
  · cases same
  · cases same
  · exact congrArg TypeId.entry (Nat.succ.inj same)

/-- A class, structure, interface or enumeration, or an instantiation. -/
def TypeEntry.IsDeclared (entry : TypeEntry) : Prop :=
  (∃ kind, entry.kind = .nominal kind) ∨
    ∃ generic arguments, entry.genericity = .instantiation generic arguments

/-- Whether a type is declared or instantiated can be seen from its entry. -/
theorem TypeEntry.isDeclared_iff {entry : TypeEntry} : entry.IsDeclared ↔
    ((match entry.kind with
      | .nominal _ => true
      | _ => false) || entry.genericity.definition?.isSome) = true := by
  unfold TypeEntry.IsDeclared
  cases isKind : entry.kind <;> cases isGeneric : entry.genericity <;>
    simp [Genericity.definition?]

instance (entry : TypeEntry) : Decidable entry.IsDeclared :=
  decidable_of_iff _ TypeEntry.isDeclared_iff.symm

theorem TypeEntry.Extends.isDeclared_iff {later earlier : TypeEntry}
    (grown : later.Extends earlier) : later.IsDeclared ↔ earlier.IsDeclared := by
  simp only [TypeEntry.IsDeclared, grown.kind, grown.genericity]

namespace Catalog

variable {catalog grown later earlier : Catalog} {type : TypeId}

/-! ## Names are kept -/

/-- **The name of a type is never changed.** The induction is on the height of the type, below
which its parts are. -/
theorem Extends.nameOf_eq (extended : later.Extends earlier) (qualified : Bool)
    (admitted : earlier.Admits type) :
    later.nameOf qualified type = earlier.nameOf qualified type := by
  induction height : type.height using Nat.strongRecOn generalizing type with
  | ind size ih =>
    cases found : earlier.find? type with
    | none =>
        cases type with
        | null => rw [nameOf, nameOf]; rfl
        | entry position =>
            have inside : position < earlier.types.size := admitted
            rw [find?, Array.getElem?_eq_getElem inside] at found
            cases found
    | some entry =>
        obtain ⟨grown, known, more⟩ := extended.types type entry found
        have part (older : TypeId) :
            (if older.height < type.height then later.nameOf qualified older else unknownName) =
              if older.height < type.height then earlier.nameOf qualified older
              else unknownName := by
          split
          · rename_i smaller
            exact ih older.height (height ▸ smaller)
              (Nat.le_trans (Nat.le_of_lt smaller) admitted) rfl
          · rfl
        rw [nameOf, nameOf, found, known]
        simp only [part, more.kind, more.name, more.namespaceName, more.genericity]

theorem Extends.fullName_eq (extended : later.Extends earlier) (admitted : earlier.Admits type) :
    later.fullName type = earlier.fullName type :=
  extended.nameOf_eq true admitted

/-! ## The types that are entered -/

/-- The catalog knows the type as one that is declared or instantiated. -/
def IsDeclared (catalog : Catalog) (type : TypeId) : Prop :=
  ∃ entry, catalog.find? type = some entry ∧ entry.IsDeclared

theorem isDeclared_iff_any : catalog.IsDeclared type ↔
    (catalog.find? type).any (fun entry => decide entry.IsDeclared) = true := by
  unfold IsDeclared
  cases catalog.find? type <;> simp

instance (catalog : Catalog) (type : TypeId) : Decidable (catalog.IsDeclared type) :=
  decidable_of_iff _ isDeclared_iff_any.symm

/-- The array type was made for its element. -/
def IsMadeArray (catalog : Catalog) (type : TypeId) : Prop :=
  ∃ element rank, catalog.findArray? element rank = some type

/-- The type came with a definition as one of its parameters. -/
def IsParameter (catalog : Catalog) (type : TypeId) : Prop :=
  ∃ definition kind parameters,
    catalog.HasShape definition kind (.definition parameters) ∧ type ∈ parameters

/-- The catalog knows the type, which is neither an array type that was made for its element nor a
parameter of a definition. -/
structure IsEntered (catalog : Catalog) (type : TypeId) : Prop where
  known : catalog.has type = true
  noArray : ¬ catalog.IsMadeArray type
  noParameter : ¬ catalog.IsParameter type

theorem has_of_find? {entry : TypeEntry} (found : catalog.find? type = some entry) :
    catalog.has type = true := by
  rw [has, found, Option.isSome_some]

theorem IsEntered.admits (entered : catalog.IsEntered type) : catalog.Admits type := by
  obtain ⟨entry, found⟩ := Option.isSome_iff_exists.mp entered.known
  exact admits_of_find? found

theorem Extends.isDeclared_iff (extended : later.Extends earlier) (admitted : earlier.Admits type) :
    later.IsDeclared type ↔ earlier.IsDeclared type := by
  constructor
  · rintro ⟨grown, known, declared⟩
    cases type with
    | null => cases known
    | entry position =>
        have inside : position < earlier.types.size := admitted
        have found : earlier.find? (.entry position) = some earlier.types[position] :=
          Array.getElem?_eq_getElem inside
        obtain ⟨other, same, more⟩ := extended.types _ _ found
        rw [known, Option.some.injEq] at same
        exact ⟨_, found, more.isDeclared_iff.mp (same ▸ declared)⟩
  · rintro ⟨entry, found, declared⟩
    obtain ⟨grown, known, more⟩ := extended.types type entry found
    exact ⟨grown, known, more.isDeclared_iff.mpr declared⟩

theorem Interned.admits_of_isMadeArray (interned : catalog.Interned)
    (isMade : catalog.IsMadeArray type) : catalog.Admits type := by
  obtain ⟨element, rank, found⟩ := isMade
  exact (interned.array element rank type found).admits

theorem Interned.admits_of_isParameter (interned : catalog.Interned)
    (isParameter : catalog.IsParameter type) : catalog.Admits type := by
  obtain ⟨definition, kind, parameters, shape, inside⟩ := isParameter
  exact (interned.parameter definition kind parameters shape type inside).admits

/-- **Classes, structures, interfaces, enumerations and instantiations are entered.** -/
theorem Interned.isEntered (interned : catalog.Interned) (declared : catalog.IsDeclared type) :
    catalog.IsEntered type := by
  obtain ⟨entry, found, isDeclared⟩ := declared
  have shape : catalog.HasShape type entry.kind entry.genericity := ⟨entry, found, rfl, rfl⟩
  refine ⟨has_of_find? found, ?_, ?_⟩
  · rintro ⟨element, rank, isMade⟩
    obtain ⟨isArray, isPlain⟩ := shape.unique (interned.array element rank type isMade)
    rcases isDeclared with ⟨kind, isKind⟩ | ⟨generic, arguments, applied⟩
    · cases isArray.symm.trans isKind
    · cases isPlain.symm.trans applied
  · rintro ⟨definition, kind, parameters, isDefinition, inside⟩
    obtain ⟨isParameter, isPlain⟩ :=
      shape.unique (interned.parameter definition kind parameters isDefinition type inside)
    rcases isDeclared with ⟨kind, isKind⟩ | ⟨generic, arguments, applied⟩
    · cases isParameter.symm.trans isKind
    · cases isPlain.symm.trans applied

theorem Reached.isEntered (reached : Reached catalog) (declared : catalog.IsDeclared type) :
    catalog.IsEntered type :=
  reached.interned.isEntered declared

/-! ## What one operation enters -/

/-- What one operation makes of the names: nothing, or the next type is entered under its full
name. -/
inductive Enters (catalog grown : Catalog) : Prop
  | none (names : grown.names = catalog.names)
      (entered : ∀ type, grown.IsEntered type ↔ catalog.IsEntered type)
  | next (names : grown.names = (grown.fullName catalog.nextId, catalog.nextId) :: catalog.names)
      (entered : ∀ type, grown.IsEntered type ↔ type = catalog.nextId ∨ catalog.IsEntered type)

/-- What was there is entered as before, if only new types are made arrays or parameters. -/
theorem isEntered_iff_of_has (extended : grown.Extends catalog)
    (arrays : grown.IsMadeArray type → catalog.IsMadeArray type ∨ ¬ catalog.Admits type)
    (parameters : grown.IsParameter type → catalog.IsParameter type ∨ ¬ catalog.Admits type)
    (known : catalog.has type = true) : grown.IsEntered type ↔ catalog.IsEntered type := by
  obtain ⟨entry, found⟩ := Option.isSome_iff_exists.mp known
  have admitted := admits_of_find? found
  constructor
  · rintro ⟨_, noArray, noParameter⟩
    refine ⟨known, ?_, ?_⟩
    · rintro ⟨element, rank, isMade⟩
      exact noArray ⟨element, rank, extended.arrays _ _ _ isMade⟩
    · rintro ⟨definition, kind, others, shape, inside⟩
      exact noParameter ⟨definition, kind, others, shape.extends extended, inside⟩
  · rintro ⟨_, noArray, noParameter⟩
    obtain ⟨grownEntry, stillThere, _⟩ := extended.types type entry found
    refine ⟨has_of_find? stillThere, fun isMade => ?_, fun isParameter => ?_⟩
    · exact (arrays isMade).elim noArray fun new => new admitted
    · exact (parameters isParameter).elim noParameter fun new => new admitted

theorem isMadeArray_of_arrays_eq (same : grown.arrays = catalog.arrays)
    (isMade : grown.IsMadeArray type) : catalog.IsMadeArray type := by
  obtain ⟨element, rank, found⟩ := isMade
  rw [findArray?, same] at found
  exact ⟨element, rank, found⟩

theorem has_push_iff {entry : TypeEntry} :
    (catalog.push entry).has type = true ↔ type = catalog.nextId ∨ catalog.has type = true := by
  rw [has, find?_push]
  split
  · rename_i new
    simp [new]
  · rename_i old
    simp [old, has]

/-- A type that is no definition brings no parameters. -/
theorem isParameter_of_push {entry : TypeEntry}
    (noDefinition : ∀ parameters, entry.genericity ≠ .definition parameters)
    (isParameter : (catalog.push entry).IsParameter type) : catalog.IsParameter type := by
  obtain ⟨definition, kind, parameters, shape, inside⟩ := isParameter
  rcases hasShape_push shape with ⟨_, _, isDefinition⟩ | known
  · exact absurd isDefinition (noDefinition parameters)
  · exact ⟨definition, kind, parameters, known, inside⟩

theorem names_recordName (catalog : Catalog) (admitted : catalog.Admits type) :
    (catalog.recordName type).names =
      ((catalog.recordName type).fullName type, type) :: catalog.names := by
  rw [(extends_recordName catalog type).fullName_eq admitted]
  rfl

theorem names_defineAssembly (catalog : Catalog) (name : AssemblyName) (isDynamic : Bool) :
    (catalog.defineAssembly name isDynamic).2.names = catalog.names := by
  unfold defineAssembly
  split <;> rfl

section Declaring

variable (kind : TypeKind) (declaration : TypeDeclaration)

theorem names_defineAs (catalog : Catalog) :
    (catalog.defineAs kind declaration).2.names =
      ((catalog.defineAs kind declaration).2.fullName catalog.nextId, catalog.nextId) ::
        catalog.names := by
  have known := admits_of_find? (find?_defineAs_nextId catalog kind declaration)
  rw [defineAs, pushAll_eq] at known ⊢
  exact names_recordName _ known

/-- The parameters that come with a declaration are younger than its type. -/
theorem not_admits_of_mem_parameterIds {place : Nat}
    (isNew : type ∈ declaration.parameterIds place) :
    place + 1 < type.height := by
  obtain ⟨index, _, rfl⟩ := List.mem_map.mp isNew
  rw [TypeId.height_entry]
  omega

theorem isParameter_defineAs
    (isParameter : (catalog.defineAs kind declaration).2.IsParameter type) :
    catalog.IsParameter type ∨ type ∈ declaration.parameterIds catalog.types.size := by
  obtain ⟨definition, made, parameters, ⟨entry, found, isKind, isDefinition⟩, inside⟩ := isParameter
  rcases find?_defineAs_cases found with known | ⟨_, rfl⟩ | ⟨_, _, _, rfl⟩
  · exact .inl ⟨definition, made, parameters, ⟨entry, known, isKind, isDefinition⟩, inside⟩
  · rcases genericity_entry declaration kind catalog.types.size with plain | own
    · cases plain.symm.trans isDefinition
    · cases own.symm.trans isDefinition
      exact .inr inside
  · cases isDefinition

theorem isParameter_of_mem_parameterIds
    (isNew : type ∈ declaration.parameterIds catalog.types.size) :
    (catalog.defineAs kind declaration).2.IsParameter type := by
  refine ⟨catalog.nextId, kind, declaration.parameterIds catalog.types.size,
    ⟨_, find?_defineAs_nextId catalog kind declaration, rfl, ?_⟩, isNew⟩
  have some : (declaration.parameterIds catalog.types.size).isEmpty ≠ true := by
    rw [ne_eq, List.isEmpty_iff]
    exact List.ne_nil_of_mem isNew
  exact if_neg some

theorem Interned.enters_declaration (interned : catalog.Interned) :
    Enters catalog (catalog.defineAs kind declaration).2 := by
  have extended := extends_defineAs catalog kind declaration
  have sameArrays : ∀ type, (catalog.defineAs kind declaration).2.IsMadeArray type →
      catalog.IsMadeArray type :=
    fun _ => isMadeArray_of_arrays_eq (arrays_defineAs catalog kind declaration)
  have old {type : TypeId} :=
    isEntered_iff_of_has extended (fun isMade => .inl (sameArrays type isMade))
    fun isParameter => (isParameter_defineAs kind declaration isParameter).imp_right
      fun isNew admitted => absurd (not_admits_of_mem_parameterIds declaration isNew)
        (Nat.not_lt_of_le (Nat.le_succ_of_le admitted))
  refine .next (names_defineAs kind declaration catalog) fun type => ⟨fun entered => ?_, ?_⟩
  · obtain ⟨entry, found⟩ := Option.isSome_iff_exists.mp entered.known
    rcases find?_defineAs_cases found with known | ⟨isNext, _⟩ | ⟨_, _, isNew, _⟩
    · exact .inr ((old (has_of_find? known)).mp entered)
    · exact .inl isNext
    · exact absurd (isParameter_of_mem_parameterIds kind declaration isNew) entered.noParameter
  · rintro (rfl | entered)
    · refine ⟨has_of_find? (find?_defineAs_nextId catalog kind declaration), fun isMade => ?_,
        fun isParameter => ?_⟩
      · exact not_admits_nextId catalog (interned.admits_of_isMadeArray (sameArrays _ isMade))
      · rcases isParameter_defineAs kind declaration isParameter with known | isNew
        · exact not_admits_nextId catalog (interned.admits_of_isParameter known)
        · exact Nat.lt_irrefl _ (not_admits_of_mem_parameterIds declaration isNew)
    · exact (old entered.known).mpr entered

end Declaring

theorem Interned.enters_instantiation (interned : catalog.Interned) {generic : TypeId}
    {arguments : List TypeId} (entry : TypeEntry)
    (extended : (((catalog.push (entry.instantiate generic arguments)).recordInstance generic
      arguments catalog.nextId).recordName catalog.nextId).Extends catalog) :
    Enters catalog (((catalog.push (entry.instantiate generic arguments)).recordInstance generic
      arguments catalog.nextId).recordName catalog.nextId) := by
  have sameParameters {type : TypeId} :
      (catalog.push (entry.instantiate generic arguments)).IsParameter type →
        catalog.IsParameter type :=
    isParameter_of_push fun parameters isDefinition => by cases isDefinition
  have inside : (catalog.push (entry.instantiate generic arguments)).Admits catalog.nextId :=
    admits_of_find? (find?_push_nextId catalog _)
  have old {type : TypeId} (known : catalog.has type = true) := isEntered_iff_of_has extended
    (fun isMade => .inl isMade) (fun isParameter => .inl (sameParameters isParameter)) known
  refine .next ?_ fun type => ⟨fun entered => ?_, ?_⟩
  · exact names_recordName _ inside
  · exact (has_push_iff.mp entered.known).imp_right fun known => (old known).mp entered
  · rintro (rfl | entered)
    · refine ⟨has_push_iff.mpr (.inl rfl), fun isMade => ?_, fun isParameter => ?_⟩
      · exact not_admits_nextId catalog (interned.admits_of_isMadeArray isMade)
      · exact not_admits_nextId catalog (interned.admits_of_isParameter (sameParameters isParameter))
    · exact (old entered.known).mpr entered

theorem enters_array {element : TypeId} {rank : Nat}
    (extended : ((catalog.push (arrayEntry element rank (catalog.find? element))).recordArray
      element rank catalog.nextId).Extends catalog) :
    Enters catalog ((catalog.push (arrayEntry element rank (catalog.find? element))).recordArray
      element rank catalog.nextId) := by
  have sameParameters {type : TypeId} :
      (catalog.push (arrayEntry element rank (catalog.find? element))).IsParameter type →
        catalog.IsParameter type :=
    isParameter_of_push fun parameters isDefinition => by cases isDefinition
  have arrays {type : TypeId} (isMade : ((catalog.push (arrayEntry element rank
      (catalog.find? element))).recordArray element rank catalog.nextId).IsMadeArray type) :
      catalog.IsMadeArray type ∨ ¬ catalog.Admits type := by
    obtain ⟨other, otherRank, found⟩ := isMade
    rw [findArray?, recordArray, List.lookup_cons] at found
    split at found
    · cases found
      exact .inr (not_admits_nextId catalog)
    · exact .inl ⟨other, otherRank, found⟩
  have old {type : TypeId} (known : catalog.has type = true) := isEntered_iff_of_has extended
    arrays (fun isParameter => .inl (sameParameters isParameter)) known
  refine .none rfl fun type => ⟨fun entered => ?_, fun entered => (old entered.known).mpr entered⟩
  rcases has_push_iff.mp entered.known with rfl | known
  · exact absurd ⟨element, rank, List.lookup_cons_self⟩ entered.noArray
  · exact (old known).mp entered

/-- **What one operation enters.** -/
theorem Interned.enters (interned : catalog.Interned) (extended : grown.Extends catalog)
    (change : Change catalog grown) : Enters catalog grown := by
  cases change with
  | quiet _ names arrays _ before =>
      have parameters {type : TypeId} (isParameter : grown.IsParameter type) :
          catalog.IsParameter type := by
        obtain ⟨definition, kind, others, ⟨entry, found, rfl, isDefinition⟩, inside⟩ := isParameter
        obtain ⟨known, isKnown, more⟩ := before definition entry found
        exact ⟨definition, known.kind, others,
          ⟨known, isKnown, rfl, more.genericity.symm.trans isDefinition⟩, inside⟩
      have old {type : TypeId} (known : catalog.has type = true) := isEntered_iff_of_has extended
        (fun isMade => .inl (isMadeArray_of_arrays_eq arrays isMade))
        (fun isParameter => .inl (parameters isParameter)) known
      refine .none names fun type =>
        ⟨fun entered => ?_, fun entered => (old entered.known).mpr entered⟩
      obtain ⟨entry, found⟩ := Option.isSome_iff_exists.mp entered.known
      obtain ⟨known, isKnown, _⟩ := before type entry found
      exact (old (has_of_find? isKnown)).mp entered
  | declaration kind declaration => exact interned.enters_declaration kind declaration
  | instantiation entry _ => exact interned.enters_instantiation entry extended
  | array _ => exact enters_array extended

/-! ## The index -/

/-- The names are those of types that are entered, the latest type first, and all of these types
are named. -/
structure Indexed (catalog : Catalog) : Prop where
  named : ∀ name type, (name, type) ∈ catalog.names →
    catalog.IsEntered type ∧ catalog.fullName type = name
  latestFirst : catalog.names.Pairwise fun younger older => older.2.height < younger.2.height
  entered : ∀ type, catalog.IsEntered type → (catalog.fullName type, type) ∈ catalog.names

/-- An operation enters at most the type that is younger than all others. -/
theorem Indexed.grow (indexed : catalog.Indexed) (extended : grown.Extends catalog)
    (enters : Enters catalog grown) : grown.Indexed := by
  have kept : ∀ name type, (name, type) ∈ catalog.names →
      catalog.IsEntered type ∧ grown.fullName type = name := by
    intro name type inside
    obtain ⟨entered, isName⟩ := indexed.named name type inside
    exact ⟨entered, (extended.fullName_eq entered.admits).trans isName⟩
  have keptEntry : ∀ type, catalog.IsEntered type →
      (grown.fullName type, type) ∈ catalog.names := by
    intro type entered
    rw [extended.fullName_eq entered.admits]
    exact indexed.entered type entered
  cases enters with
  | none names entered =>
      constructor
      · intro name type inside
        obtain ⟨isEntered, isName⟩ := kept name type (names ▸ inside)
        exact ⟨(entered type).mpr isEntered, isName⟩
      · rw [names]
        exact indexed.latestFirst
      · intro type isEntered
        rw [names]
        exact keptEntry type ((entered type).mp isEntered)
  | next names entered =>
      constructor
      · intro name type inside
        rw [names] at inside
        rcases List.mem_cons.mp inside with new | inside
        · cases new
          exact ⟨(entered _).mpr (.inl rfl), rfl⟩
        · obtain ⟨isEntered, isName⟩ := kept name type inside
          exact ⟨(entered type).mpr (.inr isEntered), isName⟩
      · rw [names, List.pairwise_cons]
        refine ⟨fun other inside => ?_, indexed.latestFirst⟩
        exact Nat.lt_succ_of_le (indexed.named other.1 other.2 inside).1.admits
      · intro type isEntered
        rw [names]
        rcases (entered type).mp isEntered with rfl | old
        · exact List.mem_cons_self
        · exact List.mem_cons_of_mem _ (keptEntry type old)

theorem isDeclared_initial (known : initial.has type = true) : initial.IsDeclared type := by
  have all : ∀ position < CoreType.count, initial.IsDeclared (.entry position) := by
    decide +kernel
  obtain ⟨entry, found⟩ := Option.isSome_iff_exists.mp known
  have inside := admits_of_find? found
  rw [Admits, size_initial] at inside
  cases type with
  | null => cases found
  | entry position => exact all position inside

theorem indexed_initial : initial.Indexed := by
  have all : initial.names.all (fun named =>
        initial.has named.2 && initial.fullName named.2 == named.1) &&
      decide (initial.names.Pairwise fun younger older => older.2.height < younger.2.height) &&
      (List.range CoreType.count).all fun position =>
        initial.names.contains (initial.fullName (.entry position), .entry position) := by
    decide +kernel
  simp only [Bool.and_eq_true, List.all_eq_true, decide_eq_true_eq, beq_iff_eq, List.mem_range,
    List.contains_iff_mem] at all
  obtain ⟨⟨named, latestFirst⟩, entered⟩ := all
  refine ⟨fun name type inside => ?_, latestFirst, fun type isEntered => ?_⟩
  · obtain ⟨known, isName⟩ := named (name, type) inside
    exact ⟨interned_initial.isEntered (isDeclared_initial known), isName⟩
  · have inside := isEntered.admits
    rw [Admits, size_initial] at inside
    cases type with
    | null => cases isEntered.known
    | entry position => exact entered position inside

theorem Reached.indexed (reached : Reached catalog) : catalog.Indexed := by
  induction reached with
  | refl => exact indexed_initial
  | tail earlier operation ih =>
      have extended := Reached.extends_of_operation earlier operation
      exact ih.grow extended ((Reached.interned earlier).enters extended operation.change)

/-- A name stands for a type that bears it. -/
theorem Indexed.fullName_of_findType? (indexed : catalog.Indexed) {name : String}
    (found : catalog.findType? name = some type) : catalog.fullName type = name :=
  (indexed.named name type (mem_of_lookup found)).2

/-- The type is entered under this name, and no younger one is. -/
structure IsLatest (catalog : Catalog) (name : String) (type : TypeId) : Prop where
  entered : catalog.IsEntered type
  isName : catalog.fullName type = name
  latest : ∀ other, catalog.IsEntered other → catalog.fullName other = name →
    other.height ≤ type.height

theorem IsLatest.unique {name : String} {other : TypeId} (latest : catalog.IsLatest name type)
    (otherLatest : catalog.IsLatest name other) : type = other :=
  TypeId.height_injective (Nat.le_antisymm (otherLatest.latest type latest.entered latest.isName)
    (latest.latest other otherLatest.entered otherLatest.isName))

theorem Indexed.isLatest_of_findType? (indexed : catalog.Indexed) {name : String}
    (found : catalog.findType? name = some type) : catalog.IsLatest name type := by
  obtain ⟨isEntered, isName⟩ := indexed.named name type (mem_of_lookup found)
  refine ⟨isEntered, isName, fun other otherEntered sameName => ?_⟩
  have otherInside := indexed.entered other otherEntered
  obtain ⟨front, back, split, missed⟩ := List.lookup_eq_some_iff.mp found
  have ordered := indexed.latestFirst
  rw [split] at ordered otherInside
  -- the names before the one that is found are other names
  rcases List.mem_append.mp otherInside with before | here
  · have different := missed _ before
    rw [sameName, bne_self_eq_false] at different
    cases different
  · rcases List.mem_cons.mp here with same | after
    · exact Nat.le_of_eq (congrArg TypeId.height (Prod.mk.inj same).2)
    · have behind := (List.pairwise_cons.mp (List.pairwise_append.mp ordered).2.1).1
      exact Nat.le_of_lt (behind _ after)

theorem Indexed.isSome_findType? (indexed : catalog.Indexed) (entered : catalog.IsEntered type) :
    (catalog.findType? (catalog.fullName type)).isSome = true :=
  List.lookup_isSome_iff.mpr
    ⟨_, indexed.entered type entered, beq_self_eq_true (catalog.fullName type)⟩

/-- **A name stands for the latest of the types that are entered under it.** -/
theorem Indexed.findType?_eq_some_iff (indexed : catalog.Indexed) {name : String} :
    catalog.findType? name = some type ↔ catalog.IsLatest name type := by
  refine ⟨indexed.isLatest_of_findType?, fun latest => ?_⟩
  obtain ⟨found, isFound⟩ :=
    Option.isSome_iff_exists.mp (indexed.isSome_findType? latest.entered)
  rw [latest.isName] at isFound
  rw [isFound, (indexed.isLatest_of_findType? isFound).unique latest]

/-! ## Names of built catalogs -/

/-- Every type that is entered is declared or instantiated. -/
def EntriesAreDeclared (catalog : Catalog) : Prop :=
  ∀ type, catalog.IsEntered type → catalog.IsDeclared type

theorem EntriesAreDeclared.grow (declared : catalog.EntriesAreDeclared)
    (extended : grown.Extends catalog) (enters : Enters catalog grown)
    (new : ∀ entry, grown.find? catalog.nextId = some entry →
      entry.IsDeclared ∨ grown.IsMadeArray catalog.nextId) : grown.EntriesAreDeclared := by
  intro type isEntered
  have kept (old : catalog.IsEntered type) : grown.IsDeclared type :=
    (extended.isDeclared_iff old.admits).mpr (declared type old)
  cases enters with
  | none _ entered => exact kept ((entered type).mp isEntered)
  | next _ entered =>
      rcases (entered type).mp isEntered with rfl | old
      · obtain ⟨entry, found⟩ := Option.isSome_iff_exists.mp isEntered.known
        rcases new entry found with isDeclared | isMade
        · exact ⟨entry, found, isDeclared⟩
        · exact absurd isMade isEntered.noArray
      · exact kept old

theorem find?_modify_nextId (catalog : Catalog) (changed : TypeId)
    (change : TypeEntry → TypeEntry) :
    (catalog.modify changed change).find? catalog.nextId = none := by
  rw [find?_modify, find?_nextId]
  split <;> rfl

theorem find?_defineAssembly (catalog : Catalog) (name : AssemblyName) (isDynamic : Bool)
    (type : TypeId) :
    (catalog.defineAssembly name isDynamic).2.find? type = catalog.find? type := by
  unfold defineAssembly
  split <;> rfl

/-- **In a built catalog all that is entered is declared or instantiated.** -/
theorem Built.entriesAreDeclared (built : catalog.Built) : catalog.EntriesAreDeclared := by
  have grow {before after : Catalog} (built : before.Built) (operation : Operation before after)
      (declared : before.EntriesAreDeclared) := declared.grow
    (built.reached.extends_of_operation operation)
    (built.reached.interned.enters (built.reached.extends_of_operation operation) operation.change)
  induction built with
  | initial => exact fun type entered => isDeclared_initial entered.known
  | defineAssembly built name isDynamic ih =>
      refine grow built (.defineAssembly name isDynamic) ih fun entry found => ?_
      rw [find?_defineAssembly, find?_nextId] at found
      cases found
  | define built declaration admitted ih =>
      refine grow built (.define (.nominal declaration.kind) declaration ?_) ih fun entry found => ?_
      · rw [TypeKind.parts_nominal, List.append_nil]
        exact admitted
      · rw [find?_defineAs_nextId] at found
        cases found
        exact .inl (.inl ⟨declaration.kind, rfl⟩)
  | @instantiate before built generic arguments made admitted found ih =>
      refine grow built (.instantiate admitted found) ih fun entry isNew => ?_
      obtain ⟨definition, _, _, _, _, ⟨_, same⟩ | ⟨_, _, isMade⟩⟩ := cases_of_instantiate? found
      · rw [same, find?_nextId] at isNew
        cases isNew
      · have made := find?_push_nextId before (definition.instantiate generic arguments)
        rw [isMade] at isNew
        cases made.symm.trans isNew
        exact .inl (.inr ⟨generic, arguments, rfl⟩)
  | @arrayOf before built element admitted rank ih =>
      refine grow built (.arrayOf admitted rank) ih fun entry isNew => ?_
      rcases cases_of_arrayOf before element rank with ⟨_, same⟩ | ⟨_, made⟩
      · rw [same, find?_nextId] at isNew
        cases isNew
      · rw [made]
        exact .inr ⟨element, rank, List.lookup_cons_self⟩
  | addMember built type name memberType kind isStatic ih =>
      refine grow built (.addMember type name memberType kind isStatic) ih fun entry found => ?_
      cases (find?_modify_nextId _ _ _).symm.trans found
  | addMethod built type method ih =>
      refine grow built (.addMethod type method) ih fun entry found => ?_
      cases (find?_modify_nextId _ _ _).symm.trans found
  | addIndexer built type parameters itemType settable ih =>
      refine grow built (.addIndexer type parameters itemType settable) ih fun entry found => ?_
      cases (find?_modify_nextId _ _ _).symm.trans found
  | addConstructor built type parameters ih =>
      refine grow built (.addConstructor type parameters) ih fun entry found => ?_
      cases (find?_modify_nextId _ _ _).symm.trans found

/-- **In a built catalog all that bears a name is declared or instantiated.** -/
theorem Built.isDeclared_of_findType? (built : catalog.Built) {name : String}
    (found : catalog.findType? name = some type) : catalog.IsDeclared type :=
  built.entriesAreDeclared type (built.reached.indexed.isLatest_of_findType? found).entered

/-- **In a built catalog a name stands for the latest class, structure, interface, enumeration or
instantiation that bears it.** -/
theorem Built.findType?_eq_some_iff (built : catalog.Built) {name : String} :
    catalog.findType? name = some type ↔
      catalog.IsDeclared type ∧ catalog.fullName type = name ∧
        ∀ other, catalog.IsDeclared other → catalog.fullName other = name →
          other.height ≤ type.height := by
  rw [built.reached.indexed.findType?_eq_some_iff]
  constructor
  · intro latest
    exact ⟨built.entriesAreDeclared type latest.entered, latest.isName,
      fun other declared => latest.latest other (built.reached.isEntered declared)⟩
  · rintro ⟨declared, isName, latest⟩
    exact ⟨built.reached.isEntered declared, isName,
      fun other entered => latest other (built.entriesAreDeclared other entered)⟩

end Catalog

end ExprImports
