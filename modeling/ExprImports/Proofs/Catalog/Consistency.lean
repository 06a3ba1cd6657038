import ExprImports.Proofs.Catalog.Index

/-!
# Consistent catalogs

A type is found by its full name, by its element and rank if it is an array, and by its
definition and arguments if it is an instantiation; an assembly is found by its simple name.
Whatever sequence of operations made a catalog, what is found agrees with the types that there
are, and it still does after any further operations (`consistent_of_reached`).

**Names.** A full name finds the most recent of the types that were declared or instantiated and
have that name. It need not find the most recent of all types of that name, because array types
that are made for their elements are found by these only. And it need not find a class, a
structure, an interface, an enumeration or an instantiation, because a type of any kind can be
declared (`not_findsLatestDeclared`). In a built catalog it does (`Built.findsLatestDeclared`).
-/

set_option autoImplicit false

namespace ExprImports.Catalog

variable {catalog grown later earlier : Catalog} {type : TypeId}

/-! ## Assemblies -/

/-- The simple names of the assemblies. -/
def assemblyNames (catalog : Catalog) : List String :=
  catalog.assemblies.toList.map (·.name.name)

/-- No operation gives two assemblies one simple name. -/
theorem Operation.nodup_assemblyNames (operation : Operation catalog grown)
    (distinct : catalog.assemblyNames.Nodup) : grown.assemblyNames.Nodup := by
  rcases operation.assemblies_cases with same | ⟨added, unknown, more⟩
  · rw [assemblyNames, same]
    exact distinct
  · rw [findAssembly?, Option.map_eq_none_iff, Array.findIdx?_eq_none_iff] at unknown
    rw [assemblyNames, more, Array.toList_push, List.map_append, List.nodup_append]
    refine ⟨distinct, List.pairwise_singleton _ _, fun known inside new isNew => ?_⟩
    obtain ⟨assembly, isAssembly, rfl⟩ := List.mem_map.mp inside
    have other := unknown assembly (Array.mem_toList_iff.mp isAssembly)
    rw [List.mem_singleton.mp isNew]
    exact ne_of_beq_false other

theorem assemblyNames_initial : initial.assemblyNames = [coreAssemblyName] := by
  decide +kernel

theorem Reached.nodup_assemblyNames (reached : Reached catalog) : catalog.assemblyNames.Nodup := by
  induction reached with
  | refl =>
      rw [assemblyNames_initial]
      exact List.pairwise_singleton _ coreAssemblyName
  | tail _ operation ih => exact operation.nodup_assemblyNames ih

/-! ## Consistency -/

/-- The tables of a catalog agree with its types, now and after any further operations. -/
structure Consistent (catalog : Catalog) : Prop where
  /-- No two assemblies have the same simple name. -/
  assemblies : catalog.assemblyNames.Nodup
  /-- A name stands for the most recent of the types that bear it and were declared or
  instantiated, and for no other type. -/
  found : ∀ name type, catalog.findType? name = some type ↔ catalog.IsLatest name type
  /-- All these types are found by a name. -/
  named : ∀ type, catalog.IsEntered type →
    (catalog.findType? (catalog.fullName type)).isSome = true
  /-- Classes, structures, interfaces, enumerations and instantiations are among them. -/
  entered : ∀ type, catalog.IsDeclared type → catalog.IsEntered type
  /-- What the tables of arrays and of instantiations hold is what its key says. -/
  interned : catalog.Interned
  /-- All that a type declares names it as the declaring type. -/
  owned : catalog.Owned
  /-- No type is changed, except that members, methods and constructors are added. -/
  kept : ∀ later, Operations catalog later → later.Extends catalog ∧
    ∀ type, catalog.has type = true → later.fullName type = catalog.fullName type
  /-- An array type is given back for its element and rank, and for nothing else. -/
  arrays : ∀ element rank, catalog.Admits element →
    ∀ later, Operations (catalog.arrayOf element rank).2 later →
      ∀ other otherRank, (later.arrayOf other otherRank).1 = (catalog.arrayOf element rank).1 ↔
        other = element ∧ otherRank = rank
  /-- An instantiation is given back for its definition and arguments, and for nothing else. -/
  instantiations : ∀ generic arguments made, (∀ argument ∈ arguments, catalog.Admits argument) →
    catalog.instantiate? generic arguments = some made →
      ∀ later, Operations made.2 later → ∀ other otherArguments,
        (later.instantiate? other otherArguments).map Prod.fst = some made.1 ↔
          other = generic ∧ otherArguments = arguments

/-- **Whatever operations made a catalog, its tables agree with its types.** -/
theorem consistent_of_reached (reached : catalog.Reached) : catalog.Consistent where
  assemblies := reached.nodup_assemblyNames
  found _ _ := reached.indexed.findType?_eq_some_iff
  named _ entered := reached.indexed.isSome_findType? entered
  entered _ declared := reached.isEntered declared
  interned := reached.interned
  owned := reached.owned
  kept later operations := by
    have extended := reached.extends operations
    refine ⟨extended, fun type known => ?_⟩
    obtain ⟨entry, found⟩ := Option.isSome_iff_exists.mp known
    exact extended.fullName_eq (admits_of_find? found)
  arrays element rank admitted later operations other otherRank := by
    have made : (catalog.arrayOf element rank).2.Reached := reached.tail (.arrayOf admitted rank)
    have ends : later.Reached := made.trans operations
    exact ends.interned.arrayOf_eq_iff (made.extends operations)
  instantiations generic arguments made admitted found later operations other otherArguments := by
    have grown : made.2.Reached := reached.tail (.instantiate admitted found)
    have ends : later.Reached := grown.trans operations
    exact ends.interned.instantiate?_eq_iff found (grown.extends operations)

/-- Every class, structure, interface, enumeration and instantiation is found by its full name as
the most recent of these types. -/
def FindsLatestDeclared (catalog : Catalog) : Prop :=
  ∀ type, catalog.IsDeclared type →
    ∃ latest, catalog.findType? (catalog.fullName type) = some latest ∧
      catalog.IsDeclared latest ∧
        ∀ other, catalog.IsDeclared other → catalog.fullName other = catalog.fullName type →
          other.height ≤ latest.height

/-- If nothing was declared as an array or a parameter, the most recent of these types is found. -/
theorem Built.findsLatestDeclared (built : catalog.Built) : catalog.FindsLatestDeclared := by
  intro type declared
  have named := built.reached.indexed.isSome_findType? (built.reached.isEntered declared)
  obtain ⟨latest, found⟩ := Option.isSome_iff_exists.mp named
  obtain ⟨isDeclared, _, bounds⟩ := built.findType?_eq_some_iff.mp found
  exact ⟨latest, found, isDeclared, bounds⟩

/-! ## Namesakes -/

namespace Namesakes

/-- The open class `Contoso.Box`. -/
def box : TypeId := .entry 16

/-- Boxes of integers. -/
def integerBox : TypeId := .entry 18

/-- The class that is declared by the name that boxes of integers have. -/
def namesake : TypeId := .entry 19

/-- A class of the namespace `Contoso`. -/
def declare (name : String) (parameters : List String) : TypeDeclaration :=
  { name, namespaceName := "Contoso", assembly := coreAssembly, kind := .classType
    base := some CoreType.object, parameters }

/-- Boxes of integers, and a class of the same name. -/
def boxes : Catalog :=
  let defined := (initial.define (declare "Box" ["T"])).2
  let instantiated := ((defined.instantiate? box [CoreType.int32]).getD (.null, defined)).2
  (instantiated.define (declare "Box<System.Int32>" [])).2

/-- The class that is declared by the name that arrays of integers have. -/
def bracketed : TypeId := .entry 16

/-- The array type of integers. -/
def integers : TypeId := .entry 17

/-- The type that is declared as an array of integers. -/
def declaredIntegers : TypeId := .entry 18

/-- A class `System.Int32[]`, and the array type of integers. -/
def collected : Catalog :=
  let named := (initial.define { declare "Int32[]" [] with namespaceName := "System" }).2
  (named.arrayOf CoreType.int32 1).2

/-- Another type of the same name, which is declared as an array. -/
def hidden : Catalog :=
  (collected.defineAs (.array CoreType.int32 1) (declare "Integers" [])).2

theorem reached_collected : collected.Reached :=
  (Built.arrayOf (.define .initial _ (by decide +kernel)) (by decide +kernel) 1).reached

theorem reached_hidden : hidden.Reached :=
  reached_collected.tail (.define _ _ (by decide +kernel))

theorem built_boxes : boxes.Built := by
  unfold boxes
  extract_lets defined instantiated
  have isDefined : defined.Built := .define .initial _ (by decide +kernel)
  have isInstantiated : instantiated.Built := by
    unfold instantiated
    cases made : defined.instantiate? box [CoreType.int32] with
    | none => exact isDefined
    | some found => exact .instantiate isDefined (by decide +kernel) made
  exact .define isInstantiated _ (by decide +kernel)

end Namesakes

/-- The name is that of both types and stands for the younger one. The older one is found by its
arguments as before. -/
theorem consistent_namesakes :
    Namesakes.boxes.Reached ∧ Namesakes.boxes.Consistent ∧
      Namesakes.boxes.fullName Namesakes.integerBox = "Contoso.Box<System.Int32>" ∧
      Namesakes.boxes.findType? "Contoso.Box<System.Int32>" = some Namesakes.namesake ∧
      (Namesakes.boxes.instantiate? Namesakes.box [CoreType.int32]).map Prod.fst =
        some Namesakes.integerBox := by
  have reached := Namesakes.built_boxes.reached
  exact ⟨reached, consistent_of_reached reached, by decide +kernel⟩

/-- The name of the array type finds the older class of that name. A type that is declared as an
array of integers afterwards is found instead of the class. -/
theorem not_findsLatestDeclared :
    (Namesakes.collected.Reached ∧
      Namesakes.collected.fullName Namesakes.integers = "System.Int32[]" ∧
      Namesakes.collected.findType? "System.Int32[]" = some Namesakes.bracketed) ∧
    Namesakes.hidden.Reached ∧ ¬ Namesakes.hidden.FindsLatestDeclared := by
  refine ⟨⟨Namesakes.reached_collected, by decide +kernel⟩, Namesakes.reached_hidden, ?_⟩
  intro finds
  have declared : Namesakes.hidden.IsDeclared Namesakes.bracketed := by decide +kernel
  obtain ⟨latest, found, isDeclared, _⟩ := finds Namesakes.bracketed declared
  have other : Namesakes.hidden.findType? (Namesakes.hidden.fullName Namesakes.bracketed) =
      some Namesakes.declaredIntegers := by decide +kernel
  have undeclared : ¬ Namesakes.hidden.IsDeclared Namesakes.declaredIntegers := by decide +kernel
  obtain rfl := Option.some.inj (found.symm.trans other)
  exact undeclared isDeclared

end ExprImports.Catalog
