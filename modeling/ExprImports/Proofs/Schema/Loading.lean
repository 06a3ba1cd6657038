import ExprImports.Proofs.Catalog.Interning
import ExprImports.Proofs.Catalog.Regularity
import ExprImports.Proofs.Outcomes
import ExprImports.Schema.Loading

/-!
# The catalogs of loaded schemas

Loading a schema grows a catalog by its operations only, and all types that it hands to
them exist by then: a reference is resolved to a type that the catalog has, or that it has
gained by the resolution. So the catalog of every schema that can be loaded is one of those
that the operations build (`built_of_ofDeclarations`, `built_of_ofText`, `built_core`).
-/

set_option autoImplicit false

namespace ExprImports

/-! ## Catalogs that have grown -/

/-- A built catalog that has at least as many types as an earlier one. -/
structure Catalog.Growth (before after : Catalog) : Prop where
  built : after.Built
  size_le : before.types.size ≤ after.types.size

namespace Catalog.Growth

variable {before middle after : Catalog}

theorem refl (built : before.Built) : Growth before before :=
  ⟨built, Nat.le_refl _⟩

theorem trans (first : Growth before middle) (second : Growth middle after) :
    Growth before after :=
  ⟨second.built, Nat.le_trans first.size_le second.size_le⟩

theorem admits (growth : Growth before after) {type : TypeId} (admitted : before.Admits type) :
    after.Admits type :=
  Nat.le_trans admitted growth.size_le

theorem of_steps (built : after.Built) (steps : Steps before after) : Growth before after :=
  ⟨built, steps.extends.size_le⟩

end Catalog.Growth

namespace Catalog

theorem Built.growth_defineAssembly {catalog : Catalog} (built : catalog.Built)
    (name : AssemblyName) (isDynamic : Bool) :
    Growth catalog (catalog.defineAssembly name isDynamic).2 :=
  .of_steps (built.defineAssembly name isDynamic) (steps_defineAssembly catalog name isDynamic)

theorem Built.growth_define {catalog : Catalog} (built : catalog.Built)
    {declaration : TypeDeclaration}
    (admitted : ∀ parent ∈ declaration.interfaces ++ declaration.base.toList,
      catalog.Admits parent) : Growth catalog (catalog.define declaration).2 :=
  .of_steps (built.define declaration admitted) (steps_define catalog declaration admitted)

/-- An array type exists once it has been asked for. -/
theorem Built.growth_arrayOf {catalog made : Catalog} (built : catalog.Built)
    {element array : TypeId} (admitted : catalog.Admits element)
    (done : catalog.arrayOf element 1 = (array, made)) :
    Growth catalog made ∧ made.Admits array := by
  have grown := built.arrayOf admitted 1
  have found := findArray?_arrayOf catalog element 1
  have steps := steps_arrayOf built.reached.core_le admitted 1
  rw [done] at grown found steps
  exact ⟨.of_steps grown steps, (grown.reached.interned.array _ _ _ found).admits⟩

/-- An instantiation exists once it has been asked for. -/
theorem Built.growth_instantiate {catalog made : Catalog} (built : catalog.Built)
    {generic instantiated : TypeId} {arguments : List TypeId}
    (admitted : ∀ argument ∈ arguments, catalog.Admits argument)
    (done : catalog.instantiate? generic arguments = some (instantiated, made)) :
    Growth catalog made ∧ made.Admits instantiated := by
  have grown := built.instantiate admitted done
  obtain ⟨kind, shape⟩ := (grown.reached.interned.instantiation _ _ _).mp
    (findInstantiation?_instantiate done)
  exact ⟨.of_steps grown (steps_instantiate built.ordered admitted done), shape.admits⟩

end Catalog

namespace Schema

open Catalog (Growth)

/-! ## References to types -/

theorem admits_of_lookupType? {catalog : Catalog} (built : catalog.Built)
    {namespaceName : Option String} {name : String} {type : TypeId}
    (found : lookupType? catalog namespaceName name = some type) : catalog.Admits type := by
  have known {name : String} (found : catalog.findType? name = some type) :
      catalog.Admits type := by
    obtain ⟨entry, isEntry, _⟩ := built.regular.isNominal_of_findType? found
    exact Catalog.admits_of_find? isEntry
  unfold lookupType? Catalog.resolveName? at found
  rcases Option.or_eq_some_iff.mp found with here | ⟨_, further⟩
  · exact known here
  · obtain ⟨place, _, there⟩ := List.exists_of_findSome?_eq_some further
    exact known there

section Resolving

variable {namespaceName : Option String} {before after : Catalog} {type : TypeId}

theorem lookupType?_of_resolve {text : String}
    (done : (TypeReference.name text).resolve namespaceName before = .ok (type, after)) :
    lookupType? before namespaceName (Binding.expandAlias text) = some type ∧ after = before := by
  rw [TypeReference.resolve] at done
  split at done
  · rename_i found
    cases done
    exact ⟨found, rfl⟩
  · cases done

/-- An array type is resolved if its element is. -/
theorem exists_of_resolve_array {element : TypeReference}
    (done : (TypeReference.array element).resolve namespaceName before = .ok (type, after)) :
    ∃ inner middle, element.resolve namespaceName before = .ok (inner, middle) ∧
      middle.arrayOf inner 1 = (type, after) := by
  rw [TypeReference.resolve] at done
  split at done
  · cases done
  · rename_i inner middle resolved
    exact ⟨inner, middle, resolved, Except.ok.inj done⟩

/-- An application is resolved if its arguments are, and its name is that of a definition for so
many arguments. -/
theorem exists_of_resolve_application {written definition : String} {arguments : List TypeReference}
    (done : (TypeReference.application written definition arguments).resolve namespaceName before =
      .ok (type, after)) :
    ∃ types middle generic, resolveReferences namespaceName before arguments = .ok (types, middle) ∧
      lookupType? middle namespaceName (definition ++ "`" ++ toString types.length) = some generic ∧
        middle.instantiate? generic types = some (type, after) := by
  rw [TypeReference.resolve] at done
  split at done
  · cases done
  · rename_i types middle resolved
    dsimp only at done
    split at done
    · cases done
    · rename_i generic found
      split at done
      · cases done
      · rename_i instantiated
        cases done
        exact ⟨types, middle, generic, resolved, found, instantiated⟩

theorem exists_of_resolveReferences_cons {reference : TypeReference} {rest : List TypeReference}
    {types : List TypeId}
    (done : resolveReferences namespaceName before (reference :: rest) = .ok (types, after)) :
    ∃ type middle others, reference.resolve namespaceName before = .ok (type, middle) ∧
      resolveReferences namespaceName middle rest = .ok (others, after) ∧ types = type :: others := by
  rw [resolveReferences] at done
  split at done
  · cases done
  · rename_i type middle resolved
    split at done
    · cases done
    · rename_i others last further
      cases done
      exact ⟨type, middle, others, resolved, further, rfl⟩

end Resolving

mutual

theorem growth_of_resolve {namespaceName : Option String} {catalog : Catalog}
    (built : catalog.Built) (reference : TypeReference) {type : TypeId} {grown : Catalog}
    (done : reference.resolve namespaceName catalog = .ok (type, grown)) :
    Growth catalog grown ∧ grown.Admits type := by
  cases reference with
  | name text =>
      obtain ⟨found, rfl⟩ := lookupType?_of_resolve done
      exact ⟨.refl built, admits_of_lookupType? built found⟩
  | array element =>
      obtain ⟨inner, middle, resolved, made⟩ := exists_of_resolve_array done
      obtain ⟨first, admitted⟩ := growth_of_resolve built element resolved
      exact (first.built.growth_arrayOf admitted made).imp_left first.trans
  | application written definition arguments =>
      obtain ⟨types, middle, generic, resolved, _, instantiated⟩ :=
        exists_of_resolve_application done
      obtain ⟨first, admitted⟩ := growth_of_resolveReferences built arguments resolved
      exact (first.built.growth_instantiate admitted instantiated).imp_left first.trans

theorem growth_of_resolveReferences {namespaceName : Option String} {catalog : Catalog}
    (built : catalog.Built) (references : List TypeReference) {types : List TypeId}
    {grown : Catalog}
    (done : resolveReferences namespaceName catalog references = .ok (types, grown)) :
    Growth catalog grown ∧ ∀ type ∈ types, grown.Admits type := by
  cases references with
  | nil =>
      rw [resolveReferences] at done
      cases done
      exact ⟨.refl built, List.forall_mem_nil _⟩
  | cons reference rest =>
      obtain ⟨type, middle, others, resolved, further, rfl⟩ := exists_of_resolveReferences_cons done
      obtain ⟨first, admitted⟩ := growth_of_resolve built reference resolved
      obtain ⟨second, admitsOthers⟩ := growth_of_resolveReferences first.built rest further
      exact ⟨first.trans second, List.forall_mem_cons.mpr ⟨second.admits admitted, admitsOthers⟩⟩

end

/-! ## Steps of loading -/

/-- If the step is made in a built catalog, then the catalog afterwards is a built one that
has at least as many types, and the result is as asked for. -/
def Loads {α : Type} (step : Load α) (holds : Catalog → α → Prop) : Prop :=
  ∀ ⦃before after : Catalog⦄ ⦃result : α⦄, before.Built → step before = .ok (result, after) →
    Growth before after ∧ holds after result

/-- The step, whatever its result, leaves a built catalog that is not smaller. -/
abbrev Grows {α : Type} (step : Load α) : Prop :=
  Loads step fun _ _ => True

section Steps

variable {α β : Type}

theorem exists_of_load_bind {first : Load α} {next : α → Load β} {before after : Catalog}
    {result : β} (done : (first >>= next) before = .ok (result, after)) :
    ∃ value middle, first before = .ok (value, middle) ∧ next value middle = .ok (result, after) := by
  obtain ⟨⟨value, middle⟩, found, done⟩ := exists_of_bind_eq_ok done
  exact ⟨value, middle, found, done⟩

theorem Loads.bind {first : Load α} {next : α → Load β} {holds : Catalog → α → Prop}
    {further : Catalog → β → Prop} (start : Loads first holds)
    (continues : ∀ value, Loads (next value) further) : Loads (first >>= next) further := by
  intro before after result built done
  obtain ⟨value, middle, found, done⟩ := exists_of_load_bind done
  obtain ⟨growth, _⟩ := start built found
  exact (continues value growth.built done).imp_left growth.trans

theorem grows_pure (value : α) : Grows (pure value) := by
  intro before after result built done
  cases done
  exact ⟨.refl built, trivial⟩

theorem grows_get : Grows (get : Load Catalog) := by
  intro before after result built done
  cases done
  exact ⟨.refl built, trivial⟩

theorem grows_modify {change : Catalog → Catalog}
    (growth : ∀ {catalog : Catalog}, catalog.Built → Growth catalog (change catalog)) :
    Grows (modify change) := by
  intro before after result built done
  cases done
  exact ⟨growth built, trivial⟩

/-- A round of a loop that changes the catalog and goes on. -/
theorem grows_record {change : Catalog → Catalog}
    (growth : ∀ {catalog : Catalog}, catalog.Built → Growth catalog (change catalog)) :
    Grows (do modify change; pure (ForInStep.yield PUnit.unit)) :=
  (grows_modify growth).bind fun _ => grows_pure _

/-- A loop leaves what each of its rounds leaves. -/
theorem grows_forIn {items : List α} {state : β} {round : α → β → Load (ForInStep β)}
    (each : ∀ item state, Grows (round item state)) : Grows (forIn items state round) := by
  induction items generalizing state with
  | nil => exact grows_pure state
  | cons item rest ih =>
      rw [List.forIn_cons]
      refine (each item state).bind fun outcome => ?_
      cases outcome with
      | done final => exact grows_pure final
      | yield state => exact ih

/-- What is loaded for several items, one after the other. -/
theorem loads_mapM {items : List α} {step : α → Load β} (holds : Catalog → β → Prop)
    (persists : ∀ {before after : Catalog}, Growth before after → ∀ {result : β},
      holds before result → holds after result)
    (each : ∀ item, Loads (step item) holds) :
    Loads (items.mapM step) fun catalog results => ∀ result ∈ results, holds catalog result := by
  induction items with
  | nil =>
      intro before after results built done
      cases done
      exact ⟨.refl built, List.forall_mem_nil _⟩
  | cons item rest ih =>
      intro before after results built done
      rw [List.mapM_cons] at done
      obtain ⟨first, middle, found, done⟩ := exists_of_load_bind done
      obtain ⟨others, last, further, done⟩ := exists_of_load_bind done
      cases done
      obtain ⟨growth, here⟩ := each item built found
      obtain ⟨later, there⟩ := ih growth.built further
      exact ⟨growth.trans later, List.forall_mem_cons.mpr ⟨persists later here, there⟩⟩

end Steps

/-! ## Types and members -/

theorem loads_resolve (namespaceName : Option String) (referrer : Referrer) (text : String) :
    Loads (resolve namespaceName referrer text) Catalog.Admits := by
  intro before after type built done
  exact growth_of_resolve built _ (mapError_eq_ok_iff.mp done)

theorem grows_resolve (namespaceName : Option String) (referrer : Referrer) (text : String) :
    Grows (resolve namespaceName referrer text) := by
  intro before after type built done
  exact (loads_resolve namespaceName referrer text built done).imp_right fun _ => trivial

theorem grows_resolveAll (namespaceName : Option String) (referrer : Referrer)
    (texts : List String) : Grows (resolveAll namespaceName referrer texts) := by
  intro before after types built done
  have loaded := loads_mapM (fun _ _ => True) (fun _ _ _ => trivial)
    (grows_resolve namespaceName referrer) built done
  exact loaded.imp_right fun _ => trivial

theorem admits_defaultBase (declared : DeclaredType) {catalog : Catalog} (built : catalog.Built)
    {base : TypeId} (isBase : declared.defaultBase = some base) : catalog.Admits base := by
  have core : CoreType.count ≤ catalog.types.size :=
    Catalog.size_initial ▸ built.extends_initial.size_le
  refine Nat.le_trans ?_ core
  unfold DeclaredType.defaultBase at isBase
  split at isBase <;> cases isBase <;> decide

/-- The end of a declaration: the interfaces are resolved, and the type is added. -/
theorem growth_of_define {step : String → Load TypeId}
    (each : ∀ text, Loads (step text) Catalog.Admits) {texts : List String}
    {declaration : List TypeId → TypeDeclaration} {before after : Catalog} {type : TypeId}
    (built : before.Built)
    (done : (do
      let interfaces ← texts.mapM step
      modifyGet fun catalog : Catalog => catalog.define (declaration interfaces)) before =
        .ok (type, after))
    {base : Option TypeId}
    (parents : ∀ interfaces, (declaration interfaces).interfaces = interfaces ∧
      (declaration interfaces).base = base)
    (admitted : ∀ parent, base = some parent → before.Admits parent) : Growth before after := by
  obtain ⟨interfaces, middle, resolved, done⟩ := exists_of_load_bind done
  obtain ⟨growth, exist⟩ := loads_mapM Catalog.Admits (fun later _ => later.admits) each built resolved
  have defined : after = (middle.define (declaration interfaces)).2 := by
    cases done
    rfl
  rw [defined]
  refine growth.trans (growth.built.growth_define fun parent isParent => ?_)
  rw [(parents interfaces).1, (parents interfaces).2] at isParent
  rcases List.mem_append.mp isParent with isInterface | isBase
  · exact exist parent isInterface
  · exact growth.admits (admitted parent (Option.mem_toList.mp isBase))

theorem grows_declare (declared : DeclaredType) : Grows declared.declare := by
  intro before after type built done
  refine ⟨?_, trivial⟩
  have resolves := loads_resolve declared.namespace? (.type declared.fullName)
  unfold DeclaredType.declare at done
  obtain ⟨_, _, found, done⟩ := exists_of_load_bind done
  cases found
  dsimp only at done
  cases isAssembly : before.findAssembly? declared.assembly with
  | none =>
      rw [isAssembly] at done
      cases done
  | some assembly =>
      rw [isAssembly] at done
      obtain ⟨_, _, found, done⟩ := exists_of_load_bind done
      cases found
      cases isKnown : declared.isKnown before with
      | true =>
          rw [isKnown] at done
          cases done
      | false =>
          rw [isKnown] at done
          cases isBase : declared.base with
          | none =>
              rw [isBase] at done
              obtain ⟨base, _, found, done⟩ := exists_of_load_bind done
              cases found
              exact growth_of_define resolves built done (fun _ => ⟨rfl, rfl⟩) fun _ =>
                admits_defaultBase declared built
          | some text =>
              rw [isBase] at done
              obtain ⟨base, middle, found, done⟩ := exists_of_load_bind done
              obtain ⟨⟨parent, _⟩, resolved, found⟩ := exists_of_map_eq_ok found
              cases found
              obtain ⟨growth, admitted⟩ := resolves text built resolved
              refine growth.trans
                (growth_of_define resolves growth.built done (fun _ => ⟨rfl, rfl⟩) ?_)
              rintro _ ⟨⟩
              exact admitted

theorem grows_addMembers (declared : DeclaredType) (type : TypeId) :
    Grows (declared.addMembers type) := by
  unfold DeclaredType.addMembers
  refine grows_get.bind fun catalog => ?_
  refine (grows_forIn fun property _ => ?_).bind fun _ => ?_
  · refine (grows_resolve _ _ _).bind fun _ => ?_
    refine grows_record fun built => ?_
    exact .of_steps (built.addMember ..) (Catalog.steps_addMember ..)
  refine (grows_forIn fun field _ => ?_).bind fun _ => ?_
  · refine (grows_resolve _ _ _).bind fun _ => ?_
    refine grows_record fun built => ?_
    exact .of_steps (built.addMember ..) (Catalog.steps_addMember ..)
  refine (grows_forIn fun method _ => ?_).bind fun _ => ?_
  · refine (grows_resolveAll _ _ _).bind fun _ => ?_
    dsimp only
    split
    · refine (grows_resolve _ _ _).bind fun _ => grows_record fun built => ?_
      exact .of_steps (built.addMethod ..) (Catalog.steps_addMethod ..)
    · refine (grows_pure _).bind fun _ => grows_record fun built => ?_
      exact .of_steps (built.addMethod ..) (Catalog.steps_addMethod ..)
  refine (grows_forIn fun constructor _ => ?_).bind fun _ => ?_
  · refine (grows_resolveAll _ _ _).bind fun _ => ?_
    refine grows_record fun built => ?_
    exact .of_steps (built.addConstructor ..) (Catalog.steps_addConstructor ..)
  refine (grows_forIn fun indexer _ => ?_).bind fun _ => grows_pure _
  refine (grows_resolveAll _ _ _).bind fun _ => (grows_resolve _ _ _).bind fun _ => ?_
  refine grows_record fun built => ?_
  exact .of_steps (built.addIndexer ..) (Catalog.steps_addMethod ..)

/-! ## Whole schemas -/

theorem grows_loadAll (declarations : Declarations) : Grows (loadAll declarations) := by
  unfold loadAll
  refine (grows_forIn fun assembly _ => grows_record fun built => ?_).bind fun _ => ?_
  · exact built.growth_defineAssembly _ _
  refine (loads_mapM (fun _ _ => True) (fun _ _ _ => trivial) grows_declare).bind fun types => ?_
  refine (grows_forIn fun pair _ => ?_).bind fun _ => ?_
  · exact (grows_addMembers _ _).bind fun _ => grows_pure _
  refine (grows_forIn fun binding environment => ?_).bind fun environment => grows_pure _
  exact (grows_resolve _ _ _).bind fun _ => grows_pure _

/-- Adding array types of types that there are. -/
theorem built_arrays {catalog : Catalog} (built : catalog.Built) {elements : List TypeId}
    (admitted : ∀ element ∈ elements, catalog.Admits element) :
    (elements.foldl (fun catalog element => (catalog.arrayOf element 1).2) catalog).Built := by
  induction elements generalizing catalog with
  | nil => exact built
  | cons element rest ih =>
      obtain ⟨here, later⟩ := List.forall_mem_cons.mp admitted
      obtain ⟨growth, _⟩ := built.growth_arrayOf here rfl
      exact ih growth.built fun other isOther => growth.admits (later other isOther)

theorem built_withArrays {catalog : Catalog} (built : catalog.Built) :
    (withArrays catalog).Built := by
  refine built_arrays built fun element isElement => ?_
  obtain ⟨entry, known, _⟩ := (Option.any_eq_true _ _).mp (List.mem_filter.mp isElement).2
  exact Catalog.admits_of_find? known

/-- **The core types alone.** -/
theorem built_core : core.catalog.Built :=
  built_withArrays .initial

/-- **Every schema that declarations make has a built catalog.** -/
theorem built_of_ofDeclarations {declarations : Declarations} {schema : Schema}
    (loaded : ofDeclarations declarations = .ok schema) : schema.catalog.Built := by
  obtain ⟨⟨environment, catalog⟩, found, done⟩ := exists_of_bind_eq_ok loaded
  cases done
  exact built_withArrays (grows_loadAll declarations .initial found).1.built

/-- **Every schema that a document makes has a built catalog.** -/
theorem built_of_ofText {text : String} {schema : Schema} (loaded : ofText text = .ok schema) :
    schema.catalog.Built := by
  unfold ofText at loaded
  split at loaded
  · cases loaded
  · exact built_of_ofDeclarations loaded

end Schema

end ExprImports
