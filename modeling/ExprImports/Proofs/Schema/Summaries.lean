import ExprImports.Proofs.Schema.Effects

/-!
# What a schema tells

The types of a schema are told by their headings and bodies, and the variables by the full names of
their types (`Schema.described`, `Schema.variableTypes`). Both can be told from the declarations
alone, step by step on outlines (`tell?`), and loading the schema agrees with it
(`ofDeclarations_agrees`).
-/

set_option autoImplicit false

namespace ExprImports

namespace Catalog

variable {before after : Catalog}

/-- The heading and the body of each type. -/
def described (catalog : Catalog) : Set (Heading × Body) :=
  { described | ∃ type entry, catalog.find? type = some entry ∧
    (catalog.heading type entry, catalog.body entry) = described }

theorem Follows.trans {middle : Catalog} {first second : Outline} (start : Follows before middle first)
    (further : Follows middle after second) : Follows before after second :=
  ⟨further.loaded, start.continues.trans further.continues, further.outline⟩

end Catalog

/-- The headings and bodies that the outline tells of. -/
def Outline.describes (outline : Outline) : Set (Heading × Body) :=
  { described | (∃ name, outline.headings name = some described.1 ∧
      outline.bodies name = described.2) ∨ (described.1 ∈ outline.derived ∧ described.2 = {}) }

theorem Catalog.Loaded.described_eq {catalog : Catalog} (loaded : catalog.Loaded) :
    catalog.described = catalog.outline.describes := by
  ext ⟨heading, body⟩
  constructor
  · rintro ⟨type, entry, found, same⟩
    cases same
    have told := loaded.told type entry found
    cases named : entry.isNamed with
    | false =>
        refine .inr ⟨Catalog.mem_derived found named, ?_⟩
        obtain ⟨members, methods, constructors⟩ := told.bare named
        simp only [Catalog.body, members, methods, constructors, List.map_nil]
    | true =>
        obtain ⟨plain, stands⟩ := told.named named
        exact .inl ⟨_, (Catalog.headings_of_findType? plain stands).trans
          (Catalog.heading?_of_find? found), Catalog.bodies_of_findType? plain stands found⟩
  · rintro (⟨name, isHeading, isBody⟩ | ⟨⟨type, entry, found, derived, isHeading⟩, isBody⟩)
    · by_cases plain : IsBracketed name
      · simp only [Catalog.outline, if_pos plain] at isHeading
        cases isHeading
      · cases stands : catalog.findType? name with
        | none =>
            rw [Catalog.headings_eq_none stands] at isHeading
            cases isHeading
        | some type =>
            obtain ⟨entry, found⟩ := loaded.built.exists_find?_of_findType? stands
            rw [Catalog.headings_of_findType? plain stands, Catalog.heading?_of_find? found,
              Option.some.injEq] at isHeading
            rw [Catalog.bodies_of_findType? plain stands found] at isBody
            exact ⟨type, entry, found, Prod.ext isHeading isBody⟩
    · obtain ⟨members, methods, constructors⟩ := (loaded.told type entry found).bare derived
      refine ⟨type, entry, found, Prod.ext isHeading ?_⟩
      rw [isBody]
      simp only [Catalog.body, members, methods, constructors, List.map_nil]

namespace Schema

open Catalog (Grown Loaded Continues Follows)

variable {before : Catalog}

/-! ## All types -/

/-- The declared type is the one that stands under its name. -/
structure StandsFor (catalog : Catalog) (declared : DeclaredType) (type : TypeId) : Prop where
  plain : declared.HasPlainName
  found : catalog.findType? declared.recordedName = some type

theorem StandsFor.continue {after : Catalog} {declared : DeclaredType} {type : TypeId}
    (stands : StandsFor before declared type) (continues : Continues before after) :
    StandsFor after declared type :=
  ⟨stands.plain, continues.names _ type (not_isBracketed_recordedName stands.plain) stands.found⟩

theorem declareAll_agrees (loaded : before.Loaded) {types : List DeclaredType}
    (plain : ∀ declared ∈ types, declared.HasPlainName) :
    Agrees (fun made told => Follows before made.2 told ∧
        List.Forall₂ (StandsFor made.2) types made.1)
      (types.mapM (·.declare) before) (types.foldlM declare? before.outline) := by
  induction types generalizing before with
  | nil => exact .ok ⟨.refl loaded, .nil⟩
  | cons declared rest ih =>
      obtain ⟨isPlain, arePlain⟩ := List.forall_mem_cons.mp plain
      rw [List.mapM_cons, List.foldlM_cons]
      refine (declare_agrees loaded isPlain).bind ?_
      rintro ⟨type, middle⟩ _ ⟨follows, found⟩
      obtain rfl := follows.outline
      have others := ih follows.loaded arePlain
      rw [← Option.bind_fun_some (rest.foldlM declare? middle.outline)]
      refine others.bind ?_
      rintro ⟨types, last⟩ told ⟨followsAgain, stand⟩
      have stands : StandsFor middle declared type := ⟨isPlain, found⟩
      exact .ok ⟨follows.trans followsAgain, .cons (stands.continue followsAgain.continues) stand⟩

theorem describeAll_agrees (loaded : before.Loaded) {types : List DeclaredType}
    {identities : List TypeId} (stand : List.Forall₂ (StandsFor before) types identities) :
    Agrees (fun made told => Follows before made.2 told)
      ((forIn (types.zip identities) PUnit.unit fun pair _ => do
        pair.1.addMembers pair.2
        pure (ForInStep.yield PUnit.unit) : Load PUnit) before)
      (types.foldlM describe? before.outline) := by
  induction types generalizing before identities with
  | nil => exact .ok (.refl loaded)
  | cons declared rest ih =>
      cases stand with
      | cons first others =>
          rw [List.zip_cons_cons, List.forIn_cons, List.foldlM_cons]
          simp only [bind_assoc, pure_bind]
          refine (addMembers_agrees loaded first.plain first.found).bind ?_
          rintro ⟨_, middle⟩ _ follows
          obtain rfl := follows.outline
          have stillOthers := others.imp fun _ _ stands => stands.continue follows.continues
          exact (ih follows.loaded stillOthers).imp fun _ _ => follows.trans

/-! ## Variables -/

/-- Variables with the full names of their types. -/
abbrev VariableTypes := List (String × String)

def tellScope (catalog : Catalog) (scope : Scope) : VariableTypes :=
  scope.map fun binding => (binding.1, catalog.fullName binding.2)

/-- Binds a name to the full name of a type, in place of what it was bound to before. -/
def insertType (told : VariableTypes) (name type : String) : VariableTypes :=
  match told with
  | [] => [(name, type)]
  | (known, old) :: rest =>
    if known = name then (name, type) :: rest else (known, old) :: insertType rest name type

theorem tellScope_insert (catalog : Catalog) (scope : Scope) (name : String) (type : TypeId) :
    tellScope catalog (scope.insert name type) =
      insertType (tellScope catalog scope) name (catalog.fullName type) := by
  induction scope with
  | nil => rfl
  | cons binding rest ih =>
      obtain ⟨known, old⟩ := binding
      have first : tellScope catalog ((known, old) :: rest) =
          (known, catalog.fullName old) :: tellScope catalog rest := rfl
      rw [Scope.insert, first, insertType, ← ih]
      split <;> rfl

theorem mem_insert {scope : Scope} {name : String} {type : TypeId} {binding : String × TypeId}
    (inside : binding ∈ scope.insert name type) : binding ∈ scope ∨ binding = (name, type) := by
  induction scope with
  | nil => exact .inr (List.mem_singleton.mp inside)
  | cons first rest ih =>
      obtain ⟨known, old⟩ := first
      rw [Scope.insert] at inside
      split at inside
      · rcases List.mem_cons.mp inside with new | old
        · exact .inr new
        · exact .inl (List.mem_cons_of_mem _ old)
      · rcases List.mem_cons.mp inside with rfl | later
        · exact .inl List.mem_cons_self
        · exact (ih later).imp_left (List.mem_cons_of_mem _)

/-- The environment has one scope, whose variables have types with these full names. -/
structure HasVariables (catalog : Catalog) (environment : Environment) (told : VariableTypes) :
    Prop where
  single : environment.enclosing = []
  admits : ∀ binding ∈ environment.innermost, catalog.Admits binding.2
  told : tellScope catalog environment.innermost = told

theorem HasVariables.extends {after : Catalog} {environment : Environment} {told : VariableTypes}
    (has : HasVariables before environment told) (extended : after.Extends before) :
    HasVariables after environment told := by
  refine ⟨has.single, fun binding inside => Nat.le_trans (has.admits binding inside)
    extended.size_le, ?_⟩
  rw [← has.told]
  refine List.map_congr_left fun binding inside => ?_
  rw [extended.fullName_eq (has.admits binding inside)]

theorem HasVariables.insert {environment : Environment} {told : VariableTypes} {type : TypeId}
    (has : HasVariables before environment told) (admitted : before.Admits type) (name : String) :
    HasVariables before (environment.insert name type)
      (insertType told name (before.fullName type)) := by
  refine ⟨has.single, fun binding inside => ?_, ?_⟩
  · rcases mem_insert inside with old | rfl
    · exact has.admits binding old
    · exact admitted
  · rw [← has.told]
    exact tellScope_insert before _ name type

/-- The outline and the variables with one more binding. -/
def bindVariable? (told : Outline × VariableTypes) (binding : String × String) :
    Option (Outline × VariableTypes) :=
  ((TypeReference.ofText binding.2).reading? told.1.headings none).map fun (type, made) =>
    (told.1.gain made, insertType told.2 binding.1 type.fullName)

theorem isPlainNamespace_none : IsPlainNamespace none := by
  rintro _ ⟨⟩

theorem bindAll_agrees (loaded : before.Loaded) {environment : Environment} {told : VariableTypes}
    (has : HasVariables before environment told) (bindings : List (String × String)) :
    Agrees (fun made told => made.2.Loaded ∧ made.2.outline = told.1 ∧
        HasVariables made.2 made.1 told.2)
      ((forIn bindings environment fun binding environment => do
        let type ← resolve none (.variableNamed binding.1) binding.2
        pure (ForInStep.yield (environment.insert binding.1 type)) : Load Environment) before)
      (bindings.foldlM bindVariable? (before.outline, told)) := by
  induction bindings generalizing before environment told with
  | nil => exact .ok ⟨loaded, rfl, has⟩
  | cons binding rest ih =>
      rw [List.forIn_cons, List.foldlM_cons]
      simp only [bind_assoc, pure_bind]
      have agrees := resolve_text_agrees loaded isPlainNamespace_none (.variableNamed binding.1)
        binding.2
      refine Eq.subst (motive := Agrees _ _) (Option.bind_map ..).symm (agrees.bind ?_)
      rintro ⟨type, middle⟩ ⟨heading, made⟩ ⟨grown, isType⟩
      have hasMore := (has.extends grown.interns.kept).insert (Catalog.admits_of_heading? isType)
        binding.1
      rw [Catalog.fullName_of_heading? isType] at hasMore
      have others := ih grown.loaded hasMore
      rw [grown.outline] at others
      exact others

/-! ## Arrays -/

/-- Whether a type with this heading gets an array type. -/
def Heading.GetsArray (heading : Heading) : Prop :=
  (∃ kind, heading.kind = .nominal kind) ∧ ∀ parameters, heading.genericity ≠ .definition parameters

theorem getsArray_iff {catalog : Catalog} {type : TypeId} {entry : TypeEntry} :
    getsArray entry = true ↔ Heading.GetsArray (catalog.heading type entry) := by
  unfold getsArray Heading.GetsArray Catalog.heading
  cases entry.kind <;> cases entry.genericity <;>
    simp [Catalog.headingKind, Catalog.headingGenericity, Genericity.isDefinition]

/-- The headings of the arrays of these types. -/
def arraysAmong (catalog : Catalog) (elements : List TypeId) : Set Heading :=
  { array | ∃ element ∈ elements, ∃ heading, catalog.heading? element = some heading ∧
    heading.array = array }

theorem arraysAmong_cons {after : Catalog} {element : TypeId} {rest : List TypeId}
    {heading : Heading} (told : before.heading? element = some heading)
    (known : ∀ element ∈ rest, ∃ heading, before.heading? element = some heading)
    (kept : ∀ {type : TypeId} {heading : Heading}, before.heading? type = some heading →
      after.heading? type = some heading) :
    arraysAmong before (element :: rest) = {heading.array} ∪ arraysAmong after rest := by
  ext array
  constructor
  · rintro ⟨type, inside, other, isOther, rfl⟩
    rcases List.mem_cons.mp inside with rfl | later
    · rw [told, Option.some.injEq] at isOther
      exact .inl (congrArg _ isOther.symm)
    · exact .inr ⟨type, later, other, kept isOther, rfl⟩
  · rintro (rfl | ⟨type, later, other, isOther, rfl⟩)
    · exact ⟨element, List.mem_cons_self, heading, told, rfl⟩
    · obtain ⟨same, isSame⟩ := known type later
      rw [kept isSame, Option.some.injEq] at isOther
      exact ⟨type, List.mem_cons_of_mem _ later, same, isSame, congrArg _ isOther⟩

theorem grown_arraysAmong (loaded : before.Loaded) {elements : List TypeId}
    (known : ∀ element ∈ elements, ∃ heading, before.heading? element = some heading) :
    Grown before (elements.foldl (fun catalog element => (catalog.arrayOf element 1).2) before)
      (arraysAmong before elements) := by
  induction elements generalizing before with
  | nil =>
      have none : arraysAmong before [] = ∅ := by
        ext array
        simp [arraysAmong]
      rw [none]
      exact .refl loaded
  | cons element rest ih =>
      obtain ⟨⟨heading, told⟩, others⟩ := List.forall_mem_cons.mp known
      obtain ⟨grown, _⟩ := loaded.grown_arrayOf told
      have kept {type : TypeId} {heading : Heading} (told : before.heading? type = some heading) :=
        loaded.heading?_eq grown.interns.kept told
      rw [arraysAmong_cons told others kept]
      exact grown.trans (ih grown.loaded fun other isOther =>
        (others other isOther).imp fun _ => kept)

/-- The outline with an array for each type that gets one. -/
def withAllArrays (outline : Outline) : Outline :=
  outline.gain { array | ∃ heading ∈ outline.tells, Heading.GetsArray heading ∧
    heading.array = array }

theorem mem_typeIds {catalog : Catalog} {type : TypeId} {entry : TypeEntry}
    (found : catalog.find? type = some entry) : type ∈ catalog.typeIds := by
  cases type with
  | null => cases found
  | entry position =>
      have inside : position + 1 ≤ catalog.types.size := Catalog.admits_of_find? found
      exact List.mem_map.mpr ⟨position, List.mem_range.mpr inside, rfl⟩

theorem follows_withArrays (loaded : before.Loaded) :
    Follows before (withArrays before) (withAllArrays before.outline) := by
  have inside {type : TypeId}
      (listed : type ∈ before.typeIds.filter fun type => (before.find? type).any getsArray) :
      ∃ entry, before.find? type = some entry ∧ getsArray entry = true :=
    (Option.any_eq_true _ _).mp (List.mem_filter.mp listed).2
  have known : ∀ type ∈ before.typeIds.filter fun type => (before.find? type).any getsArray,
      ∃ heading, before.heading? type = some heading := fun type listed =>
    let ⟨_, found, _⟩ := inside listed
    ⟨_, Catalog.heading?_of_find? found⟩
  have grown := grown_arraysAmong loaded known
  refine ⟨grown.loaded, grown.interns.continues, grown.outline.trans (congrArg _ ?_)⟩
  ext array
  constructor
  · rintro ⟨type, listed, heading, told, rfl⟩
    obtain ⟨entry, found, gets⟩ := inside listed
    rw [Catalog.heading?_of_find? found, Option.some.injEq] at told
    exact ⟨heading, loaded.mem_tells_iff.mpr ⟨type, entry, found, told⟩,
      told ▸ getsArray_iff.mp gets, rfl⟩
  · rintro ⟨heading, told, gets, rfl⟩
    obtain ⟨type, entry, found, rfl⟩ := loaded.mem_tells_iff.mp told
    refine ⟨type, List.mem_filter.mpr ⟨mem_typeIds found, ?_⟩, _,
      Catalog.heading?_of_find? found, rfl⟩
    rw [found, Option.any_some, getsArray_iff.mpr gets]

/-! ## Whole schemas -/

/-- The catalog with all assemblies that are declared. -/
def withAssemblies (catalog : Catalog) (assemblies : List DeclaredAssembly) : Catalog :=
  assemblies.foldl (fun catalog assembly => (catalog.defineAssembly
    { name := assembly.name, version := assembly.version } assembly.isDynamic).2) catalog

theorem loaded_withAssemblies (loaded : before.Loaded) (assemblies : List DeclaredAssembly) :
    (withAssemblies before assemblies).Loaded := by
  induction assemblies generalizing before with
  | nil => exact loaded
  | cons assembly rest ih => exact ih (loaded.defineAssembly _ _)

theorem names_withAssemblies (catalog : Catalog) (assemblies : List DeclaredAssembly) :
    (withAssemblies catalog assemblies).names = catalog.names := by
  induction assemblies generalizing catalog with
  | nil => rfl
  | cons assembly rest ih => exact (ih _).trans (Catalog.names_defineAssembly catalog _ _)

/-- What is told of all types, and of the variables. -/
def tell? (outline : Outline) (types : List DeclaredType) (bindings : List (String × String)) :
    Option (Outline × VariableTypes) :=
  (types.foldlM declare? outline).bind fun declared =>
    (types.foldlM describe? declared).bind fun described =>
      (bindings.foldlM bindVariable? (described, [])).map fun (outline, variableTypes) =>
        (withAllArrays outline, variableTypes)

theorem forIn_assemblies {α : Type} (assemblies : List DeclaredAssembly) (next : PUnit → Load α)
    (before : Catalog) :
    ((forIn assemblies PUnit.unit fun assembly _ => do
      modify fun catalog => (catalog.defineAssembly
        { name := assembly.name, version := assembly.version } assembly.isDynamic).2
      pure (ForInStep.yield PUnit.unit)) >>= next) before =
        next PUnit.unit (withAssemblies before assemblies) := by
  induction assemblies generalizing before with
  | nil => rfl
  | cons assembly rest ih =>
      rw [List.forIn_cons]
      simp only [bind_assoc, pure_bind]
      exact ih _

theorem loadAll_eq (declarations : Declarations) (before : Catalog) :
    loadAll declarations before =
      (declarations.types.mapM (·.declare) (withAssemblies before declarations.assemblies)) >>=
        fun (types, middle) =>
          (forIn (declarations.types.zip types) PUnit.unit fun pair _ => do
            pair.1.addMembers pair.2
            pure (ForInStep.yield PUnit.unit) : Load PUnit) middle >>= fun (_, last) =>
              (forIn declarations.bindings {} fun binding environment => do
                let type ← resolve none (.variableNamed binding.1) binding.2
                pure (ForInStep.yield (environment.insert binding.1 type)) : Load Environment)
                last := by
  unfold loadAll
  rw [forIn_assemblies]
  simp only [bind_pure]
  rfl

end Schema

/-- The headings and bodies of the types. -/
def Schema.described (schema : Schema) : Set (Heading × Body) :=
  schema.catalog.described

/-- The variables with the full names of their types. -/
def Schema.variableTypes (schema : Schema) : List (String × String) :=
  schema.environment.bindings.map fun (name, type) => (name, schema.catalog.fullName type)

namespace Schema

/-- **Loading a schema agrees with telling it.** -/
theorem ofDeclarations_agrees {declarations : Declarations}
    (plain : ∀ declared ∈ declarations.types, declared.HasPlainName) :
    Agrees (fun schema told => schema.described = told.1.describes ∧ schema.variableTypes = told.2)
      (ofDeclarations declarations)
      (tell? (withAssemblies .initial declarations.assemblies).outline declarations.types
        declarations.bindings) := by
  have start := loaded_withAssemblies Catalog.loaded_initial declarations.assemblies
  unfold ofDeclarations tell?
  rw [loadAll_eq]
  simp only [bind_assoc]
  refine (declareAll_agrees start plain).bind ?_
  rintro ⟨types, middle⟩ _ ⟨follows, stand⟩
  obtain rfl := follows.outline
  refine (describeAll_agrees follows.loaded stand).bind ?_
  rintro ⟨_, last⟩ _ follows
  obtain rfl := follows.outline
  have none : HasVariables last {} [] := ⟨rfl, List.forall_mem_nil _, rfl⟩
  rw [Option.map_eq_bind]
  refine (bindAll_agrees follows.loaded none declarations.bindings).bind ?_
  rintro ⟨environment, catalog⟩ ⟨outline, told⟩ ⟨loaded, isOutline, has⟩
  obtain rfl := isOutline
  have arrays := follows_withArrays loaded
  have still := has.extends arrays.continues.kept
  refine .ok ⟨?_, ?_⟩
  · rw [described, arrays.loaded.described_eq, arrays.outline]
  · have single : environment.enclosing = [] := still.single
    have innermost : environment.bindings = environment.innermost := by
      rw [Environment.bindings, single, List.flatten_nil, List.append_nil]
    refine Eq.trans ?_ still.told
    rw [variableTypes, innermost]
    rfl

end Schema

end ExprImports
