import ExprImports.Proofs.Schema.Outlines
import Mathlib.Tactic.Tauto

/-!
# Declaring types and members

What declarations make of the outline of a catalog that is loaded. A type that is declared under a
new name gives that name its heading (`Loaded.follows_define`), and members make the body of one name
longer (`Loaded.follows_modify`). All other names keep their headings and bodies.
-/

set_option autoImplicit false

namespace ExprImports

namespace Catalog

section Growing

variable {before after : Catalog} {type : TypeId} {entry : TypeEntry}

/-! ## Members -/

/-- The later catalog is loaded as well and continues the earlier one, and it has the outline that is
told. -/
structure Follows (before after : Catalog) (told : Outline) : Prop where
  loaded : after.Loaded
  continues : Continues before after
  outline : after.outline = told

theorem Follows.refl (loaded : before.Loaded) : Follows before before before.outline :=
  ⟨loaded, ⟨.refl before, fun _ _ _ found => found⟩, rfl⟩

/-- A type that stands under a name without brackets has it as its own. -/
theorem Loaded.named_of_findType? (loaded : before.Loaded) {name : String}
    (plain : ¬ IsBracketed name) (stands : before.findType? name = some type) :
    before.fullName type = name ∧
      ∃ entry, before.find? type = some entry ∧ entry.isNamed = true := by
  have isName := loaded.built.reached.indexed.fullName_of_findType? stands
  obtain ⟨entry, found, noArray⟩ := loaded.built.regular.isNominal_of_findType? stands
  have noInstantiation (generic : TypeId) (arguments : List TypeId) :
      entry.genericity ≠ .instantiation generic arguments :=
    fun applied => plain (isName ▸ isBracketed_fullName found noArray applied)
  obtain ⟨other, isOther, ⟨kind, isKind⟩ | ⟨generic, arguments, applied⟩⟩ :=
    loaded.built.isDeclared_of_findType? stands
  all_goals obtain rfl := Option.some.inj (found.symm.trans isOther)
  · refine ⟨isName, entry, found, ?_⟩
    unfold TypeEntry.isNamed
    cases generic : entry.genericity with
    | plain | definition => simp only [isKind]
    | instantiation definition arguments => exact absurd generic (noInstantiation _ _)
  · exact absurd applied (noInstantiation generic arguments)

theorem IsTold.of_isNamed {catalog : Catalog} (named : entry.isNamed = true)
    (plain : ¬ IsBracketed (catalog.fullName type))
    (stands : catalog.findType? (catalog.fullName type) = some type)
    (admits : ∀ part ∈ entry.toldTypes, catalog.Admits part) : catalog.IsTold type entry where
  named _ := ⟨plain, stands⟩
  bare isDerived := by
    rw [named] at isDerived
    cases isDerived
  array element rank isArray := by
    simp only [TypeEntry.isNamed, isArray] at named
    cases named
  instantiation generic arguments applied := by
    rw [isNamed_of_instantiation applied] at named
    cases named
  admits := admits

section Modifying

variable {name : String} {change : TypeEntry → TypeEntry} {body : Body}

theorem findType?_modify (catalog : Catalog) (type : TypeId) (change : TypeEntry → TypeEntry)
    (name : String) : (catalog.modify type change).findType? name = catalog.findType? name := by
  cases type <;> rfl

theorem find?_modify_self (change : TypeEntry → TypeEntry)
    (found : before.find? type = some entry) :
    (before.modify type change).find? type = some (change entry) := by
  rw [find?_modify, if_pos rfl, found, Option.map_some]

theorem find?_modify_of_ne {other : TypeId} (isOther : type ≠ other) :
    (before.modify type change).find? other = before.find? other :=
  (find?_modify before type other change).trans (if_neg isOther)

variable (declares : ∀ entry : TypeEntry, entry.Declares type (change entry))
include declares

theorem continues_modify : Continues before (before.modify type change) :=
  ⟨(Step.declare type change declares : Step before _).extends, fun name _ _ found =>
    (findType?_modify before type change name).trans found⟩

/-- The types that are named by the entry that is changed are there. -/
theorem Loaded.admits_modify (loaded : before.Loaded) (found : before.find? type = some entry)
    (admitted : ∀ part ∈ (change entry).mentions, part ∈ entry.mentions ∨ before.Admits part) :
    ∀ part ∈ (change entry).toldTypes, before.Admits part := by
  intro part isPart
  have told := loaded.told type entry found
  have more := (declares entry).extends
  rcases List.mem_append.mp isPart with inHeading | mentioned
  · rw [more.parts, more.genericity] at inHeading
    exact told.admits part (List.mem_append_left _ inHeading)
  · rcases admitted part mentioned with old | here
    · exact told.admits part (List.mem_append_right _ old)
    · exact here

theorem Loaded.headings_modify (loaded : before.Loaded) :
    (before.modify type change).outline.headings = before.outline.headings :=
  funext fun name => loaded.headings_eq (continues_modify declares) fun _ unknown =>
    (findType?_modify before type change name).trans unknown

theorem Loaded.bodies_modify (loaded : before.Loaded) (plain : ¬ IsBracketed name)
    (stands : before.findType? name = some type) (found : before.find? type = some entry)
    (admitted : ∀ part ∈ (change entry).toldTypes, before.Admits part)
    (grows : before.body (change entry) = (before.body entry).append body) :
    (before.modify type change).outline.bodies =
      Function.update before.outline.bodies name ((before.outline.bodies name).append body) := by
  have continues : Continues before (before.modify type change) := continues_modify declares
  have sameNames := findType?_modify before type change
  have isName := (loaded.named_of_findType? plain stands).1
  funext other
  by_cases here : other = name
  · subst here
    rw [Function.update_self, bodies_of_findType? plain stands found,
      bodies_of_findType? plain ((sameNames other).trans stands) (find?_modify_self change found),
      continues.kept.body_eq admitted, grows]
  · rw [Function.update_of_ne here]
    refine loaded.bodies_eq continues (fun _ => (sameNames other).trans) ?_
    intro plain owner known isOwner isKnown
    rw [find?_modify_of_ne, isKnown]
    -- a type stands under one name without brackets only, its own
    rintro rfl
    exact here ((loaded.named_of_findType? plain isOwner).1.symm.trans isName)

theorem Loaded.derived_modify (loaded : before.Loaded) (found : before.find? type = some entry)
    (named : entry.isNamed = true) :
    (before.modify type change).outline.derived = before.outline.derived := by
  have stillNamed := (declares entry).extends.isNamed_eq.trans named
  refine (loaded.derived_eq (continues_modify declares).kept ?_ ?_ (Set.empty_subset _)).trans
    (Set.union_empty _)
  · intro other known isKnown isDerived
    rw [find?_modify_of_ne, isKnown]
    rintro rfl
    obtain rfl := Option.some.inj (found.symm.trans isKnown)
    cases named.symm.trans isDerived
  · intro other known isKnown isDerived
    refine .inl ?_
    rw [← isKnown, find?_modify_of_ne]
    rintro rfl
    obtain rfl := Option.some.inj ((find?_modify_self change found).symm.trans isKnown)
    cases stillNamed.symm.trans isDerived

/-- **Adding to what a type declares** adds to the body of its name, and to nothing else. -/
theorem Loaded.follows_modify (loaded : before.Loaded) (plain : ¬ IsBracketed name)
    (stands : before.findType? name = some type) (built : (before.modify type change).Built)
    (admitted : ∀ entry : TypeEntry, ∀ part ∈ (change entry).mentions,
      part ∈ entry.mentions ∨ before.Admits part)
    (grows : ∀ entry, before.body (change entry) = (before.body entry).append body) :
    Follows before (before.modify type change) (before.outline.record name body) := by
  obtain ⟨isName, entry, found, named⟩ := loaded.named_of_findType? plain stands
  have continues : Continues before (before.modify type change) := continues_modify declares
  have admits := loaded.admits_modify declares found (admitted entry)
  have sameName := (continues.kept.fullName_eq (admits_of_find? found)).trans isName
  refine ⟨⟨built, fun other known isKnown => ?_⟩, continues, ?_⟩
  · by_cases same : type = other
    · subst same
      obtain rfl := Option.some.inj ((find?_modify_self change found).symm.trans isKnown)
      refine .of_isNamed ((declares entry).extends.isNamed_eq.trans named) ?_ ?_ ?_
      · rwa [sameName]
      · rw [sameName, findType?_modify, stands]
      · exact fun part isPart => Nat.le_trans (admits part isPart) continues.kept.size_le
    · rw [find?_modify_of_ne same] at isKnown
      exact loaded.isTold continues isKnown
  · simp only [Outline.record, ← loaded.bodies_modify declares plain stands found admits (grows entry),
      ← loaded.headings_modify declares, ← loaded.derived_modify declares found named,
      ← outline_assemblies_eq (assemblies_modify before type change)]

end Modifying

section Members

variable (loaded : before.Loaded) {name : String} (plain : ¬ IsBracketed name)
  (stands : before.findType? name = some type)
include loaded plain stands

theorem Loaded.follows_addMember {member : String} {memberType : TypeId}
    (admitted : before.Admits memberType) (kind : MemberKind) (isStatic : Bool) :
    Follows before (before.addMember type member memberType kind isStatic)
      (before.outline.record name
        { members := [⟨member, before.fullName memberType, kind, isStatic⟩] }) := by
  refine loaded.follows_modify (fun _ => .member _ rfl) plain stands
    (loaded.built.addMember type member memberType kind isStatic) ?_ ?_
  · intro entry part isPart
    simp only [TypeEntry.mentions, List.map_append, List.map_cons, List.map_nil, List.mem_append,
      List.mem_singleton] at isPart ⊢
    rcases isPart with ((old | rfl) | old) | old
    · exact .inl (.inl (.inl old))
    · exact .inr admitted
    · exact .inl (.inl (.inr old))
    · exact .inl (.inr old)
  · intro entry
    simp [Catalog.body, Body.append]

theorem Loaded.follows_addMethod (method : Method)
    (admitted : ∀ part ∈ method.parameters ++ method.returnType :: method.genericArguments,
      before.Admits part) :
    Follows before (before.addMethod type method)
      (before.outline.record name
        { methods := [
          { name := method.name
            parameters := method.parameters.map before.fullName
            returnType := before.fullName method.returnType
            genericArguments := method.genericArguments.map before.fullName
            isGenericDefinition := method.isGenericDefinition
            isStatic := method.isStatic
            kind := method.kind }] }) := by
  refine loaded.follows_modify (fun _ => .method _ rfl) plain stands
    (loaded.built.addMethod type method) ?_ ?_
  · intro entry part isPart
    simp only [TypeEntry.mentions, List.flatMap_append, List.flatMap_cons, List.flatMap_nil,
      List.append_nil] at isPart ⊢
    rcases List.mem_append.mp isPart with isPart | old
    · rcases List.mem_append.mp isPart with old | isPart
      · exact .inl (List.mem_append_left _ (List.mem_append_left _ old))
      · rcases List.mem_append.mp isPart with old | new
        · exact .inl (List.mem_append_left _ (List.mem_append_right _ old))
        · exact .inr (admitted part new)
    · exact .inl (List.mem_append_right _ old)
  · intro entry
    simp [Catalog.body, Body.append]

theorem Loaded.follows_addIndexer {parameters : List TypeId} {itemType : TypeId}
    (admitted : ∀ part ∈ parameters ++ [itemType], before.Admits part) (settable : Bool) :
    Follows before (before.addIndexer type parameters itemType settable)
      (before.outline.record name
        { methods := [
          { name := Catalog.indexerName
            parameters := parameters.map before.fullName
            returnType := before.fullName itemType
            genericArguments := []
            isGenericDefinition := false
            isStatic := false
            kind := .indexer settable }] }) :=
  loaded.follows_addMethod plain stands _ admitted

theorem Loaded.follows_addConstructor {parameters : List TypeId}
    (admitted : ∀ part ∈ parameters, before.Admits part) :
    Follows before (before.addConstructor type parameters)
      (before.outline.record name { constructors := [parameters.map before.fullName] }) := by
  refine loaded.follows_modify (fun _ => .constructor _ rfl) plain stands
    (loaded.built.addConstructor type parameters) ?_ ?_
  · intro entry part isPart
    simp only [TypeEntry.mentions, List.flatMap_append, List.flatMap_cons, List.flatMap_nil,
      List.append_nil] at isPart ⊢
    rcases List.mem_append.mp isPart with old | isPart
    · exact .inl (List.mem_append_left _ old)
    · rcases List.mem_append.mp isPart with old | new
      · exact .inl (List.mem_append_right _ old)
      · exact .inr (admitted part new)
  · intro entry
    simp [Catalog.body, Body.append]

end Members

end Growing

/-! ## Declarations -/

end Catalog

namespace TypeDeclaration

variable (declaration : TypeDeclaration)

/-- The name with the namespace. -/
def qualifiedName : String :=
  match declaration.namespaceName with
  | none => declaration.name
  | some namespaceName => namespaceName ++ "." ++ declaration.name

/-- The name by which the type is found, which has the number of parameters behind it if there are
any. -/
def recordedName : String :=
  if declaration.parameters.isEmpty then declaration.qualifiedName
  else Schema.genericName declaration.qualifiedName declaration.parameters.length

/-- The heading of the type, given the names of its base type and its interfaces. -/
def heading (base : Option String) (interfaces : List String) : Heading where
  fullName := declaration.recordedName
  name := declaration.name
  namespaceName := declaration.namespaceName
  assembly := declaration.assembly
  kind := .nominal declaration.kind
  base
  interfaces
  genericity :=
    if declaration.parameters.isEmpty then .plain else .definition declaration.parameters

/-- The headings of the parameters. -/
def parameterHeadings : Set Heading :=
  { heading | ∃ name ∈ declaration.parameters,
    Heading.parameter declaration.assembly name = heading }

end TypeDeclaration

namespace Catalog

section Declaring

variable {before : Catalog} {type : TypeId} {entry : TypeEntry} {declaration : TypeDeclaration}

theorem heading_parameterEntry {catalog : Catalog} {name : String}
    (found : catalog.find? type = some (declaration.parameterEntry name)) :
    catalog.heading type (declaration.parameterEntry name) =
      .parameter declaration.assembly name := by
  have isName := (fullName_of_not_instantiation found rfl).1 rfl
  rw [Catalog.heading, isName]
  rfl

theorem map_fullName_parameterIds (catalog : Catalog) (declaration : TypeDeclaration) :
    (declaration.parameterIds catalog.types.size).map (catalog.define declaration).2.fullName =
      declaration.parameters := by
  refine List.ext_getElem (by simp [TypeDeclaration.parameterIds]) fun index _ inside => ?_
  have found := find?_defineAs_parameter catalog (.nominal declaration.kind) declaration inside
  have isName := (fullName_of_not_instantiation found rfl).1 rfl
  simp only [TypeDeclaration.parameterIds, List.map_map, List.getElem_map, List.getElem_range,
    Function.comp_apply, isName]
  rfl

theorem fullName_define (catalog : Catalog) (declaration : TypeDeclaration) :
    (catalog.define declaration).2.fullName catalog.nextId = declaration.recordedName := by
  have found := find?_defineAs_nextId catalog (.nominal declaration.kind) declaration
  obtain ⟨ofPlain, ofDefinition⟩ := fullName_of_not_instantiation found rfl
  unfold TypeDeclaration.recordedName
  cases none : declaration.parameters.isEmpty with
  | true =>
      rw [if_pos rfl]
      refine ofPlain ?_
      rw [TypeDeclaration.entry, isEmpty_parameterIds, none]
      rfl
  | false =>
      rw [if_neg Bool.false_ne_true]
      refine (ofDefinition (declaration.parameterIds catalog.types.size) ?_).trans ?_
      · rw [TypeDeclaration.entry, isEmpty_parameterIds, none]
        rfl
      · rw [TypeDeclaration.parameterIds, List.length_map, List.length_range]
        rfl

theorem names_define (catalog : Catalog) (declaration : TypeDeclaration) :
    (catalog.define declaration).2.names =
      (declaration.recordedName, catalog.nextId) :: catalog.names :=
  fullName_define catalog declaration ▸ names_defineAs _ declaration catalog

theorem isNamed_entry (declaration : TypeDeclaration) (place : Nat) :
    (declaration.entry (.nominal declaration.kind) place).isNamed = true := by
  cases none : (declaration.parameterIds place).isEmpty <;>
    simp [TypeEntry.isNamed, TypeDeclaration.entry, none]

section Parents

variable (kept : (before.define declaration).2.Extends before)
  (admitted : ∀ parent ∈ declaration.interfaces ++ declaration.base.toList, before.Admits parent)
include kept admitted

theorem heading_define :
    (before.define declaration).2.heading before.nextId
        (declaration.entry (.nominal declaration.kind) before.types.size) =
      declaration.heading (declaration.base.map before.fullName)
        (declaration.interfaces.map before.fullName) := by
  have base : declaration.base.map (before.define declaration).2.fullName =
      declaration.base.map before.fullName := by
    refine Option.map_congr fun parent isBase => kept.fullName_eq (admitted parent ?_)
    simp [isBase]
  have interfaces : declaration.interfaces.map (before.define declaration).2.fullName =
      declaration.interfaces.map before.fullName := by
    refine List.map_congr_left fun parent isInterface => kept.fullName_eq (admitted parent ?_)
    exact List.mem_append_left _ isInterface
  have genericity : (before.define declaration).2.headingGenericity
      (declaration.entry (.nominal declaration.kind) before.types.size).genericity =
        if declaration.parameters.isEmpty then .plain else .definition declaration.parameters := by
    simp only [TypeDeclaration.entry, isEmpty_parameterIds]
    split
    · rfl
    · exact congrArg _ (map_fullName_parameterIds before declaration)
  rw [Catalog.heading, fullName_define, genericity]
  simp only [TypeDeclaration.entry, base, interfaces]
  rfl

theorem admits_define {part : TypeId}
    (isPart : part ∈ (declaration.entry (.nominal declaration.kind) before.types.size).toldTypes) :
    (before.define declaration).2.Admits part := by
  have cases : part ∈ declaration.interfaces ++ declaration.base.toList ∨
      part ∈ declaration.parameterIds before.types.size := by
    cases none : (declaration.parameterIds before.types.size).isEmpty <;>
      simp [TypeEntry.toldTypes, TypeEntry.parts, TypeDeclaration.entry, TypeEntry.mentions, none,
        Genericity.parts, Genericity.arguments] at isPart ⊢ <;> tauto
  rcases cases with isParent | isParameter
  · exact Nat.le_trans (admitted part isParent) kept.size_le
  · obtain ⟨index, inside, rfl⟩ := List.mem_map.mp isParameter
    exact admits_of_find? (find?_defineAs_parameter before _ declaration (List.mem_range.mp inside))

end Parents

theorem findType?_define_of_ne {name : String} (isOther : name ≠ declaration.recordedName) :
    (before.define declaration).2.findType? name = before.findType? name := by
  rw [findType?, names_define, List.lookup_cons, beq_false_of_ne isOther]
  rfl

theorem findType?_define_self (before : Catalog) (declaration : TypeDeclaration) :
    (before.define declaration).2.findType? declaration.recordedName = some before.nextId := by
  rw [findType?, names_define, List.lookup_cons_self]

theorem isTold_parameterEntry {catalog : Catalog} (name : String) :
    catalog.IsTold type (declaration.parameterEntry name) where
  named isNamed := by cases isNamed
  bare _ := ⟨rfl, rfl, rfl⟩
  array := by rintro _ _ ⟨⟩
  instantiation := by rintro _ _ ⟨⟩
  admits := List.forall_mem_nil _

section Fresh

variable (admitted : ∀ parent ∈ declaration.interfaces ++ declaration.base.toList,
    before.Admits parent)
  (unknown : before.findType? declaration.recordedName = none)
include admitted unknown

theorem continues_define : Continues before (before.define declaration).2 := by
  refine ⟨(steps_define before declaration admitted).extends, fun name type _ known => ?_⟩
  rw [findType?_define_of_ne, known]
  rintro rfl
  cases unknown.symm.trans known

theorem Loaded.headings_define (loaded : before.Loaded)
    (plain : ¬ IsBracketed declaration.recordedName) :
    (before.define declaration).2.outline.headings =
      Function.update before.outline.headings declaration.recordedName
        (some (declaration.heading (declaration.base.map before.fullName)
          (declaration.interfaces.map before.fullName))) := by
  have continues := continues_define admitted unknown
  funext name
  by_cases here : name = declaration.recordedName
  · subst here
    rw [Function.update_self, headings_of_findType? plain (findType?_define_self before declaration),
      heading?_of_find? (find?_defineAs_nextId before (.nominal declaration.kind) declaration),
      heading_define continues.kept admitted]
  · rw [Function.update_of_ne here]
    exact loaded.headings_eq continues fun _ => (findType?_define_of_ne here).trans

theorem Loaded.bodies_define (loaded : before.Loaded)
    (plain : ¬ IsBracketed declaration.recordedName) :
    (before.define declaration).2.outline.bodies = before.outline.bodies := by
  have continues := continues_define admitted unknown
  funext name
  by_cases here : name = declaration.recordedName
  · subst here
    rw [bodies_eq_empty unknown, bodies_of_findType? plain (findType?_define_self before declaration)
      (find?_defineAs_nextId before (.nominal declaration.kind) declaration)]
    rfl
  · exact loaded.bodies_eq continues (fun _ => (findType?_define_of_ne here).trans)
      fun _ _ _ _ => find?_defineAs_old

theorem Loaded.derived_define (loaded : before.Loaded) :
    (before.define declaration).2.outline.derived =
      before.outline.derived ∪ declaration.parameterHeadings := by
  refine loaded.derived_eq (continues_define admitted unknown).kept
    (fun _ _ found _ => find?_defineAs_old found) ?_ ?_
  · intro type entry found isDerived
    rcases find?_defineAs_cases found with known | ⟨_, rfl⟩ | ⟨name, inside, _, rfl⟩
    · exact .inl known
    · rw [isNamed_entry] at isDerived
      cases isDerived
    · exact .inr ⟨name, inside, (heading_parameterEntry found).symm⟩
  · rintro _ ⟨name, inside, rfl⟩
    obtain ⟨index, isIndex, rfl⟩ := List.mem_iff_getElem.mp inside
    have found := find?_defineAs_parameter before (.nominal declaration.kind) declaration isIndex
    exact heading_parameterEntry found ▸ mem_derived found rfl

/-- **Declaring a type** under a name that is not known yet gives that name its heading. -/
theorem Loaded.follows_define (loaded : before.Loaded)
    (plain : ¬ IsBracketed declaration.recordedName) :
    Follows before (before.define declaration).2 (before.outline.declare
      (declaration.heading (declaration.base.map before.fullName)
        (declaration.interfaces.map before.fullName)) declaration.parameterHeadings) := by
  have continues := continues_define admitted unknown
  refine ⟨⟨loaded.built.define declaration admitted, fun type entry found => ?_⟩, continues, ?_⟩
  · rcases find?_defineAs_cases found with known | ⟨rfl, rfl⟩ | ⟨name, _, _, rfl⟩
    · exact loaded.isTold continues known
    · refine .of_isNamed (isNamed_entry declaration _) ?_ ?_
        fun part => admits_define continues.kept admitted
      · rwa [fullName_define]
      · rw [fullName_define, findType?_define_self]
    · exact isTold_parameterEntry name
  · have isFullName : (declaration.heading (declaration.base.map before.fullName)
        (declaration.interfaces.map before.fullName)).fullName = declaration.recordedName := rfl
    simp only [Outline.declare, isFullName, ← loaded.headings_define admitted unknown plain,
      ← loaded.bodies_define admitted unknown plain, ← loaded.derived_define admitted unknown,
      ← outline_assemblies_eq (assemblies_defineAs before (.nominal declaration.kind) declaration)]

end Fresh

/-! ## The start -/

theorem loaded_initial : initial.Loaded := by
  refine ⟨.initial, every_initial fun position inside entry found => ?_⟩
  have all : ∀ position < CoreType.count, (initial.find? (.entry position)).all fun entry =>
      entry.isNamed && !decide (IsBracketed (initial.fullName (.entry position))) &&
        decide (initial.findType? (initial.fullName (.entry position)) = some (.entry position)) &&
          entry.toldTypes.all fun part => decide (part.height ≤ initial.types.size) := by
    decide +kernel
  have here := all position inside
  rw [found, Option.all_some] at here
  simp only [Bool.and_eq_true, Bool.not_eq_true', decide_eq_false_iff_not, decide_eq_true_eq,
    List.all_eq_true] at here
  obtain ⟨⟨⟨named, plain⟩, stands⟩, admits⟩ := here
  exact .of_isNamed named plain stands admits

theorem Loaded.defineAssembly (loaded : before.Loaded) (name : AssemblyName) (isDynamic : Bool) :
    (before.defineAssembly name isDynamic).2.Loaded := by
  have kept := (steps_defineAssembly before name isDynamic).extends
  have names := names_defineAssembly before name isDynamic
  refine ⟨loaded.built.defineAssembly name isDynamic, fun type entry found => ?_⟩
  rw [find?_defineAssembly] at found
  refine loaded.isTold ⟨kept, fun name type _ known => ?_⟩ found
  rw [findType?, names]
  exact known

end Declaring

end Catalog

end ExprImports
