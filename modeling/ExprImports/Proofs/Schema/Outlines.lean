import ExprImports.Proofs.Schema.Headings
import Mathlib.Data.Set.Insert
import Mathlib.Tactic.Tauto

/-!
# Outlines of catalogs

The outline of a catalog says which headings and bodies it has, and nothing about identities or
order. As long as a schema is loaded, what an operation makes of the outline can be told from the
outline alone.

**Arrays and instantiations** add one heading, whether the type is new or was there already
(`Loaded.grown_arrayOf`, `Loaded.grown_instantiate`), and the names that the catalog knew keep their
meaning.
-/

set_option autoImplicit false

namespace ExprImports

/-! ## Outlines -/

/-- What a catalog tells of its types and assemblies: the headings and bodies of the types with names
of their own, and the headings of all others. -/
structure Outline where
  assemblies : String → Option AssemblyId
  headings : String → Option Heading
  bodies : String → Body
  derived : Set Heading

namespace Outline

variable {outline : Outline}

/-- The outline with the headings of further arrays, instantiations or parameters. -/
def gain (outline : Outline) (new : Set Heading) : Outline :=
  { outline with derived := outline.derived ∪ new }

/-- The outline with one more declared type, and the headings of its parameters. -/
def declare (outline : Outline) (heading : Heading) (parameters : Set Heading) : Outline :=
  { outline with
    headings := Function.update outline.headings heading.fullName (some heading)
    derived := outline.derived ∪ parameters }

/-- The outline with more in the body of one type. -/
def record (outline : Outline) (name : String) (body : Body) : Outline :=
  { outline with
    bodies := Function.update outline.bodies name ((outline.bodies name).append body) }

theorem gain_gain (outline : Outline) (first second : Set Heading) :
    (outline.gain first).gain second = outline.gain (first ∪ second) := by
  simp only [gain, Set.union_assoc]

theorem gain_of_subset {new : Set Heading} (known : new ⊆ outline.derived) :
    outline.gain new = outline := by
  rw [gain, Set.union_eq_self_of_subset_right known]

@[simp] theorem gain_empty (outline : Outline) : outline.gain ∅ = outline :=
  gain_of_subset (Set.empty_subset _)

/-- The headings of all types. -/
def tells (outline : Outline) : Set Heading :=
  { heading | (∃ name, outline.headings name = some heading) ∨ heading ∈ outline.derived }

end Outline

namespace Catalog

def outline (catalog : Catalog) : Outline where
  assemblies := catalog.findAssembly?
  headings name := if IsBracketed name then none else (catalog.findType? name).bind catalog.heading?
  bodies name :=
    if IsBracketed name then {}
    else (((catalog.findType? name).bind catalog.find?).map catalog.body).getD {}
  derived := { heading | ∃ type entry, catalog.find? type = some entry ∧ entry.isNamed = false ∧
    catalog.heading type entry = heading }

section Reading

variable {catalog : Catalog} {type : TypeId} {entry : TypeEntry} {name : String}

theorem headings_of_findType? (plain : ¬ IsBracketed name)
    (found : catalog.findType? name = some type) :
    catalog.outline.headings name = catalog.heading? type := by
  simp only [outline, if_neg plain, found, Option.bind_some]

theorem bodies_of_findType? (plain : ¬ IsBracketed name)
    (named : catalog.findType? name = some type) (found : catalog.find? type = some entry) :
    catalog.outline.bodies name = catalog.body entry := by
  simp only [outline, if_neg plain, named, Option.bind_some, found, Option.map_some,
    Option.getD_some]

theorem headings_eq_none (unknown : catalog.findType? name = none) :
    catalog.outline.headings name = none := by
  simp only [outline, unknown, Option.bind_none, ite_self]

theorem bodies_eq_empty (unknown : catalog.findType? name = none) :
    catalog.outline.bodies name = {} := by
  simp only [outline, unknown, Option.bind_none, Option.map_none, Option.getD_none, ite_self]

theorem mem_derived (found : catalog.find? type = some entry) (derived : entry.isNamed = false) :
    catalog.heading type entry ∈ catalog.outline.derived :=
  ⟨type, entry, found, derived, rfl⟩

theorem Built.exists_find?_of_findType? (built : catalog.Built)
    (found : catalog.findType? name = some type) : ∃ entry, catalog.find? type = some entry := by
  obtain ⟨entry, isEntry, _⟩ := built.regular.isNominal_of_findType? found
  exact ⟨entry, isEntry⟩

/-- Whether a name without brackets stands for a type. -/
theorem Loaded.isSome_headings (loaded : catalog.Loaded) (plain : ¬ IsBracketed name) :
    (catalog.outline.headings name).isSome = (catalog.findType? name).isSome := by
  cases found : catalog.findType? name with
  | none =>
      rw [headings_eq_none found]
      rfl
  | some type =>
      obtain ⟨entry, isEntry⟩ := loaded.built.exists_find?_of_findType? found
      rw [headings_of_findType? plain found, heading?_of_find? isEntry, Option.isSome_some,
        Option.isSome_some]

/-- The headings of the outline are those of the types. -/
theorem Loaded.mem_tells_iff (loaded : catalog.Loaded) {heading : Heading} :
    heading ∈ catalog.outline.tells ↔
      ∃ type entry, catalog.find? type = some entry ∧ catalog.heading type entry = heading := by
  constructor
  · rintro (⟨name, told⟩ | ⟨type, entry, found, _, same⟩)
    · by_cases plain : IsBracketed name
      · simp only [outline, if_pos plain] at told
        cases told
      · cases named : catalog.findType? name with
        | none =>
            rw [headings_eq_none named] at told
            cases told
        | some type =>
            rw [headings_of_findType? plain named] at told
            obtain ⟨entry, found, same⟩ := Option.map_eq_some_iff.mp told
            exact ⟨type, entry, found, same⟩
    · exact ⟨type, entry, found, same⟩
  · rintro ⟨type, entry, found, rfl⟩
    cases named : entry.isNamed with
    | false => exact .inr (mem_derived found named)
    | true =>
        obtain ⟨plain, stands⟩ := (loaded.told type entry found).named named
        exact .inl ⟨_, (headings_of_findType? plain stands).trans (heading?_of_find? found)⟩

end Reading

/-! ## What continues -/

section Continuing

variable {before after : Catalog} {type : TypeId} {entry : TypeEntry} {name : String}

theorem Loaded.heading_eq (loaded : before.Loaded) (extended : after.Extends before)
    (found : before.find? type = some entry) :
    after.heading type entry = before.heading type entry :=
  extended.heading_eq found (loaded.told type entry found).admits (.refl entry)

theorem outline_assemblies_eq (same : after.assemblies = before.assemblies) :
    after.outline.assemblies = before.outline.assemblies := by
  funext name
  simp only [outline, findAssembly?, same]

/-- A name keeps its heading, unless it comes to stand for a type. -/
theorem Loaded.headings_eq (loaded : before.Loaded) (continues : Continues before after)
    (absent : ¬ IsBracketed name → before.findType? name = none → after.findType? name = none) :
    after.outline.headings name = before.outline.headings name := by
  by_cases plain : IsBracketed name
  · simp only [outline, if_pos plain]
  · cases named : before.findType? name with
    | none => rw [headings_eq_none named, headings_eq_none (absent plain named)]
    | some type =>
        obtain ⟨entry, found⟩ := loaded.built.exists_find?_of_findType? named
        rw [headings_of_findType? plain named,
          headings_of_findType? plain (continues.names name type plain named),
          heading?_of_find? found]
        exact loaded.heading?_eq continues.kept (heading?_of_find? found)

/-- A name keeps its body, unless it comes to stand for a type, or its type is changed. -/
theorem Loaded.bodies_eq (loaded : before.Loaded) (continues : Continues before after)
    (absent : ¬ IsBracketed name → before.findType? name = none → after.findType? name = none)
    (same : ¬ IsBracketed name → ∀ type entry, before.findType? name = some type →
      before.find? type = some entry → after.find? type = some entry) :
    after.outline.bodies name = before.outline.bodies name := by
  by_cases plain : IsBracketed name
  · simp only [outline, if_pos plain]
  · cases named : before.findType? name with
    | none => rw [bodies_eq_empty named, bodies_eq_empty (absent plain named)]
    | some type =>
        obtain ⟨entry, found⟩ := loaded.built.exists_find?_of_findType? named
        rw [bodies_of_findType? plain named found,
          bodies_of_findType? plain (continues.names name type plain named)
            (same plain type entry named found),
          continues.kept.body_eq (loaded.told type entry found).admits]

/-- What types without names there are, if the new ones among them have these headings. -/
theorem Loaded.derived_eq (loaded : before.Loaded) (extended : after.Extends before)
    {new : Set Heading}
    (kept : ∀ type entry, before.find? type = some entry → entry.isNamed = false →
      after.find? type = some entry)
    (cases : ∀ type entry, after.find? type = some entry → entry.isNamed = false →
      before.find? type = some entry ∨ after.heading type entry ∈ new)
    (gained : new ⊆ after.outline.derived) :
    after.outline.derived = before.outline.derived ∪ new := by
  refine Set.Subset.antisymm ?_ (Set.union_subset ?_ gained)
  · rintro heading ⟨type, entry, found, derived, rfl⟩
    rcases cases type entry found derived with old | isNew
    · rw [loaded.heading_eq extended old]
      exact .inl (mem_derived old derived)
    · exact .inr isNew
  · rintro heading ⟨type, entry, found, derived, rfl⟩
    rw [← loaded.heading_eq extended found]
    exact mem_derived (kept type entry found derived) derived

end Continuing

/-! ## Arrays and instantiations -/

/-- The later catalog is loaded as well and has more arrays, instantiations and parameters, which
have these headings. -/
structure Grown (before after : Catalog) (new : Set Heading) : Prop where
  loaded : after.Loaded
  interns : Interns before after
  outline : after.outline = before.outline.gain new

namespace Grown

variable {before middle after : Catalog} {first second : Set Heading}

theorem refl (loaded : before.Loaded) : Grown before before ∅ :=
  ⟨loaded, .refl before, (Outline.gain_empty _).symm⟩

theorem trans (start : Grown before middle first) (further : Grown middle after second) :
    Grown before after (first ∪ second) := by
  refine ⟨further.loaded, start.interns.trans further.interns, ?_⟩
  rw [further.outline, start.outline, Outline.gain_gain]

theorem headings_eq (grown : Grown before after first) :
    after.outline.headings = before.outline.headings := by
  rw [grown.outline]
  rfl

end Grown

section Growing

variable {before after : Catalog} {type : TypeId} {entry : TypeEntry}

/-- A type without a name of its own that is there already adds nothing. -/
theorem Loaded.grown_known (loaded : before.Loaded) (found : before.find? type = some entry)
    (derived : entry.isNamed = false) {heading : Heading}
    (same : before.heading type entry = heading) :
    Grown before before {heading} ∧ before.heading? type = some heading := by
  refine ⟨⟨loaded, .refl before, ?_⟩, by rw [heading?_of_find? found, same]⟩
  rw [Outline.gain_of_subset]
  rintro _ rfl
  exact same ▸ mem_derived found derived

/-- One more type that has no name of its own. -/
theorem Loaded.grown_push (loaded : before.Loaded) (built : after.Built)
    (interns : Interns before after) (assemblies : after.assemblies = before.assemblies)
    (pushed : ∀ type, after.find? type = if type = before.nextId then some entry
      else before.find? type)
    (derived : entry.isNamed = false) (told : after.IsTold before.nextId entry) {heading : Heading}
    (same : after.heading before.nextId entry = heading) :
    Grown before after {heading} ∧ after.heading? before.nextId = some heading := by
  have isNew : after.find? before.nextId = some entry := (pushed _).trans (if_pos rfl)
  have old {type : TypeId} {known : TypeEntry} (found : before.find? type = some known) :
      after.find? type = some known := by
    rw [pushed, if_neg ?_, found]
    rintro rfl
    rw [find?_nextId] at found
    cases found
  have cases {type : TypeId} {known : TypeEntry} (found : after.find? type = some known) :
      before.find? type = some known ∨ type = before.nextId ∧ known = entry := by
    rw [pushed] at found
    split at found
    · exact .inr ⟨‹_›, (Option.some.inj found).symm⟩
    · exact .inl found
  have continues := interns.continues
  -- instantiations are recorded under names with brackets only
  have absent (name : String) (plain : ¬ IsBracketed name)
      (unknown : before.findType? name = none) : after.findType? name = none :=
    (interns.findType?_eq plain).trans unknown
  have headings : after.outline.headings = before.outline.headings :=
    funext fun name => loaded.headings_eq continues (absent name)
  have bodies : after.outline.bodies = before.outline.bodies :=
    funext fun name => loaded.bodies_eq continues (absent name) fun _ _ _ _ => old
  have others : after.outline.derived = before.outline.derived ∪ {heading} := by
    refine loaded.derived_eq interns.kept (fun _ _ found _ => old found) ?_ ?_
    · intro type known found _
      rcases cases found with here | ⟨rfl, rfl⟩
      · exact .inl here
      · exact .inr same
    · rintro _ rfl
      exact same ▸ mem_derived isNew derived
  refine ⟨⟨⟨built, fun type known found => ?_⟩, interns, ?_⟩, ?_⟩
  · rcases cases found with here | ⟨rfl, rfl⟩
    · exact loaded.isTold continues here
    · exact told
  · simp only [Outline.gain, ← outline_assemblies_eq assemblies, ← headings, ← bodies, ← others]
  · rw [heading?_of_find? isNew, same]

/-- The core types keep their names. -/
theorem Built.fullName_core {catalog : Catalog} (built : catalog.Built)
    (core : type.height ≤ CoreType.count) : catalog.fullName type = Catalog.initial.fullName type :=
  built.extends_initial.fullName_eq (Nat.le_trans core (Nat.le_of_eq size_initial.symm))

/-- The array type has the heading that can be told from that of its element. -/
theorem heading_arrayEntry (built : after.Built) (kept : after.Extends before) {element : TypeId}
    (found : before.find? element = some entry)
    (isNew : after.find? type = some (arrayEntry element 1 (some entry))) :
    after.heading type (arrayEntry element 1 (some entry)) = (before.heading element entry).array := by
  have core : after.fullName CoreType.array = "System.Array" := by
    rw [built.fullName_core (by decide)]
    decide +kernel
  have elementName := kept.fullName_eq (admits_of_find? found)
  have isName := (built.ordered.fullName_array isNew rfl).trans
    (congrArg (· ++ arrayBrackets 1) elementName)
  simp only [Catalog.heading, isName, arrayEntry, headingKind, headingGenericity, Option.map_some,
    Option.bind_some, Option.getD_some, core, List.map_nil, elementName, Heading.array]

theorem Loaded.isTold_arrayEntry (loaded : before.Loaded) (built : after.Built)
    (kept : after.Extends before) {element : TypeId} (found : before.find? element = some entry)
    (isNew : after.find? type = some (arrayEntry element 1 (some entry))) :
    after.IsTold type (arrayEntry element 1 (some entry)) where
  named isNamed := by cases isNamed
  bare _ := ⟨rfl, rfl, rfl⟩
  array := by
    rintro _ _ ⟨⟩
    exact ⟨_, loaded.heading?_eq kept (heading?_of_find? found),
      heading_arrayEntry built kept found isNew⟩
  instantiation := by rintro _ _ ⟨⟩
  admits := by
    intro part isPart
    have isKnown : part = CoreType.array ∨ part = element := by
      simpa [TypeEntry.toldTypes, TypeEntry.parts, arrayEntry, TypeKind.parts, Genericity.parts,
        Genericity.arguments, TypeEntry.mentions] using isPart
    rcases isKnown with rfl | rfl
    · have core : CoreType.array.height ≤ initial.types.size := by decide +kernel
      exact Nat.le_trans core built.extends_initial.size_le
    · exact Nat.le_trans (admits_of_find? found) kept.size_le

/-- **Making an array adds its heading**, whether the array is new or not. -/
theorem Loaded.grown_arrayOf (loaded : before.Loaded) {element : TypeId} {inner : Heading}
    (told : before.heading? element = some inner) :
    Grown before (before.arrayOf element 1).2 {inner.array} ∧
      (before.arrayOf element 1).2.heading? (before.arrayOf element 1).1 = some inner.array := by
  obtain ⟨entry, found, rfl⟩ := Option.map_eq_some_iff.mp told
  rcases cases_of_arrayOf before element 1 with ⟨known, same⟩ | ⟨_, made⟩
  · obtain ⟨array, isKnown, isArray, _⟩ := loaded.built.reached.interned.array _ _ _ known
    obtain ⟨other, isOther, heading⟩ := (loaded.told _ array isKnown).array element 1 isArray
    obtain rfl := Option.some.inj (told.symm.trans isOther)
    rw [same]
    refine loaded.grown_known isKnown ?_ heading
    unfold TypeEntry.isNamed
    rw [isArray]
  · have interns := Interns.arrayOf before element 1
    have built := loaded.built.arrayOf (admits_of_find? found) 1
    rw [made, found] at interns built ⊢
    have pushed := find?_push before (arrayEntry element 1 (some entry))
    have isNew := find?_push_nextId before (arrayEntry element 1 (some entry))
    exact loaded.grown_push built interns rfl pushed rfl
      (loaded.isTold_arrayEntry built interns.kept found isNew)
      (heading_arrayEntry built interns.kept found isNew)

theorem mem_toldTypes_instantiate {definition part : TypeId} {arguments : List TypeId}
    (isPart : part ∈ (entry.instantiate definition arguments).toldTypes) :
    part ∈ entry.toldTypes ∨ part = definition ∨ part ∈ arguments := by
  simp only [TypeEntry.toldTypes, TypeEntry.parts, TypeEntry.instantiate, TypeEntry.mentions,
    Genericity.parts, Genericity.arguments, List.mem_append, List.mem_cons, List.map_nil,
    List.flatMap_nil, List.not_mem_nil] at isPart ⊢
  tauto

theorem isNamed_of_instantiation {generic : TypeId} {arguments : List TypeId}
    (applied : entry.genericity = .instantiation generic arguments) : entry.isNamed = false := by
  unfold TypeEntry.isNamed
  rw [applied]
  split <;> trivial

section Instantiating

variable {generic : TypeId} {arguments : List TypeId} {definition : Heading} {inners : List Heading}
  {parameters : List TypeId}

/-- The instantiation has the heading that can be told from those of the definition and the
arguments. -/
theorem Loaded.heading_instantiate (loaded : before.Loaded) (built : after.Built)
    (kept : after.Extends before) (isGeneric : before.heading? generic = some definition)
    (areInners : before.AreTold arguments inners) (known : before.find? generic = some entry)
    (isDefinition : entry.genericity = .definition parameters)
    (isNew : after.find? type = some (entry.instantiate generic arguments)) :
    after.heading type (entry.instantiate generic arguments) =
      definition.instantiate inners := by
  have noArray := loaded.built.regular.isArray_eq_false_of_definition known isDefinition
  have isName := built.ordered.fullName_instantiation isNew noArray rfl
  have stillInners : after.AreTold arguments inners :=
    areInners.imp fun _ _ => loaded.heading?_eq kept
  rw [heading?_of_find? known, Option.some.injEq, ← loaded.heading_eq kept known] at isGeneric
  rw [Catalog.heading, isName, ← isGeneric, Heading.instantiate, ← stillInners.map_fullName]
  rfl

theorem Loaded.isTold_instantiate (loaded : before.Loaded) (built : after.Built)
    (kept : after.Extends before) (isGeneric : before.heading? generic = some definition)
    (areInners : before.AreTold arguments inners) (known : before.find? generic = some entry)
    (isDefinition : entry.genericity = .definition parameters)
    (isNew : after.find? type = some (entry.instantiate generic arguments)) :
    after.IsTold type (entry.instantiate generic arguments) where
  named isNamed := by
    rw [isNamed_of_instantiation rfl] at isNamed
    cases isNamed
  bare _ := ⟨rfl, rfl, rfl⟩
  array := by
    intro element rank isArray
    have noArray := loaded.built.regular.isArray_eq_false_of_definition known isDefinition
    rw [show entry.kind = _ from isArray] at noArray
    cases noArray
  instantiation := by
    rintro _ _ ⟨⟩
    exact ⟨_, _, loaded.heading?_eq kept isGeneric,
      areInners.imp fun _ _ => loaded.heading?_eq kept,
      loaded.heading_instantiate built kept isGeneric areInners known isDefinition isNew⟩
  admits := by
    intro part isPart
    refine Nat.le_trans ?_ kept.size_le
    rcases mem_toldTypes_instantiate isPart with old | rfl | isArgument
    · exact (loaded.told generic entry known).admits part old
    · exact admits_of_find? known
    · exact areInners.admits part isArgument

/-- **Making an instantiation adds its heading**, whether it is new or not. -/
theorem Loaded.grown_instantiate (loaded : before.Loaded)
    (isGeneric : before.heading? generic = some definition)
    (areInners : before.AreTold arguments inners) {made : TypeId × Catalog}
    (found : before.instantiate? generic arguments = some made) :
    Grown before made.2 {definition.instantiate inners} ∧
      made.2.heading? made.1 = some (definition.instantiate inners) := by
  have interns := Interns.instantiate loaded.built.regular found
  have built := loaded.built.instantiate areInners.admits found
  obtain ⟨entry, parameters, known, isDefinition, _, ⟨old, same⟩ | ⟨_, isNext, grown⟩⟩ :=
    cases_of_instantiate? found
  · obtain ⟨kind, other, found, _, applied⟩ :=
      (loaded.built.reached.interned.instantiation _ _ _).mp old
    obtain ⟨otherDefinition, otherInners, isOther, areOthers, heading⟩ :=
      (loaded.told made.1 other found).instantiation generic arguments applied
    obtain rfl := Option.some.inj (isGeneric.symm.trans isOther)
    obtain rfl := areInners.unique areOthers
    rw [same]
    exact loaded.grown_known found (isNamed_of_instantiation applied) heading
  · obtain ⟨next, after⟩ := made
    obtain rfl : next = before.nextId := isNext
    obtain rfl : after = _ := grown
    have pushed := find?_push before (entry.instantiate generic arguments)
    have isNew := find?_push_nextId before (entry.instantiate generic arguments)
    exact loaded.grown_push built interns rfl pushed (isNamed_of_instantiation rfl)
      (loaded.isTold_instantiate built interns.kept isGeneric areInners known isDefinition
        isNew)
      (loaded.heading_instantiate built interns.kept isGeneric areInners known isDefinition
        isNew)

end Instantiating

end Growing

end Catalog

end ExprImports
