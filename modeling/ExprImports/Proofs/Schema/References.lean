import ExprImports.Proofs.Catalog.Consistency
import ExprImports.Proofs.Schema.Loading
import ExprImports.Proofs.Schema.Spelling

/-!
# What references to types stand for

A reference is resolved from the inside out while the catalog grows under it. What grows are arrays,
which have no names, and instantiations, whose names end in an angle bracket. No name in a reference
ends in one, so whatever has been created on the way, all names in it are looked up as if in the
catalog at the start (`Interns.lookupType?_eq`).

**Success.** A reference stands for a type exactly if each of its names does, and if behind the name
of each application there is an open definition with as many parameters as there are arguments
(`IsUnknown`). The type is put together from the inside out (`Denotes`), and it is found again, with
nothing new created, in every catalog that grows in this way (`resolve_of_spells`).
-/

set_option autoImplicit false

namespace ExprImports

/-! ## Names in angle brackets -/

/-- The name has arguments in angle brackets, as that of an instantiation has. -/
def IsBracketed (name : String) : Prop :=
  '<' ∈ name.toList ∧ name.toList.getLast? = some '>'

instance (name : String) : Decidable (IsBracketed name) :=
  inferInstanceAs (Decidable (_ ∧ _))

theorem not_isBracketed_of_getLast? {name : String} (last : name.toList.getLast? ≠ some '>') :
    ¬ IsBracketed name :=
  fun bracketed => last bracketed.2

theorem not_isBracketed_qualified (place : String) {name : String}
    (last : name.toList.getLast? ≠ some '>') : ¬ IsBracketed (place ++ "." ++ name) := by
  refine not_isBracketed_of_getLast? ?_
  rw [String.toList_append, List.getLast?_append]
  cases isLast : name.toList.getLast? with
  | some c =>
      rw [isLast] at last
      exact last
  | none =>
      have dot : ".".toList.getLast? = some '.' := by decide
      rw [String.toList_append, List.getLast?_append, dot, Option.none_or, Option.some_or]
      decide

namespace Catalog

variable {catalog before middle after : Catalog} {type : TypeId}

theorem isBracketed_fullName {entry : TypeEntry} (found : catalog.find? type = some entry)
    (noArray : entry.kind.isArray = false) {generic : TypeId} {arguments : List TypeId}
    (applied : entry.genericity = .instantiation generic arguments) :
    IsBracketed (catalog.fullName type) := by
  rw [fullName, nameOf, found]
  cases isKind : entry.kind with
  | array element rank =>
      rw [isKind] at noArray
      cases noArray
  | nominal _ | parameter =>
      simp only [isKind, applied]
      have close : ">".toList.getLast? = some '>' := by decide
      refine ⟨by simp, ?_⟩
      rw [String.toList_append, List.getLast?_append, close, Option.some_or]

/-! ## Catalogs that gain arrays and instantiations -/

/-- The later catalog has all that the earlier one has, and no new name but those of
instantiations. -/
structure Interns (before after : Catalog) : Prop where
  kept : after.Extends before
  names : ∃ front, after.names = front ++ before.names ∧ ∀ named ∈ front, IsBracketed named.1

namespace Interns

theorem refl (catalog : Catalog) : Interns catalog catalog :=
  ⟨.refl catalog, [], rfl, List.forall_mem_nil _⟩

theorem trans (first : Interns before middle) (second : Interns middle after) :
    Interns before after := by
  obtain ⟨front, isFront, bracketed⟩ := first.names
  obtain ⟨further, isFurther, moreBracketed⟩ := second.names
  refine ⟨second.kept.trans first.kept, further ++ front, ?_, ?_⟩
  · rw [isFurther, isFront, List.append_assoc]
  · exact List.forall_mem_append.mpr ⟨moreBracketed, bracketed⟩

theorem of_names_eq (kept : after.Extends before) (same : after.names = before.names) :
    Interns before after :=
  ⟨kept, [], same, List.forall_mem_nil _⟩

theorem arrayOf (catalog : Catalog) (element : TypeId) (rank : Nat) :
    Interns catalog (catalog.arrayOf element rank).2 :=
  .of_names_eq (extends_arrayOf catalog element rank) (names_arrayOf catalog element rank)

theorem instantiate (regular : catalog.Regular) {generic : TypeId} {arguments : List TypeId}
    {made : TypeId × Catalog} (found : catalog.instantiate? generic arguments = some made) :
    Interns catalog made.2 := by
  refine ⟨extends_instantiate found, ?_⟩
  obtain ⟨entry, parameters, known, isDefinition, _, ⟨_, same⟩ | ⟨_, _, isMade⟩⟩ :=
    cases_of_instantiate? found
  · exact ⟨[], congrArg Catalog.names same, List.forall_mem_nil _⟩
  · have noArray := regular.isArray_eq_false_of_definition known isDefinition
    rw [isMade]
    refine ⟨[_], rfl, List.forall_mem_singleton.mpr ?_⟩
    exact isBracketed_fullName (find?_push_nextId _ _) noArray rfl

theorem findType?_eq (interns : Interns before after) {name : String}
    (plain : ¬ IsBracketed name) : after.findType? name = before.findType? name := by
  obtain ⟨front, isFront, bracketed⟩ := interns.names
  have absent : front.lookup name = none := by
    rw [List.lookup_eq_none_iff]
    intro named inside
    rw [bne_iff_ne]
    rintro rfl
    exact plain (bracketed named inside)
  rw [findType?, isFront, List.lookup_append, absent, Option.none_or, findType?]

/-- What is looked up under a name that does not end in a bracket. -/
theorem lookupType?_eq (interns : Interns before after) (namespaceName : Option String)
    {name : String} (last : name.toList.getLast? ≠ some '>') :
    Schema.lookupType? after namespaceName name = Schema.lookupType? before namespaceName name := by
  have qualified (place : String) := interns.findType?_eq (not_isBracketed_qualified place last)
  simp only [Schema.lookupType?, resolveName?, interns.findType?_eq
    (not_isBracketed_of_getLast? last), qualified]

end Interns

/-! ## Open definitions -/

/-- The type is an open definition with so many parameters. -/
def IsDefinition (catalog : Catalog) (type : TypeId) (arity : Nat) : Prop :=
  ∃ entry parameters, catalog.find? type = some entry ∧
    entry.genericity = .definition parameters ∧ parameters.length = arity

theorem IsDefinition.extends (extended : after.Extends before) {arity : Nat}
    (isDefinition : before.IsDefinition type arity) : after.IsDefinition type arity := by
  obtain ⟨entry, parameters, found, generic, sameLength⟩ := isDefinition
  obtain ⟨grown, known, more⟩ := extended.types type entry found
  exact ⟨grown, parameters, known, more.genericity.trans generic, sameLength⟩

/-- Nothing becomes a definition later on. -/
theorem Extends.isDefinition_iff (extended : after.Extends before) (known : before.has type = true)
    {arity : Nat} : after.IsDefinition type arity ↔ before.IsDefinition type arity := by
  refine ⟨fun ⟨grown, parameters, isGrown, generic, sameLength⟩ => ?_, .extends extended⟩
  obtain ⟨entry, found⟩ := Option.isSome_iff_exists.mp known
  obtain ⟨other, isOther, more⟩ := extended.types type entry found
  obtain rfl := Option.some.inj (isOther.symm.trans isGrown)
  exact ⟨entry, parameters, found, more.genericity.symm.trans generic, sameLength⟩

theorem exists_instantiate?_iff {generic : TypeId} {arguments : List TypeId} :
    (∃ made, catalog.instantiate? generic arguments = some made) ↔
      catalog.IsDefinition generic arguments.length := by
  constructor
  · rintro ⟨made, found⟩
    obtain ⟨entry, parameters, known, isDefinition, sameLength, _⟩ := cases_of_instantiate? found
    exact ⟨entry, parameters, known, isDefinition, sameLength⟩
  · rintro ⟨entry, parameters, known, isDefinition, sameLength⟩
    cases old : catalog.findInstantiation? generic arguments <;>
      simp [instantiate?, known, isDefinition, sameLength, old]

end Catalog

namespace Schema

open Catalog (Interns)

variable {namespaceName : Option String} {catalog start middle after : Catalog}

/-! ## Parts of references -/

mutual

/-- The reference and all that it is made of. -/
def TypeReference.parts : TypeReference → List TypeReference
  | .name text => [.name text]
  | .array element => .array element :: element.parts
  | .application written definition arguments =>
    .application written definition arguments :: allParts arguments

/-- All that several references are made of. -/
def allParts : List TypeReference → List TypeReference
  | [] => []
  | reference :: rest => reference.parts ++ allParts rest

end

/-- The name by which an application looks for its definition. -/
def genericName (definition : String) (arity : Nat) : String :=
  definition ++ "`" ++ toString arity

/-- What is wrong with this part of a reference, itself and not below it: the name stands for no
type, or the name of the application for no open definition with so many parameters. The text is
that of the part. -/
inductive TypeReference.IsUnknown (namespaceName : Option String) (catalog : Catalog) :
    TypeReference → String → Prop
  | name {text : String} (unknown : lookupType? catalog namespaceName (Binding.expandAlias text) = none) :
      IsUnknown namespaceName catalog (.name text) text
  | application {written definition : String} {arguments : List TypeReference}
      (unknown : ∀ generic,
        lookupType? catalog namespaceName (genericName definition arguments.length) = some generic →
          ¬ catalog.IsDefinition generic arguments.length) :
      IsUnknown namespaceName catalog (.application written definition arguments) written

mutual

/-- The type that a reference stands for, put together from the inside out: names are looked up at
the start, and the arrays and instantiations are those of the catalog in the end. -/
def TypeReference.Denotes (namespaceName : Option String) (start last : Catalog) :
    TypeReference → TypeId → Prop
  | .name text, type =>
    lookupType? start namespaceName (Binding.expandAlias text) = some type
  | .array element, type =>
    ∃ inner, element.Denotes namespaceName start last inner ∧ last.arrayOf inner 1 = (type, last)
  | .application _ definition arguments, type =>
    ∃ types generic, AllDenote namespaceName start last arguments types ∧
      lookupType? start namespaceName (genericName definition arguments.length) = some generic ∧
        last.instantiate? generic types = some (type, last)

/-- The types that references stand for. -/
def AllDenote (namespaceName : Option String) (start last : Catalog) :
    List TypeReference → List TypeId → Prop
  | [], types => types = []
  | reference :: rest, types =>
    ∃ type others, types = type :: others ∧ reference.Denotes namespaceName start last type ∧
      AllDenote namespaceName start last rest others

end

/-- No name in the reference has an angle bracket. -/
def TypeReference.HasPlainNames (reference : TypeReference) : Prop :=
  ∀ text, .name text ∈ reference.parts → '>' ∉ text.toList

def AllHavePlainNames (references : List TypeReference) : Prop :=
  ∀ text, .name text ∈ allParts references → '>' ∉ text.toList

/-! ## Names in references are not those of instantiations -/

theorem getLast?_ne_of_not_mem {text : List Char} {c : Char} (absent : c ∉ text) :
    text.getLast? ≠ some c :=
  fun isLast => absent (List.mem_of_getLast? isLast)

theorem getLast?_expandAlias {text : String} (plain : '>' ∉ text.toList) :
    (Binding.expandAlias text).toList.getLast? ≠ some '>' := by
  unfold Binding.expandAlias
  cases found : Binding.aliases.lookup text with
  | none => exact getLast?_ne_of_not_mem plain
  | some full =>
      have all : ∀ known ∈ Binding.aliases, '>' ∉ known.2.toList := by decide
      exact getLast?_ne_of_not_mem (all (text, full) (Catalog.mem_of_lookup found))

theorem getLast?_genericName (definition : String) (arity : Nat) :
    (genericName definition arity).toList.getLast? ≠ some '>' := by
  rw [genericName, String.toList_append, List.getLast?_append, Nat.toString_eq_repr,
    Nat.toList_repr]
  cases isLast : (Nat.toDigits 10 arity).getLast? with
  | none => exact absurd (List.getLast?_eq_none_iff.mp isLast) Nat.toDigits_ne_nil
  | some c =>
      have isDigit := Nat.isDigit_of_mem_toDigits (by decide) (by decide)
        (List.mem_of_getLast? isLast)
      rw [Option.some_or, ne_eq, Option.some.injEq]
      rintro rfl
      exact absurd isDigit (by decide)

theorem has_of_lookupType? (built : catalog.Built) {name : String} {type : TypeId}
    (found : lookupType? catalog namespaceName name = some type) : catalog.has type = true := by
  have known {name : String} (found : catalog.findType? name = some type) :
      catalog.has type = true := by
    obtain ⟨entry, isEntry, _⟩ := built.regular.isNominal_of_findType? found
    rw [Catalog.has, isEntry, Option.isSome_some]
  unfold lookupType? Catalog.resolveName? at found
  rcases Option.or_eq_some_iff.mp found with here | ⟨_, further⟩
  · exact known here
  · obtain ⟨place, _, there⟩ := List.exists_of_findSome?_eq_some further
    exact known there

namespace TypeReference.HasPlainNames

theorem element {element : TypeReference} (plain : (TypeReference.array element).HasPlainNames) :
    element.HasPlainNames :=
  fun text inside => plain text (List.mem_cons_of_mem _ inside)

theorem arguments {written definition : String} {arguments : List TypeReference}
    (plain : (TypeReference.application written definition arguments).HasPlainNames) :
    AllHavePlainNames arguments :=
  fun text inside => plain text (List.mem_cons_of_mem _ inside)

end TypeReference.HasPlainNames

theorem AllHavePlainNames.cons {reference : TypeReference} {rest : List TypeReference}
    (plain : AllHavePlainNames (reference :: rest)) :
    reference.HasPlainNames ∧ AllHavePlainNames rest :=
  ⟨fun text inside => plain text (List.mem_append_left _ inside),
    fun text inside => plain text (List.mem_append_right _ inside)⟩

/-! ## What resolving adds -/

mutual

/-- Resolving adds arrays and instantiations only. -/
theorem interns_of_resolve {before after : Catalog} (built : before.Built)
    (reference : TypeReference) {type : TypeId}
    (done : reference.resolve namespaceName before = .ok (type, after)) :
    Interns before after := by
  cases reference with
  | name text =>
      obtain ⟨_, rfl⟩ := lookupType?_of_resolve done
      exact .refl after
  | array element =>
      obtain ⟨inner, middle, resolved, made⟩ := exists_of_resolve_array done
      obtain rfl : (middle.arrayOf inner 1).2 = after := by rw [made]
      exact (interns_of_resolve built element resolved).trans (.arrayOf middle inner 1)
  | application written definition arguments =>
      obtain ⟨types, middle, generic, resolved, _, instantiated⟩ :=
        exists_of_resolve_application done
      obtain ⟨growth, _⟩ := growth_of_resolveReferences built arguments resolved
      exact (interns_of_resolveReferences built arguments resolved).trans
        (.instantiate growth.built.regular instantiated)

theorem interns_of_resolveReferences {before after : Catalog} (built : before.Built)
    (references : List TypeReference) {types : List TypeId}
    (done : resolveReferences namespaceName before references = .ok (types, after)) :
    Interns before after := by
  cases references with
  | nil =>
      rw [resolveReferences] at done
      cases done
      exact .refl before
  | cons reference rest =>
      obtain ⟨type, middle, others, resolved, further, rfl⟩ := exists_of_resolveReferences_cons done
      obtain ⟨growth, _⟩ := growth_of_resolve built reference resolved
      exact (interns_of_resolve built reference resolved).trans
        (interns_of_resolveReferences growth.built rest further)

end

theorem length_of_resolveReferences {before : Catalog} {references : List TypeReference}
    {types : List TypeId}
    (done : resolveReferences namespaceName before references = .ok (types, after)) :
    types.length = references.length := by
  induction references generalizing before types with
  | nil =>
      rw [resolveReferences] at done
      cases done
      rfl
  | cons reference rest ih =>
      obtain ⟨type, middle, others, _, further, rfl⟩ := exists_of_resolveReferences_cons done
      rw [List.length_cons, List.length_cons, ih further]

/-! ## What a reference denotes -/

mutual

/-- What is denoted does not change as the catalog grows. -/
theorem TypeReference.Denotes.grow {reference : TypeReference} {type : TypeId}
    (denotes : reference.Denotes namespaceName start middle type) (interns : Interns middle after) :
    reference.Denotes namespaceName start after type := by
  cases reference with
  | name text => exact denotes
  | array element =>
      obtain ⟨inner, isInner, isArray⟩ := denotes
      have found := Catalog.findArray?_arrayOf middle inner 1
      rw [isArray] at found
      exact ⟨inner, isInner.grow interns,
        Catalog.arrayOf_of_findArray? (interns.kept.arrays _ _ _ found)⟩
  | application written definition arguments =>
      obtain ⟨types, generic, areArguments, isGeneric, applied⟩ := denotes
      exact ⟨types, generic, areArguments.grow interns, isGeneric,
        Catalog.instantiate?_again applied interns.kept⟩

theorem AllDenote.grow {references : List TypeReference} {types : List TypeId}
    (denote : AllDenote namespaceName start middle references types)
    (interns : Interns middle after) :
    AllDenote namespaceName start after references types := by
  cases references with
  | nil => exact denote
  | cons reference rest =>
      obtain ⟨type, others, isList, isFirst, areOthers⟩ := denote
      exact ⟨type, others, isList, isFirst.grow interns, areOthers.grow interns⟩

end

theorem AllDenote.length_eq {references : List TypeReference} {types : List TypeId}
    (denote : AllDenote namespaceName start catalog references types) :
    types.length = references.length := by
  induction references generalizing types with
  | nil =>
      obtain rfl := denote
      rfl
  | cons reference rest ih =>
      obtain ⟨type, others, rfl, _, areOthers⟩ := denote
      rw [List.length_cons, List.length_cons, ih areOthers]

/-! ## Outcomes -/

mutual

/-- **A reference that is resolved** has no unknown part, and it is resolved to the type that it
denotes. -/
theorem denotes_of_resolve (isStart : start.Built) {before after : Catalog} (built : before.Built)
    (interns : Interns start before) {reference : TypeReference} (plain : reference.HasPlainNames)
    {type : TypeId} (done : reference.resolve namespaceName before = .ok (type, after)) :
    reference.Denotes namespaceName start after type ∧
      ∀ part ∈ reference.parts, ∀ culprit, ¬ part.IsUnknown namespaceName start culprit := by
  cases reference with
  | name text =>
      have last := getLast?_expandAlias (plain text List.mem_cons_self)
      obtain ⟨found, rfl⟩ := lookupType?_of_resolve done
      rw [interns.lookupType?_eq namespaceName last] at found
      refine ⟨found, fun part isPart culprit unknown => ?_⟩
      obtain rfl := List.mem_singleton.mp isPart
      cases unknown with
      | name absent => cases found.symm.trans absent
  | array element =>
      obtain ⟨inner, middle, resolved, made⟩ := exists_of_resolve_array done
      obtain ⟨denotes, known⟩ := denotes_of_resolve isStart built interns plain.element resolved
      have found := Catalog.findArray?_arrayOf middle inner 1
      have further := Interns.arrayOf middle inner 1
      rw [made] at found further
      refine ⟨⟨inner, denotes.grow further, Catalog.arrayOf_of_findArray? found⟩, ?_⟩
      refine List.forall_mem_cons.mpr ⟨fun culprit unknown => ?_, known⟩
      cases unknown
  | application written definition arguments =>
      obtain ⟨types, middle, generic, resolved, isGeneric, instantiated⟩ :=
        exists_of_resolve_application done
      obtain ⟨denote, known⟩ :=
        allDenote_of_resolveReferences isStart built interns plain.arguments resolved
      obtain ⟨growth, _⟩ := growth_of_resolveReferences built arguments resolved
      have later := interns.trans (interns_of_resolveReferences built arguments resolved)
      have sameLength := length_of_resolveReferences resolved
      rw [sameLength, ← genericName,
        later.lookupType?_eq namespaceName (getLast?_genericName _ _)] at isGeneric
      have further : Interns middle after := .instantiate growth.built.regular instantiated
      have again := Catalog.instantiate?_again instantiated (.refl after)
      refine ⟨⟨types, generic, denote.grow further, isGeneric, again⟩, ?_⟩
      refine List.forall_mem_cons.mpr ⟨fun culprit unknown => ?_, known⟩
      cases unknown with
      | application absent =>
          refine absent generic isGeneric ?_
          rw [← sameLength, ← later.kept.isDefinition_iff (has_of_lookupType? isStart isGeneric)]
          exact Catalog.exists_instantiate?_iff.mp ⟨_, instantiated⟩

theorem allDenote_of_resolveReferences (isStart : start.Built) {before after : Catalog}
    (built : before.Built) (interns : Interns start before) {references : List TypeReference}
    (plain : AllHavePlainNames references) {types : List TypeId}
    (done : resolveReferences namespaceName before references = .ok (types, after)) :
    AllDenote namespaceName start after references types ∧
      ∀ part ∈ allParts references, ∀ culprit, ¬ part.IsUnknown namespaceName start culprit := by
  cases references with
  | nil =>
      rw [resolveReferences] at done
      cases done
      exact ⟨rfl, List.forall_mem_nil _⟩
  | cons reference rest =>
      obtain ⟨plainFirst, plainRest⟩ := plain.cons
      obtain ⟨type, middle, others, resolved, rests, rfl⟩ := exists_of_resolveReferences_cons done
      obtain ⟨growth, _⟩ := growth_of_resolve built reference resolved
      have later := interns.trans (interns_of_resolve built reference resolved)
      obtain ⟨denotes, known⟩ := denotes_of_resolve isStart built interns plainFirst resolved
      obtain ⟨denote, allKnown⟩ :=
        allDenote_of_resolveReferences isStart growth.built later plainRest rests
      have further := interns_of_resolveReferences growth.built rest rests
      exact ⟨⟨type, others, rfl, denotes.grow further, denote⟩,
        List.forall_mem_append.mpr ⟨known, allKnown⟩⟩

end

mutual

/-- **A reference that is not resolved** has an unknown part, and it is reported. -/
theorem exists_isUnknown_of_resolve (isStart : start.Built) {before : Catalog}
    (built : before.Built) (interns : Interns start before) {reference : TypeReference}
    (plain : reference.HasPlainNames) {culprit : String}
    (failed : reference.resolve namespaceName before = .error culprit) :
    ∃ part ∈ reference.parts, part.IsUnknown namespaceName start culprit := by
  cases reference with
  | name text =>
      have last := getLast?_expandAlias (plain text List.mem_cons_self)
      rw [TypeReference.resolve, interns.lookupType?_eq namespaceName last] at failed
      split at failed
      · cases failed
      · rename_i absent
        cases failed
        exact ⟨_, List.mem_cons_self, .name absent⟩
  | array element =>
      rw [TypeReference.resolve] at failed
      split at failed
      · rename_i unresolved
        cases failed
        obtain ⟨part, isPart, unknown⟩ :=
          exists_isUnknown_of_resolve isStart built interns plain.element unresolved
        exact ⟨part, List.mem_cons_of_mem _ isPart, unknown⟩
      · cases failed
  | application written definition arguments =>
      rw [TypeReference.resolve] at failed
      split at failed
      · rename_i unresolved
        cases failed
        obtain ⟨part, isPart, unknown⟩ := exists_isUnknown_of_resolveReferences isStart built
          interns plain.arguments unresolved
        exact ⟨part, List.mem_cons_of_mem _ isPart, unknown⟩
      · rename_i types middle resolved
        have later := interns.trans (interns_of_resolveReferences built arguments resolved)
        have sameName : lookupType? middle namespaceName (genericName definition arguments.length) =
            lookupType? start namespaceName (genericName definition arguments.length) :=
          later.lookupType?_eq namespaceName (getLast?_genericName _ _)
        have sameLength := length_of_resolveReferences resolved
        dsimp only at failed
        rw [sameLength, ← genericName, sameName] at failed
        refine ⟨_, List.mem_cons_self, ?_⟩
        split at failed
        · rename_i absent
          cases failed
          refine .application fun generic found => ?_
          cases absent.symm.trans found
        · rename_i generic isGeneric
          split at failed
          · rename_i refused
            cases failed
            -- a definition at the start would still be one here, and could be instantiated
            refine .application fun other found isDefinition => ?_
            obtain rfl := Option.some.inj (isGeneric.symm.trans found)
            have stillDefinition := isDefinition.extends later.kept
            rw [← sameLength] at stillDefinition
            obtain ⟨made, applied⟩ := Catalog.exists_instantiate?_iff.mpr stillDefinition
            cases refused.symm.trans applied
          · cases failed

theorem exists_isUnknown_of_resolveReferences (isStart : start.Built) {before : Catalog}
    (built : before.Built) (interns : Interns start before) {references : List TypeReference}
    (plain : AllHavePlainNames references) {culprit : String}
    (failed : resolveReferences namespaceName before references = .error culprit) :
    ∃ part ∈ allParts references, part.IsUnknown namespaceName start culprit := by
  cases references with
  | nil =>
      rw [resolveReferences] at failed
      cases failed
  | cons reference rest =>
      obtain ⟨plainFirst, plainRest⟩ := plain.cons
      rw [resolveReferences] at failed
      split at failed
      · rename_i unresolved
        cases failed
        obtain ⟨part, isPart, unknown⟩ :=
          exists_isUnknown_of_resolve isStart built interns plainFirst unresolved
        exact ⟨part, List.mem_append_left _ isPart, unknown⟩
      · rename_i type middle resolved
        obtain ⟨growth, _⟩ := growth_of_resolve built reference resolved
        have later := interns.trans (interns_of_resolve built reference resolved)
        split at failed
        · rename_i unresolved
          cases failed
          obtain ⟨part, isPart, unknown⟩ := exists_isUnknown_of_resolveReferences isStart
            growth.built later plainRest unresolved
          exact ⟨part, List.mem_append_right _ isPart, unknown⟩
        · cases failed

end

mutual

/-- What a reference denotes is found again, and nothing is created. -/
theorem TypeReference.Denotes.resolve_eq {reference : TypeReference} {type : TypeId}
    (denotes : reference.Denotes namespaceName start catalog type) (plain : reference.HasPlainNames)
    (interns : Interns start catalog) :
    reference.resolve namespaceName catalog = .ok (type, catalog) := by
  cases reference with
  | name text =>
      have last := getLast?_expandAlias (plain text List.mem_cons_self)
      have found : lookupType? start namespaceName (Binding.expandAlias text) = some type := denotes
      rw [TypeReference.resolve, interns.lookupType?_eq namespaceName last, found]
  | array element =>
      obtain ⟨inner, isInner, isArray⟩ := denotes
      rw [TypeReference.resolve, isInner.resolve_eq plain.element interns]
      dsimp only
      rw [isArray]
  | application written definition arguments =>
      obtain ⟨types, generic, areArguments, isGeneric, applied⟩ := denotes
      rw [TypeReference.resolve, areArguments.resolveReferences_eq plain.arguments interns]
      dsimp only
      rw [areArguments.length_eq, ← genericName,
        interns.lookupType?_eq namespaceName (getLast?_genericName _ _), isGeneric]
      dsimp only
      rw [applied]

theorem AllDenote.resolveReferences_eq {references : List TypeReference} {types : List TypeId}
    (denote : AllDenote namespaceName start catalog references types)
    (plain : AllHavePlainNames references) (interns : Interns start catalog) :
    resolveReferences namespaceName catalog references = .ok (types, catalog) := by
  cases references with
  | nil =>
      obtain rfl := denote
      rw [resolveReferences]
  | cons reference rest =>
      obtain ⟨plainFirst, plainRest⟩ := plain.cons
      obtain ⟨type, others, rfl, isFirst, areOthers⟩ := denote
      rw [resolveReferences, isFirst.resolve_eq plainFirst interns]
      dsimp only
      rw [areOthers.resolveReferences_eq plainRest interns]

end

/-! ## Spelled references -/

mutual

/-- The names in a spelling have no angle brackets. -/
theorem TypeReference.Spells.hasPlainNames {reference : TypeReference} {text : List Char}
    (spells : reference.Spells text) : reference.HasPlainNames := by
  intro name inside
  cases spells with
  | name isName =>
      obtain rfl := TypeReference.name.inj (List.mem_singleton.mp inside)
      rw [String.toList_ofList]
      exact fun isBracket => isName.plain _ (Text.mem_of_mem_trimChars isBracket) (by decide)
  | array spelled _ =>
      rcases List.mem_cons.mp inside with same | below
      · cases same
      · exact spelled.hasPlainNames name below
  | application _ spelled _ =>
      rcases List.mem_cons.mp inside with same | below
      · cases same
      · exact spelled.allHavePlainNames name below

theorem AllSpelled.allHavePlainNames {references : List TypeReference} {text : List Char}
    (spelled : AllSpelled references text) : AllHavePlainNames references := by
  intro name inside
  cases spelled with
  | last spells =>
      rw [allParts, allParts, List.append_nil] at inside
      exact spells.hasPlainNames name inside
  | more spells further =>
      rcases List.mem_append.mp inside with here | there
      · exact spells.hasPlainNames name here
      · exact further.allHavePlainNames name there

end

/-- **References to types are resolved as they are spelled**, in every catalog and every namespace.
A spelled text is read as the reference that it spells. It is refused exactly if some name in it
stands for no type, or the name of some application for no open definition with so many parameters,
and one such part is reported. Otherwise the result is the type that the reference denotes. From
then on, whatever arrays and instantiations are made, the same text gives the same type and creates
nothing. -/
theorem resolve_of_spells {reference : TypeReference} {text : List Char}
    (spells : reference.Spells text) (built : catalog.Built) (namespaceName : Option String)
    (referrer : Referrer) :
    TypeReference.ofText (String.ofList text) = reference ∧
      (∀ fault, resolve namespaceName referrer (String.ofList text) catalog = .error fault →
        ∃ part ∈ reference.parts, ∃ culprit, part.IsUnknown namespaceName catalog culprit ∧
          fault = .unknownType culprit referrer) ∧
      ((∃ part ∈ reference.parts, ∃ culprit, part.IsUnknown namespaceName catalog culprit) →
        ∃ fault, resolve namespaceName referrer (String.ofList text) catalog = .error fault) ∧
      (∀ type grown,
        resolve namespaceName referrer (String.ofList text) catalog = .ok (type, grown) →
          reference.Denotes namespaceName catalog grown type ∧
            ∀ later, Interns grown later →
              resolve namespaceName referrer (String.ofList text) later = .ok (type, later)) := by
  have plain := spells.hasPlainNames
  have start := Interns.refl catalog
  simp only [resolve, spells.ofText_eq]
  refine ⟨trivial, fun fault failed => ?_, ?_, fun type grown done => ?_⟩
  · obtain ⟨culprit, unresolved, rfl⟩ := exists_of_mapError_eq_error failed
    obtain ⟨part, isPart, unknown⟩ :=
      exists_isUnknown_of_resolve built built start plain unresolved
    exact ⟨part, isPart, culprit, unknown, rfl⟩
  · rintro ⟨part, isPart, culprit, unknown⟩
    cases outcome : reference.resolve namespaceName catalog with
    | error name => exact ⟨_, rfl⟩
    | ok resolved =>
        have known := (denotes_of_resolve built built start plain outcome).2
        exact absurd unknown (known part isPart culprit)
  · have resolved := mapError_eq_ok_iff.mp done
    have denotes := (denotes_of_resolve built built start plain resolved).1
    have grows := interns_of_resolve built reference resolved
    refine ⟨denotes, fun later further => ?_⟩
    rw [(denotes.grow further).resolve_eq plain (grows.trans further)]
    rfl

/-- Arrays of boxes of boxes of arrays of integers, with blanks. -/
def nestedBoxes : List Char :=
  " Box < Box<int []> > []".toList

theorem exists_spells_nestedBoxes : ∃ reference : TypeReference, reference.Spells nestedBoxes := by
  have integers := TypeReference.Spells.array (.name (by decide : IsName "int ".toList))
    (by decide : Text.IsBlankText [])
  have inner := TypeReference.Spells.application (by decide : IsName " Box".toList)
    (.last integers) (by decide : Text.IsBlankText " ".toList)
  have outer := TypeReference.Spells.application (by decide : IsName " Box ".toList)
    (.last inner) (by decide : Text.IsBlankText " ".toList)
  have arrays := TypeReference.Spells.array outer (by decide : Text.IsBlankText [])
  exact ⟨_, cast (congrArg (TypeReference.Spells _) (by decide)) arrays⟩

/-- The boxes are made on the way, and the text means the same type from then on. -/
theorem resolve_nestedBoxes : ∃ reference type grown, TypeReference.Spells reference nestedBoxes ∧
    resolve (some "Contoso") (.variableNamed "boxes") (String.ofList nestedBoxes)
        Catalog.Namesakes.boxes = .ok (type, grown) ∧
      reference.Denotes (some "Contoso") Catalog.Namesakes.boxes grown type ∧
        resolve (some "Contoso") (.variableNamed "boxes") (String.ofList nestedBoxes) grown =
          .ok (type, grown) := by
  obtain ⟨reference, spells⟩ := exists_spells_nestedBoxes
  have resolves : (resolve (some "Contoso") (.variableNamed "boxes") (String.ofList nestedBoxes)
      Catalog.Namesakes.boxes).toOption.isSome = true := by
    decide +kernel
  cases done : resolve (some "Contoso") (.variableNamed "boxes") (String.ofList nestedBoxes)
      Catalog.Namesakes.boxes with
  | error fault =>
      rw [done] at resolves
      cases resolves
  | ok resolved =>
      obtain ⟨type, grown⟩ := resolved
      obtain ⟨_, _, _, succeeds⟩ := resolve_of_spells spells Catalog.Namesakes.built_boxes
        (some "Contoso") (.variableNamed "boxes")
      obtain ⟨denotes, again⟩ := succeeds type grown done
      exact ⟨reference, type, grown, spells, rfl, denotes, again grown (.refl grown)⟩

end Schema

end ExprImports
