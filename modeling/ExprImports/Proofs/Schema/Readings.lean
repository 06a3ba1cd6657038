import ExprImports.Proofs.Schema.Outlines

/-!
# What references read

Where a catalog is loaded, a reference can be read from the outline alone: the headings of its names
decide whether it stands for a type, what the heading of that type is, and which headings are made on
the way. Resolving it in the catalog comes to the same (`resolve_agrees`).

**Reads.** A reference looks up some names, each of them at a few places. If two outlines give the
same headings there, the reference is read in the same way (`reading?_congr`). The names that a text
looks up never have brackets at the end, so they are not those of instantiations
(`arePlain_lookups_ofText`).
-/

set_option autoImplicit false

namespace ExprImports

/-! ## Outcomes that agree -/

/-- An outcome agrees with an expected result if both or neither are there, and they are related. A
fault is not compared. -/
inductive Agrees {ε α β : Type} (related : α → β → Prop) : Except ε α → Option β → Prop
  | ok {result : α} {expected : β} (holds : related result expected) :
      Agrees related (.ok result) (some expected)
  | error (fault : ε) : Agrees related (.error fault) none

namespace Agrees

variable {ε α β γ δ : Type} {related : α → β → Prop} {further : γ → δ → Prop}
  {outcome : Except ε α} {expected : Option β}

theorem imp {weaker : α → β → Prop} (agrees : Agrees related outcome expected)
    (weaken : ∀ result told, related result told → weaker result told) :
    Agrees weaker outcome expected := by
  cases agrees with
  | ok holds => exact .ok (weaken _ _ holds)
  | error fault => exact .error fault

theorem bind (agrees : Agrees related outcome expected) {next : α → Except ε γ}
    {told : β → Option δ}
    (continues : ∀ result expected, related result expected →
      Agrees further (next result) (told expected)) :
    Agrees further (outcome >>= next) (expected.bind told) := by
  cases agrees with
  | ok holds => exact continues _ _ holds
  | error fault => exact .error fault

theorem map (agrees : Agrees related outcome expected) {change : α → γ} {told : β → δ}
    (continues : ∀ result expected, related result expected → further (change result) (told expected)) :
    Agrees further (outcome.map change) (expected.map told) := by
  cases agrees with
  | ok holds => exact .ok (continues _ _ holds)
  | error fault => exact .error fault

theorem mapTold {further : α → δ → Prop} (agrees : Agrees related outcome expected) {told : β → δ}
    (continues : ∀ result expected, related result expected → further result (told expected)) :
    Agrees further outcome (expected.map told) := by
  cases agrees with
  | ok holds => exact .ok (continues _ _ holds)
  | error fault => exact .error fault

theorem mapError {ε' : Type} {change : ε → ε'} (agrees : Agrees related outcome expected) :
    Agrees related (outcome.mapError change) expected := by
  cases agrees with
  | ok holds => exact .ok holds
  | error fault => exact .error _

end Agrees

namespace Schema

open Catalog (Grown Loaded)

variable {namespaceName : Option String} {headings others : String → Option Heading}

/-! ## Places -/

/-- The names under which a name is looked up, one after the other. -/
def candidates (namespaceName : Option String) (name : String) : List String :=
  name :: (namespaceName.toList ++ ["System"]).map (· ++ "." ++ name)

theorem lookupType?_eq (catalog : Catalog) (namespaceName : Option String) (name : String) :
    lookupType? catalog namespaceName name =
      (candidates namespaceName name).findSome? catalog.findType? := by
  rw [candidates, List.findSome?_cons, List.findSome?_map]
  unfold lookupType? Catalog.resolveName?
  cases catalog.findType? name <;> rfl

/-- The heading of the type with this name as it stands, in the given namespace, or in `System`. -/
def lookupHeading? (headings : String → Option Heading) (namespaceName : Option String)
    (name : String) : Option Heading :=
  (candidates namespaceName name).findSome? headings

/-- None of these names is looked up as that of an instantiation. -/
def ArePlain (namespaceName : Option String) (names : List String) : Prop :=
  ∀ name ∈ names, ∀ candidate ∈ candidates namespaceName name, ¬ IsBracketed candidate

/-- A name that is looked up stands for a type with a heading, or for nothing in the catalog and in
its outline. -/
theorem lookup_cases {catalog : Catalog} (loaded : catalog.Loaded) {name : String}
    (plain : ∀ candidate ∈ candidates namespaceName name, ¬ IsBracketed candidate) :
    (lookupType? catalog namespaceName name = none ∧
      lookupHeading? catalog.outline.headings namespaceName name = none) ∨
    ∃ type heading, lookupType? catalog namespaceName name = some type ∧
      lookupHeading? catalog.outline.headings namespaceName name = some heading ∧
      catalog.heading? type = some heading := by
  rw [lookupType?_eq, lookupHeading?]
  generalize candidates namespaceName name = places at plain ⊢
  induction places with
  | nil => exact .inl ⟨rfl, rfl⟩
  | cons candidate rest ih =>
      obtain ⟨here, later⟩ := List.forall_mem_cons.mp plain
      rw [List.findSome?_cons, List.findSome?_cons]
      cases found : catalog.findType? candidate with
      | none =>
          rw [Catalog.headings_eq_none found]
          exact ih later
      | some type =>
          obtain ⟨entry, isEntry⟩ := loaded.built.exists_find?_of_findType? found
          have told := Catalog.heading?_of_find? isEntry
          rw [Catalog.headings_of_findType? here found, told]
          exact .inr ⟨type, _, rfl, rfl, told⟩

/-! ## Reading -/

mutual

/-- The heading of the type that a reference stands for, and the headings that are made on the way. -/
def TypeReference.reading? (headings : String → Option Heading) (namespaceName : Option String) :
    TypeReference → Option (Heading × Set Heading)
  | .name text =>
    (lookupHeading? headings namespaceName (Binding.expandAlias text)).map fun heading =>
      (heading, ∅)
  | .array element =>
    (element.reading? headings namespaceName).map fun (inner, made) =>
      (inner.array, made ∪ {inner.array})
  | .application _ definition arguments =>
    (readings? headings namespaceName arguments).bind fun (inners, made) =>
      (lookupHeading? headings namespaceName (genericName definition inners.length)).bind
        fun generic =>
          if generic.arity? = some inners.length then
            some (generic.instantiate inners, made ∪ {generic.instantiate inners})
          else none

/-- The headings of the types that references stand for. -/
def readings? (headings : String → Option Heading) (namespaceName : Option String) :
    List TypeReference → Option (List Heading × Set Heading)
  | [] => some ([], ∅)
  | reference :: rest =>
    (reference.reading? headings namespaceName).bind fun (heading, made) =>
      (readings? headings namespaceName rest).map fun (others, further) =>
        (heading :: others, made ∪ further)

end

mutual

/-- The names that a reference looks up. -/
def TypeReference.lookups : TypeReference → List String
  | .name text => [Binding.expandAlias text]
  | .array element => element.lookups
  | .application _ definition arguments =>
    genericName definition arguments.length :: allLookups arguments

/-- The names that references look up. -/
def allLookups : List TypeReference → List String
  | [] => []
  | reference :: rest => reference.lookups ++ allLookups rest

end

theorem length_of_readings? {references : List TypeReference} {read : List Heading × Set Heading}
    (found : readings? headings namespaceName references = some read) :
    read.1.length = references.length := by
  induction references generalizing read with
  | nil =>
      rw [readings?, Option.some.injEq] at found
      rw [← found]
      rfl
  | cons reference rest ih =>
      rw [readings?, Option.bind_eq_some_iff] at found
      obtain ⟨_, _, found⟩ := found
      obtain ⟨others, isOthers, rfl⟩ := Option.map_eq_some_iff.mp found
      rw [List.length_cons, List.length_cons, ih isOthers]

mutual

/-- **A reference reads only the names that it looks up.** -/
theorem reading?_congr {reference : TypeReference}
    (same : ∀ name ∈ reference.lookups,
      lookupHeading? headings namespaceName name = lookupHeading? others namespaceName name) :
    reference.reading? headings namespaceName = reference.reading? others namespaceName := by
  cases reference with
  | name text =>
      rw [TypeReference.reading?, same _ List.mem_cons_self, TypeReference.reading?]
  | array element =>
      have inner : ∀ name ∈ element.lookups, lookupHeading? headings namespaceName name =
          lookupHeading? others namespaceName name := same
      rw [TypeReference.reading?, reading?_congr inner, TypeReference.reading?]
  | application written definition arguments =>
      rw [TypeReference.reading?, readings?_congr fun name inside =>
        same name (List.mem_cons_of_mem _ inside), TypeReference.reading?]
      refine Option.bind_congr fun ⟨inners, made⟩ found => ?_
      have sameLength : inners.length = arguments.length := length_of_readings? found
      dsimp only
      rw [sameLength, same _ List.mem_cons_self]

theorem readings?_congr {references : List TypeReference}
    (same : ∀ name ∈ allLookups references,
      lookupHeading? headings namespaceName name = lookupHeading? others namespaceName name) :
    readings? headings namespaceName references = readings? others namespaceName references := by
  cases references with
  | nil => rw [readings?, readings?]
  | cons reference rest =>
      rw [readings?, reading?_congr fun name inside => same name (List.mem_append_left _ inside),
        readings?_congr fun name inside => same name (List.mem_append_right _ inside), readings?]

end

/-! ## Resolving -/

theorem isDefinition_iff_arity? {catalog : Catalog} {type : TypeId} {heading : Heading}
    (told : catalog.heading? type = some heading) {arity : Nat} :
    catalog.IsDefinition type arity ↔ heading.arity? = some arity := by
  obtain ⟨entry, found, rfl⟩ := Option.map_eq_some_iff.mp told
  unfold Catalog.IsDefinition Heading.arity? Catalog.heading
  cases generic : entry.genericity with
  | plain | instantiation =>
      simp [found, generic, Catalog.headingGenericity]
  | definition parameters =>
      simp [found, generic, Catalog.headingGenericity]

/-- A type is instantiated if it is a definition with as many parameters, and then the heading of the
instantiation is added. -/
theorem instantiate?_told {catalog : Catalog} (loaded : catalog.Loaded) {generic : TypeId}
    {arguments : List TypeId} {definition : Heading} {inners : List Heading}
    (isGeneric : catalog.heading? generic = some definition)
    (areInners : catalog.AreTold arguments inners) :
    (catalog.instantiate? generic arguments = none ∧ definition.arity? ≠ some inners.length) ∨
    ∃ made, catalog.instantiate? generic arguments = some made ∧
      definition.arity? = some inners.length ∧
      Grown catalog made.2 {definition.instantiate inners} ∧
      made.2.heading? made.1 = some (definition.instantiate inners) := by
  have applies : (∃ made, catalog.instantiate? generic arguments = some made) ↔
      definition.arity? = some inners.length := by
    rw [← areInners.length_eq]
    exact Catalog.exists_instantiate?_iff.trans (isDefinition_iff_arity? isGeneric)
  cases instantiated : catalog.instantiate? generic arguments with
  | none =>
      refine .inl ⟨rfl, fun arity => ?_⟩
      obtain ⟨made, isMade⟩ := applies.mpr arity
      cases instantiated.symm.trans isMade
  | some made =>
      exact .inr ⟨made, rfl, applies.mp ⟨made, instantiated⟩,
        loaded.grown_instantiate isGeneric areInners instantiated⟩

/-- What a reference is resolved to is what it reads. -/
abbrev Resolves (before : Catalog) : TypeId × Catalog → Heading × Set Heading → Prop :=
  fun resolved read => Grown before resolved.2 read.2 ∧ resolved.2.heading? resolved.1 = some read.1

abbrev ResolvesAll (before : Catalog) : List TypeId × Catalog → List Heading × Set Heading → Prop :=
  fun resolved read => Grown before resolved.2 read.2 ∧ resolved.2.AreTold resolved.1 read.1

mutual

/-- **Resolving a reference agrees with reading it.** -/
theorem resolve_agrees {before : Catalog} (loaded : before.Loaded) {reference : TypeReference}
    (plain : ArePlain namespaceName reference.lookups) :
    Agrees (Resolves before) (reference.resolve namespaceName before)
      (reference.reading? before.outline.headings namespaceName) := by
  cases reference with
  | name text =>
      rw [TypeReference.resolve, TypeReference.reading?]
      obtain ⟨unknown, untold⟩ | ⟨type, heading, found, read, told⟩ :=
        lookup_cases loaded (plain _ List.mem_cons_self)
      · rw [unknown, untold]
        exact .error text
      · rw [found, read]
        exact .ok ⟨.refl loaded, told⟩
  | array element =>
      have inner : ArePlain namespaceName element.lookups := plain
      have agrees := resolve_agrees loaded inner
      rw [TypeReference.resolve, TypeReference.reading?]
      generalize element.resolve namespaceName before = outcome at agrees ⊢
      generalize element.reading? before.outline.headings namespaceName = expected at agrees ⊢
      cases agrees with
      | error fault => exact .error fault
      | ok holds =>
          obtain ⟨grown, told⟩ := holds
          obtain ⟨further, made⟩ := grown.loaded.grown_arrayOf told
          exact .ok ⟨grown.trans further, made⟩
  | application written definition arguments =>
      have inner : ArePlain namespaceName (allLookups arguments) := fun name inside =>
        plain name (List.mem_cons_of_mem _ inside)
      have agrees := resolveReferences_agrees loaded inner
      have isPlain := plain _ List.mem_cons_self
      rw [TypeReference.resolve, TypeReference.reading?]
      generalize resolveReferences namespaceName before arguments = outcome at agrees ⊢
      have sameLength := @length_of_readings? namespaceName before.outline.headings arguments
      generalize readings? before.outline.headings namespaceName arguments = expected
        at agrees sameLength ⊢
      cases agrees with
      | error fault => exact .error fault
      | ok holds =>
          rename_i resolved read
          obtain ⟨types, middle⟩ := resolved
          obtain ⟨inners, made⟩ := read
          obtain ⟨grown, told⟩ := holds
          -- the definition is looked up behind its arguments, which declare no names
          rw [← sameLength rfl] at isPlain
          have looksUp := lookup_cases grown.loaded isPlain
          rw [grown.headings_eq] at looksUp
          rw [Option.bind_some]
          dsimp only
          rw [told.length_eq, ← genericName]
          obtain ⟨unknown, untold⟩ | ⟨generic, heading, found, read, isHeading⟩ := looksUp
          · rw [unknown, untold]
            exact .error written
          · rw [found, read, Option.bind_some]
            dsimp only
            obtain ⟨refused, arity⟩ | ⟨created, instantiated, arity, further, made⟩ :=
              instantiate?_told grown.loaded isHeading told
            · rw [refused, if_neg arity]
              exact .error written
            · rw [instantiated, if_pos arity]
              exact .ok ⟨grown.trans further, made⟩

theorem resolveReferences_agrees {before : Catalog} (loaded : before.Loaded)
    {references : List TypeReference} (plain : ArePlain namespaceName (allLookups references)) :
    Agrees (ResolvesAll before) (resolveReferences namespaceName before references)
      (readings? before.outline.headings namespaceName references) := by
  cases references with
  | nil =>
      rw [resolveReferences, readings?]
      exact .ok ⟨.refl loaded, .nil⟩
  | cons reference rest =>
      have here : ArePlain namespaceName reference.lookups := fun name inside =>
        plain name (List.mem_append_left _ inside)
      have there : ArePlain namespaceName (allLookups rest) := fun name inside =>
        plain name (List.mem_append_right _ inside)
      have first := resolve_agrees loaded here
      rw [resolveReferences, readings?]
      generalize reference.resolve namespaceName before = outcome at first ⊢
      generalize reference.reading? before.outline.headings namespaceName = expected at first ⊢
      cases first with
      | error fault => exact .error fault
      | ok holds =>
          rename_i resolved read
          obtain ⟨type, middle⟩ := resolved
          obtain ⟨heading, made⟩ := read
          obtain ⟨grown, told⟩ := holds
          have others := resolveReferences_agrees grown.loaded there
          rw [grown.headings_eq] at others
          rw [Option.bind_some]
          dsimp only
          generalize resolveReferences namespaceName middle rest = outcome at others ⊢
          generalize readings? before.outline.headings namespaceName rest = expected at others ⊢
          cases others with
          | error fault => exact .error fault
          | ok holds =>
              obtain ⟨further, areOthers⟩ := holds
              have stillTold := grown.loaded.heading?_eq further.interns.kept told
              exact .ok ⟨grown.trans further, .cons stillTold areOthers⟩

end

/-! ## Names that texts look up -/

section Texts

open Text

theorem not_isBracketed_within {place name : String} (noMark : '<' ∉ place.toList)
    (plain : ¬ IsBracketed name) : ¬ IsBracketed (place ++ "." ++ name) := by
  intro bracketed
  by_cases last : name.toList.getLast? = some '>'
  · refine plain ⟨?_, last⟩
    have inside := bracketed.1
    simp only [String.toList_append, List.mem_append] at inside
    rcases inside with (inside | inside) | inside
    · exact absurd inside noMark
    · exact absurd inside (by decide)
    · exact inside
  · exact not_isBracketed_qualified place last bracketed

theorem not_isBracketed_expandAlias {text : String} (plain : ¬ IsBracketed text) :
    ¬ IsBracketed (Binding.expandAlias text) := by
  unfold Binding.expandAlias
  cases found : Binding.aliases.lookup text with
  | none => exact plain
  | some full =>
      have all : ∀ known ∈ Binding.aliases, ¬ IsBracketed known.2 := by decide
      exact all (text, full) (Catalog.mem_of_lookup found)

theorem length_part_le {depth : Nat} {text part : List Char}
    (isPart : part ∈ topLevelParts depth text) : part.length ≤ text.length := by
  induction text generalizing depth part with
  | nil =>
      rw [List.mem_singleton.mp isPart]
  | cons c rest ih =>
      rw [topLevelParts] at isPart
      split at isPart
      · rcases List.mem_cons.mp isPart with rfl | later
        · exact Nat.zero_le _
        · exact Nat.le_succ_of_le (ih later)
      · split at isPart
        · rw [List.mem_singleton.mp isPart]
          exact Nat.succ_le_succ (Nat.zero_le _)
        · rename_i first others parts
          rcases List.mem_cons.mp isPart with rfl | later
          · exact Nat.succ_le_succ (ih (parts ▸ List.mem_cons_self))
          · exact Nat.le_succ_of_le (ih (parts ▸ List.mem_cons_of_mem _ later))

theorem length_of_stripSuffix? {suffix text rest : List Char}
    (stripped : stripSuffix? suffix text = some rest) :
    rest.length + suffix.length = text.length := by
  unfold stripSuffix? at stripped
  split at stripped
  · rename_i isSuffix
    cases stripped
    have shorter := (List.isSuffixOf_iff_suffix.mp isSuffix).length_le
    rw [List.length_take]
    omega
  · cases stripped

theorem length_of_application? {text definition arguments : List Char}
    (found : application? text = some (definition, arguments)) :
    arguments.length < text.length := by
  unfold application? at found
  split at found
  · cases found
  · rename_i before rest cut
    obtain ⟨inner, stripped, same⟩ := Option.map_eq_some_iff.mp found
    cases same
    have shorter := length_of_stripSuffix? stripped
    rw [eq_of_cut?_eq_some cut, List.length_append, List.length_cons]
    omega

theorem length_trimChars_le (text : List Char) : (trimChars text).length ≤ text.length := by
  unfold trimChars trimEndChars trimStartChars
  rw [List.length_reverse]
  refine Nat.le_trans (List.dropWhile_sublist _).length_le ?_
  rw [List.length_reverse]
  exact (List.dropWhile_sublist _).length_le

/-- A text that is no application does not end in arguments. -/
theorem not_isBracketed_of_application? {text : List Char}
    (noApplication : application? text = none) : ¬ IsBracketed (String.ofList text) := by
  rintro ⟨inside, isLast⟩
  rw [String.toList_ofList] at inside isLast
  obtain ⟨front, back, rfl, absent⟩ := List.eq_append_cons_of_mem inside
  rw [application?, cut?_append absent, Option.map_eq_none_iff, stripSuffix?] at noApplication
  rcases List.eq_nil_or_concat back with rfl | ⟨middle, last, rfl⟩
  · rw [List.getLast?_concat] at isLast
    cases isLast
  · rw [List.concat_eq_append, ← List.cons_append, ← List.append_assoc, List.getLast?_concat,
      Option.some.injEq] at isLast
    subst isLast
    rw [if_pos (List.isSuffixOf_iff_suffix.mpr (by simp))] at noApplication
    cases noApplication

theorem mem_allLookups {references : List TypeReference} {name : String} :
    name ∈ allLookups references ↔ ∃ reference ∈ references, name ∈ reference.lookups := by
  induction references with
  | nil => simp [allLookups]
  | cons reference rest ih => simp [allLookups, ih]

/-- The namespace has no opening angle bracket. -/
def IsPlainNamespace (namespaceName : Option String) : Prop :=
  ∀ place, namespaceName = some place → '<' ∉ place.toList

section Plain

variable (isPlain : IsPlainNamespace namespaceName)
include isPlain

theorem arePlain_candidates {name : String} (plain : ¬ IsBracketed name) :
    ∀ candidate ∈ candidates namespaceName name, ¬ IsBracketed candidate := by
  refine List.forall_mem_cons.mpr ⟨plain, fun candidate isCandidate => ?_⟩
  obtain ⟨place, isPlace, rfl⟩ := List.mem_map.mp isCandidate
  refine not_isBracketed_within ?_ plain
  rcases List.mem_append.mp isPlace with given | core
  · exact isPlain place (Option.mem_toList.mp given)
  · rw [List.mem_singleton.mp core]
    decide

theorem arePlain_name {text : List Char} (noApplication : application? text = none) :
    ArePlain namespaceName (TypeReference.name (String.ofList text)).lookups := by
  intro name isName
  rw [TypeReference.lookups, List.mem_singleton] at isName
  rw [isName]
  exact arePlain_candidates isPlain
    (not_isBracketed_expandAlias (not_isBracketed_of_application? noApplication))

theorem arePlain_readWithin (depth : Nat) {text : List Char} (deep : text.length ≤ depth) :
    ArePlain namespaceName (readWithin depth text).lookups := by
  induction depth generalizing text with
  | zero =>
      rw [List.eq_nil_of_length_eq_zero (Nat.le_zero.mp deep), readWithin]
      exact arePlain_name isPlain rfl
  | succ depth ih =>
      have shorter := length_trimChars_le text
      rw [readWithin]
      split
      · rename_i element stripped
        have length : element.length + 2 = (trimChars text).length :=
          length_of_stripSuffix? stripped
        rw [TypeReference.lookups]
        exact ih (by omega)
      · split
        · rename_i definition arguments found
          have length := length_of_application? found
          intro name isName
          rcases List.mem_cons.mp isName with rfl | below
          · exact arePlain_candidates isPlain
              (not_isBracketed_of_getLast? (getLast?_genericName _ _))
          · obtain ⟨reference, isReference, inside⟩ := mem_allLookups.mp below
            obtain ⟨part, isPart, rfl⟩ := List.mem_map.mp isReference
            have partLength := length_part_le isPart
            exact ih (by omega) name inside
        · rename_i noApplication
          exact arePlain_name isPlain noApplication

/-- **The names that a text looks up are not those of instantiations.** -/
theorem arePlain_lookups_ofText (text : String) :
    ArePlain namespaceName (TypeReference.ofText text).lookups :=
  arePlain_readWithin isPlain _ (Nat.le_refl _)

end Plain

end Texts

end Schema

end ExprImports
