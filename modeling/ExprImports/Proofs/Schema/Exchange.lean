import ExprImports.Proofs.Schema.Summaries

/-!
# The order of declarations

Two types that are declared one behind the other, and do not mention each other in their base types
and interfaces, can be declared in either order. On outlines the two declarations commute
(`declare?_comm`), and so do the descriptions of any two types (`describe?_comm`).

**Blocked names.** There is one way in which the order matters. A type is refused if its name is known
already, be it as it stands or with the number of parameters behind it, and a type without parameters
is known under its name as it stands. So it blocks a type with parameters that has the same name
otherwise, but is not blocked by it. Whether one type blocks the other is all that acceptance depends
on, and what is told of the schemas is the same (`exchange_types`).
-/

set_option autoImplicit false

namespace ExprImports

namespace Schema

/-! ## Names -/

namespace DeclaredType

/-- The texts of the base type and the interfaces. -/
def parents (declared : DeclaredType) : List String :=
  declared.base.toList ++ declared.interfaces

/-- A name in the base type or in an interface stands for the other type, where that type is declared
besides all that have these names. A name stands for the first of its candidates that there is. -/
def Mentions (known : List String) (declared other : DeclaredType) : Prop :=
  ∃ text ∈ declared.parents, ∃ name ∈ (TypeReference.ofText text).lookups,
    (candidates declared.namespace? name).find? (fun place => place ∈ other.recordedName :: known) =
      some other.recordedName

/-- Once the first type is declared, the second one is taken for a type that is known. -/
def Blocks (first second : DeclaredType) : Prop :=
  first.recordedName = second.fullName ∨
    first.recordedName = genericName second.fullName second.genericParameters.length

instance (known : List String) (declared other : DeclaredType) :
    Decidable (declared.Mentions known other) :=
  inferInstanceAs (Decidable (∃ text ∈ declared.parents, _))

instance (first second : DeclaredType) : Decidable (first.Blocks second) :=
  inferInstanceAs (Decidable (_ ∨ _))

theorem recordedName_ne {first second : DeclaredType} (unblocked : ¬ first.Blocks second) :
    first.recordedName ≠ second.recordedName := by
  intro same
  refine unblocked ?_
  unfold Blocks
  rw [same, recordedName]
  split
  · exact .inl rfl
  · exact .inr rfl

end DeclaredType

/-- The names of the core types and of the types that are declared so far. -/
def knownNames (earlier : List DeclaredType) : List String :=
  Catalog.initial.names.map Prod.fst ++ earlier.map (·.recordedName)

section Lookups

variable {headings : String → Option Heading} {namespaceName : Option String} {known : List String}

/-- One more heading changes a lookup only if its name is the first candidate that there is. -/
theorem lookupHeading?_update {name added : String} {heading : Heading}
    (isKnown : ∀ place ∈ candidates namespaceName name, (headings place).isSome ↔ place ∈ known)
    (other : (candidates namespaceName name).find? (fun place => place ∈ added :: known) ≠
      some added) :
    lookupHeading? (Function.update headings added (some heading)) namespaceName name =
      lookupHeading? headings namespaceName name := by
  unfold lookupHeading?
  generalize candidates namespaceName name = places at isKnown other ⊢
  induction places with
  | nil => rfl
  | cons place rest ih =>
      obtain ⟨here, later⟩ := List.forall_mem_cons.mp isKnown
      rw [List.find?_cons] at other
      -- the name that is added would be the first candidate there is
      have differs : place ≠ added := by
        rintro rfl
        exact other (by simp)
      rw [List.findSome?_cons, List.findSome?_cons, Function.update_of_ne differs]
      cases found : headings place with
      | some known => rfl
      | none =>
          rw [found] at here
          have absent : place ∉ known := fun inside => by simpa using here.mpr inside
          refine ih later ?_
          simpa [differs, absent] using other

end Lookups

/-! ## Exchanging two declarations -/

/-- Two additions commute if neither changes what is read for the other one, and what they add can be
added in either order. -/
theorem additions_comm {σ α β : Type} {start : σ} {readFirst : σ → Option α}
    {readSecond : σ → Option β} {addFirst : σ → α → σ} {addSecond : σ → β → σ}
    (secondStays : ∀ one, readFirst start = some one →
      readSecond (addFirst start one) = readSecond start)
    (firstStays : ∀ other, readSecond start = some other →
      readFirst (addSecond start other) = readFirst start)
    (commute : ∀ one other, readFirst start = some one → readSecond start = some other →
      addSecond (addFirst start one) other = addFirst (addSecond start other) one) :
    ((readFirst start).map (addFirst start)).bind
        (fun middle => (readSecond middle).map (addSecond middle)) =
      ((readSecond start).map (addSecond start)).bind
        (fun middle => (readFirst middle).map (addFirst middle)) := by
  cases ofFirst : readFirst start with
  | none =>
      cases ofSecond : readSecond start with
      | none => rfl
      | some other => simp only [Option.map_none, Option.bind_none, Option.map_some, Option.bind_some,
          firstStays other ofSecond, ofFirst]
  | some one =>
      have second := secondStays one ofFirst
      cases ofSecond : readSecond start with
      | none => simp only [Option.map_none, Option.bind_none, Option.map_some, Option.bind_some,
          second, ofSecond]
      | some other =>
          simp only [Option.map_some, Option.bind_some, second, ofSecond, firstStays other ofSecond,
            ofFirst, commute one other ofFirst ofSecond]

theorem fullName_of_announced? {declared : DeclaredType} {assemblies : String → Option AssemblyId}
    {headings : String → Option Heading} {heading : Heading} {made : Set Heading}
    (announced : declared.announced? assemblies headings = some (heading, made)) :
    heading.fullName = declared.recordedName := by
  obtain ⟨assembly, _, announced⟩ := Option.bind_eq_some_iff.mp announced
  dsimp only at announced
  split at announced
  · cases announced
  · obtain ⟨⟨base, made⟩, _, announced⟩ := Option.bind_eq_some_iff.mp announced
    obtain ⟨⟨interfaces, further⟩, _, same⟩ := Option.map_eq_some_iff.mp announced
    cases same
    rfl

section Exchange

variable {outline : Outline} {first second : DeclaredType} {known : List String}

/-- The candidates of the names that a type looks up in its base type and interfaces are known if
and only if they are among these names. -/
def KnowsPlaces (outline : Outline) (declared : DeclaredType) (known : List String) : Prop :=
  ∀ text ∈ declared.parents, ∀ name ∈ (TypeReference.ofText text).lookups,
    ∀ place ∈ candidates declared.namespace? name,
      (outline.headings place).isSome ↔ place ∈ known

theorem declare_comm (outline : Outline) {one other : Heading} (differ : one.fullName ≠ other.fullName)
    (made further : Set Heading) :
    (outline.declare one made).declare other further =
      (outline.declare other further).declare one made := by
  simp only [Outline.declare, Function.update_comm differ, Set.union_right_comm]

theorem record_comm (outline : Outline) {one other : String} (differ : one ≠ other)
    (body more : Body) (made further : Set Heading) :
    (((outline.gain made).record one body).gain further).record other more =
      (((outline.gain further).record other more).gain made).record one body := by
  simp only [Outline.gain, Outline.record, Function.update_of_ne differ,
    Function.update_of_ne differ.symm, Function.update_comm differ, Set.union_right_comm]

/-- What is announced of a type depends on the names that it looks up in its base type and
interfaces, and on the two names under which it could be known. -/
theorem announced?_congr {declared : DeclaredType} {assemblies : String → Option AssemblyId}
    {headings others : String → Option Heading}
    (parents : ∀ text ∈ declared.parents, ∀ name ∈ (TypeReference.ofText text).lookups,
      lookupHeading? others declared.namespace? name =
        lookupHeading? headings declared.namespace? name)
    (here : others declared.fullName = headings declared.fullName)
    (generic : others (genericName declared.fullName declared.genericParameters.length) =
      headings (genericName declared.fullName declared.genericParameters.length)) :
    declared.announced? assemblies others = declared.announced? assemblies headings := by
  have base : declared.readBase? others = declared.readBase? headings := by
    unfold DeclaredType.readBase?
    cases isBase : declared.base with
    | none => rfl
    | some text =>
        have isParent : text ∈ declared.parents :=
          List.mem_append_left _ (Option.mem_toList.mpr isBase)
        dsimp only
        rw [reading?_congr (parents text isParent)]
  have interfaces : readings? others declared.namespace? (declared.interfaces.map .ofText) =
      readings? headings declared.namespace? (declared.interfaces.map .ofText) := by
    refine readings?_congr fun name inside => ?_
    obtain ⟨reference, isReference, isName⟩ := mem_allLookups.mp inside
    obtain ⟨text, isInterface, rfl⟩ := List.mem_map.mp isReference
    exact parents text (List.mem_append_right _ isInterface) name isName
  unfold DeclaredType.announced?
  rw [base, interfaces, here, generic]

/-- **A type is announced as before** if another one is declared that does not block it, and that it
does not mention. -/
theorem announced?_declare (places : KnowsPlaces outline second known)
    (unblocked : ¬ first.Blocks second) (apart : ¬ second.Mentions known first) {heading : Heading}
    (isName : heading.fullName = first.recordedName) (made : Set Heading) :
    second.announced? (outline.declare heading made).assemblies
        (outline.declare heading made).headings =
      second.announced? outline.assemblies outline.headings := by
  obtain ⟨notHere, notGeneric⟩ := not_or.mp unblocked
  have headings : (outline.declare heading made).headings =
      Function.update outline.headings first.recordedName (some heading) := by
    rw [← isName]
    rfl
  rw [headings]
  refine announced?_congr (fun text isParent name isName => ?_)
    (Function.update_of_ne (Ne.symm notHere) ..) (Function.update_of_ne (Ne.symm notGeneric) ..)
  exact lookupHeading?_update (places text isParent name isName) fun stands =>
    apart ⟨text, isParent, name, isName, stands⟩

/-- **Declarations of two types commute** if neither blocks or mentions the other. -/
theorem declare?_comm (placesOfFirst : KnowsPlaces outline first known)
    (placesOfSecond : KnowsPlaces outline second known)
    (unblocked : ¬ first.Blocks second ∧ ¬ second.Blocks first)
    (apart : ¬ first.Mentions known second ∧ ¬ second.Mentions known first) :
    (declare? outline first).bind (declare? · second) =
      (declare? outline second).bind (declare? · first) := by
  refine @additions_comm Outline _ _ outline
    (fun outline => first.announced? outline.assemblies outline.headings)
    (fun outline => second.announced? outline.assemblies outline.headings)
    (fun outline added => outline.declare added.1 added.2)
    (fun outline added => outline.declare added.1 added.2)
    (fun one ofFirst => ?_) (fun other ofSecond => ?_) fun one other ofFirst ofSecond => ?_
  · exact announced?_declare placesOfSecond unblocked.1 apart.2 (fullName_of_announced? ofFirst) _
  · exact announced?_declare placesOfFirst unblocked.2 apart.1 (fullName_of_announced? ofSecond) _
  · refine declare_comm outline ?_ _ _
    rw [fullName_of_announced? ofFirst, fullName_of_announced? ofSecond]
    exact DeclaredType.recordedName_ne unblocked.1

/-- **Descriptions of two types commute** if the types have different names. -/
theorem describe?_comm (outline : Outline) (differ : first.recordedName ≠ second.recordedName) :
    (describe? outline first).bind (describe? · second) =
      (describe? outline second).bind (describe? · first) :=
  @additions_comm Outline _ _ outline
    (fun outline => first.readBody? outline.headings)
    (fun outline => second.readBody? outline.headings)
    (fun outline added => (outline.gain added.2).record first.recordedName added.1)
    (fun outline added => (outline.gain added.2).record second.recordedName added.1)
    (fun _ _ => rfl) (fun _ _ => rfl) fun one other _ _ =>
      record_comm outline differ one.1 other.1 one.2 other.2

end Exchange

/-! ## Exchanging types in a schema -/

/-- Two steps that commute can be exchanged wherever they stand. -/
theorem foldlM_exchange {σ α : Type} {step : σ → α → Option σ} {earlier later : List α}
    {first second : α} {start : σ}
    (commute : ∀ middle, earlier.foldlM step start = some middle →
      (step middle first).bind (step · second) = (step middle second).bind (step · first)) :
    (earlier ++ first :: second :: later).foldlM step start =
      (earlier ++ second :: first :: later).foldlM step start := by
  rw [List.foldlM_append, List.foldlM_append]
  refine Option.bind_congr fun middle found => ?_
  have exchanged := congrArg (·.bind (later.foldlM step)) (commute middle found)
  simpa only [List.foldlM_cons, Option.bind_assoc, Option.bind_eq_bind] using exchanged

theorem isSome_headings_declare? {outline after : Outline} {declared : DeclaredType}
    (found : declare? outline declared = some after) (name : String) :
    (after.headings name).isSome ↔
      (outline.headings name).isSome ∨ name = declared.recordedName := by
  obtain ⟨⟨heading, made⟩, announced, rfl⟩ := Option.map_eq_some_iff.mp found
  have isName := fullName_of_announced? announced
  by_cases same : name = declared.recordedName
  · simp [Outline.declare, isName, same]
  · simp [Outline.declare, isName, same]

theorem isSome_headings_foldlM {outline after : Outline} {earlier : List DeclaredType}
    (found : earlier.foldlM declare? outline = some after) (name : String) :
    (after.headings name).isSome ↔
      (outline.headings name).isSome ∨ name ∈ earlier.map (·.recordedName) := by
  induction earlier generalizing outline with
  | nil =>
      obtain rfl := Option.some.inj found
      simp
  | cons declared rest ih =>
      rw [List.foldlM_cons] at found
      obtain ⟨middle, isMiddle, further⟩ := Option.bind_eq_some_iff.mp found
      rw [ih further, isSome_headings_declare? isMiddle, List.map_cons, List.mem_cons, or_assoc]

theorem isSome_lookup_iff {names : List (String × TypeId)} {name : String} :
    (names.lookup name).isSome ↔ name ∈ names.map Prod.fst := by
  induction names with
  | nil => simp
  | cons named rest ih =>
      rw [List.lookup_cons, List.map_cons, List.mem_cons, ← ih]
      cases same : name == named.1 with
      | true => simp [eq_of_beq same]
      | false => simp [ne_of_beq_false same]

/-- The names that are known once the earlier types are declared. -/
theorem knowsPlaces_of_foldlM {assemblies : List DeclaredAssembly} {earlier : List DeclaredType}
    {outline : Outline}
    (found : earlier.foldlM declare? (withAssemblies .initial assemblies).outline = some outline)
    {declared : DeclaredType} (plain : declared.HasPlainName) :
    KnowsPlaces outline declared (knownNames earlier) := by
  intro text _ name isName place isPlace
  have notBracketed := arePlain_lookups_ofText (isPlainNamespace_namespace? plain) text name isName
    place isPlace
  have start := loaded_withAssemblies Catalog.loaded_initial assemblies
  rw [isSome_headings_foldlM found, start.isSome_headings notBracketed, Catalog.findType?,
    names_withAssemblies, isSome_lookup_iff, knownNames, List.mem_append]

/-- A type is refused where one that blocks it is declared. -/
theorem declare?_eq_none_of_blocks {outline middle : Outline} {first second : DeclaredType}
    (found : declare? outline first = some middle) (blocks : first.Blocks second) :
    declare? middle second = none := by
  have known (name : String) (same : first.recordedName = name) :
      (middle.headings name).isSome = true :=
    (isSome_headings_declare? found name).mpr (.inr same.symm)
  rw [declare?, Option.map_eq_none_iff, DeclaredType.announced?, Option.bind_eq_none_iff]
  intro assembly _
  rw [if_pos]
  rcases blocks with here | generic
  · rw [known _ here, Bool.true_or]
  · rw [known _ generic, Bool.or_true]

section Schemas

variable {outline : Outline} {earlier later : List DeclaredType} {first second : DeclaredType}
  {bindings : List (String × String)}

theorem tell?_eq_none_of_blocks (blocks : first.Blocks second) :
    tell? outline (earlier ++ first :: second :: later) bindings = none := by
  have refused : (earlier ++ first :: second :: later).foldlM declare? outline = none := by
    rw [List.foldlM_append]
    refine Option.bind_eq_none_iff.mpr fun middle _ => ?_
    rw [List.foldlM_cons]
    refine Option.bind_eq_none_iff.mpr fun next found => ?_
    rw [List.foldlM_cons, declare?_eq_none_of_blocks found blocks]
    rfl
  rw [tell?, refused, Option.bind_none]

theorem tell?_exchange
    (places : ∀ middle, earlier.foldlM declare? outline = some middle →
      KnowsPlaces middle first (knownNames earlier) ∧ KnowsPlaces middle second (knownNames earlier))
    (unblocked : ¬ first.Blocks second ∧ ¬ second.Blocks first)
    (apart : ¬ first.Mentions (knownNames earlier) second ∧
      ¬ second.Mentions (knownNames earlier) first) :
    tell? outline (earlier ++ first :: second :: later) bindings =
      tell? outline (earlier ++ second :: first :: later) bindings := by
  have declarations : (earlier ++ first :: second :: later).foldlM declare? outline =
      (earlier ++ second :: first :: later).foldlM declare? outline :=
    foldlM_exchange fun middle found =>
      let ⟨placesOfFirst, placesOfSecond⟩ := places middle found
      declare?_comm placesOfFirst placesOfSecond unblocked apart
  have descriptions (declared : Outline) :
      (earlier ++ first :: second :: later).foldlM describe? declared =
        (earlier ++ second :: first :: later).foldlM describe? declared :=
    foldlM_exchange fun middle _ =>
      describe?_comm middle (DeclaredType.recordedName_ne unblocked.1)
  simp only [tell?, declarations, descriptions]

end Schemas

/-- The schema that declarations make is accepted. -/
def IsAccepted (declarations : Declarations) : Prop :=
  ∃ schema, ofDeclarations declarations = .ok schema

theorem isAccepted_iff {declarations : Declarations}
    (plain : ∀ declared ∈ declarations.types, declared.HasPlainName) :
    IsAccepted declarations ↔
      (tell? (withAssemblies .initial declarations.assemblies).outline declarations.types
        declarations.bindings).isSome := by
  have agrees := ofDeclarations_agrees plain
  unfold IsAccepted
  generalize ofDeclarations declarations = outcome at agrees ⊢
  generalize tell? (withAssemblies .initial declarations.assemblies).outline declarations.types
    declarations.bindings = told at agrees ⊢
  cases agrees with
  | ok holds => exact ⟨fun _ => rfl, fun _ => ⟨_, rfl⟩⟩
  | error fault =>
      constructor
      · rintro ⟨_, ⟨⟩⟩
      · rintro ⟨⟩

section Exchanging

variable {assemblies : List DeclaredAssembly} {earlier later : List DeclaredType}
  {first second : DeclaredType} {bindings : List (String × String)}
  (plain : ∀ declared ∈ earlier ++ first :: second :: later, declared.HasPlainName)
include plain

theorem not_blocks_of_isAccepted
    (accepted : IsAccepted ⟨assemblies, earlier ++ first :: second :: later, bindings⟩) :
    ¬ first.Blocks second := by
  intro blocks
  rw [isAccepted_iff plain, tell?_eq_none_of_blocks blocks] at accepted
  cases accepted

theorem plain_exchange : ∀ declared ∈ earlier ++ second :: first :: later, declared.HasPlainName := by
  intro declared inside
  refine plain declared ?_
  simp only [List.mem_append, List.mem_cons] at inside ⊢
  tauto

/-- What is told of the schema does not depend on the order. -/
theorem tell?_types_exchange
    (unblocked : ¬ first.Blocks second ∧ ¬ second.Blocks first)
    (apart : ¬ first.Mentions (knownNames earlier) second ∧
      ¬ second.Mentions (knownNames earlier) first) :
    tell? (withAssemblies .initial assemblies).outline (earlier ++ first :: second :: later)
        bindings =
      tell? (withAssemblies .initial assemblies).outline (earlier ++ second :: first :: later)
        bindings := by
  refine tell?_exchange (fun middle found => ⟨?_, ?_⟩) unblocked apart
  · exact knowsPlaces_of_foldlM found (plain first (by simp))
  · exact knowsPlaces_of_foldlM found (plain second (by simp))

theorem isAccepted_exchange
    (apart : ¬ first.Mentions (knownNames earlier) second ∧
      ¬ second.Mentions (knownNames earlier) first)
    (accepted : IsAccepted ⟨assemblies, earlier ++ first :: second :: later, bindings⟩)
    (free : ¬ second.Blocks first) :
    IsAccepted ⟨assemblies, earlier ++ second :: first :: later, bindings⟩ ∧
      ¬ first.Blocks second := by
  have unblocked := not_blocks_of_isAccepted plain accepted
  refine ⟨(isAccepted_iff (plain_exchange plain)).mpr ?_, unblocked⟩
  rw [← tell?_types_exchange plain ⟨unblocked, free⟩ apart]
  exact (isAccepted_iff plain).mp accepted

/-- **Two types that do not mention each other** in their base types and interfaces can be declared in
either order, as far as neither blocks the other: a schema with the one order is accepted, and the
second type does not block the first one, exactly if the schema with the other order is accepted, and
the first type does not block the second one. If both are accepted, they have the same types, with the
same headings and bodies, and the same variables. -/
theorem exchange_types
    (apart : ¬ first.Mentions (knownNames earlier) second ∧
      ¬ second.Mentions (knownNames earlier) first) :
    (IsAccepted ⟨assemblies, earlier ++ first :: second :: later, bindings⟩ ∧ ¬ second.Blocks first ↔
      IsAccepted ⟨assemblies, earlier ++ second :: first :: later, bindings⟩ ∧
        ¬ first.Blocks second) ∧
    ∀ schema other,
      ofDeclarations ⟨assemblies, earlier ++ first :: second :: later, bindings⟩ = .ok schema →
      ofDeclarations ⟨assemblies, earlier ++ second :: first :: later, bindings⟩ = .ok other →
        schema.described = other.described ∧ schema.variableTypes = other.variableTypes := by
  have swapped := plain_exchange plain
  refine ⟨⟨fun ⟨accepted, free⟩ => isAccepted_exchange plain apart accepted free,
    fun ⟨accepted, free⟩ => isAccepted_exchange swapped apart.symm accepted free⟩, ?_⟩
  intro schema other done doneOther
  -- a schema that is accepted has no blocked names, so here neither type blocks the other
  have unblocked := not_blocks_of_isAccepted plain ⟨schema, done⟩
  have free := not_blocks_of_isAccepted swapped ⟨other, doneOther⟩
  have one := @ofDeclarations_agrees
    ⟨assemblies, earlier ++ first :: second :: later, bindings⟩ plain
  have another := @ofDeclarations_agrees
    ⟨assemblies, earlier ++ second :: first :: later, bindings⟩ swapped
  rw [done] at one
  rw [doneOther] at another
  dsimp only at one another
  rw [← tell?_types_exchange plain ⟨unblocked, free⟩ apart] at another
  generalize tell? (withAssemblies .initial assemblies).outline
    (earlier ++ first :: second :: later) bindings = told at one another
  cases one with
  | ok here =>
      cases another with
      | ok there =>
          exact ⟨here.1.trans there.1.symm, here.2.trans there.2.symm⟩

end Exchanging

/-! ## A name with and without parameters -/

namespace Boxes

def assembly : DeclaredAssembly :=
  { name := "Contoso.Crm" }

/-- A type without parameters. -/
def box : DeclaredType :=
  { name := "Box", namespaceName := "Contoso.Crm", assembly := "Contoso.Crm" }

/-- A type with one parameter that has the same name otherwise. -/
def boxOf : DeclaredType :=
  { box with genericParameters := ["T"] }

theorem isAccepted_boxOf_box : IsAccepted ⟨[assembly], [boxOf, box], []⟩ := by
  have accepted : (ofDeclarations ⟨[assembly], [boxOf, box], []⟩).isOk = true := by
    decide +kernel
  cases outcome : ofDeclarations ⟨[assembly], [boxOf, box], []⟩ with
  | ok schema => exact ⟨schema, outcome⟩
  | error fault =>
      rw [outcome] at accepted
      cases accepted

/-- The one with a parameter can be declared first, the one without it cannot. -/
theorem boxes_not_exchanged :
    ((∀ declared ∈ [boxOf, box], declared.HasPlainName) ∧
      ¬ boxOf.Mentions (knownNames []) box ∧ ¬ box.Mentions (knownNames []) boxOf) ∧
    IsAccepted ⟨[assembly], [boxOf, box], []⟩ ∧ ¬ IsAccepted ⟨[assembly], [box, boxOf], []⟩ := by
  have plain : ∀ declared ∈ [boxOf, box], declared.HasPlainName := by
    unfold DeclaredType.HasPlainName
    decide
  have apart : ¬ boxOf.Mentions (knownNames []) box ∧ ¬ box.Mentions (knownNames []) boxOf := by
    decide +kernel
  have exchanged := @exchange_types [assembly] [] [] boxOf box [] plain apart
  refine ⟨⟨plain, apart⟩, isAccepted_boxOf_box, fun accepted => ?_⟩
  have free : ¬ boxOf.Blocks box := by
    decide +kernel
  exact (exchanged.1.mpr ⟨accepted, free⟩).2 (by decide +kernel)

end Boxes

end Schema

end ExprImports
