import ExprImports.Proofs.Binding.Forms

/-!
# What dotted paths mean

A dotted path may go from a variable through its members, or from a type through one of its
static members. Which of the two it is, is decided at its first name (`Context.Resolves`).

**Variables first.** If the first name is a variable, every further name is a member of the
value before it, even where the catalog has types under these names.

**The longest type.** Otherwise the type is named by the longest proper prefix of the path
that stands for exactly one type. This choice is final: if the type cannot be seen under the
hints, or if a member behind it is missing, no shorter prefix is tried
(`bind_eq_ok_iff_resolves`).
-/

set_option autoImplicit false

namespace ExprImports

/-! ## Accesses to members -/

/-- From the first tree, accesses to instance members with the names, one after the other,
lead to the last tree. -/
inductive Catalog.Accesses (catalog : Catalog) : Tree → List String → Tree → Prop
  | none {tree : Tree} : Accesses catalog tree [] tree
  | next {tree last : Tree} {name : String} {names : List String} {member : Member} :
      catalog.findMember? tree.type name = some member → member.isStatic = false →
      Accesses catalog (.memberAccess tree member member.type) names last →
      Accesses catalog tree (name :: names) last

/-- The last access comes after all others. -/
theorem Catalog.accesses_append_iff {catalog : Catalog} {tree last : Tree} {names : List String}
    {name : String} :
    catalog.Accesses tree (names ++ [name]) last ↔
      ∃ inner member, catalog.Accesses tree names inner ∧
        catalog.findMember? inner.type name = some member ∧ member.isStatic = false ∧
          .memberAccess inner member member.type = last := by
  induction names generalizing tree with
  | nil =>
    constructor
    · rintro (_ | ⟨found, instance_, more⟩)
      cases more
      exact ⟨tree, _, .none, found, instance_, rfl⟩
    · rintro ⟨inner, member, accesses, found, instance_, rfl⟩
      cases accesses
      exact .next found instance_ .none
  | cons first names ih =>
    constructor
    · rintro (_ | ⟨found, instance_, more⟩)
      obtain ⟨inner, member, accesses, further⟩ := ih.mp more
      exact ⟨inner, member, .next found instance_ accesses, further⟩
    · rintro ⟨inner, member, accesses, further⟩
      cases accesses with
      | next found instance_ more =>
        exact .next found instance_ (ih.mpr ⟨inner, member, more, further⟩)

namespace Binding

open Surface

/-! ## Paths -/

/-- The expression is a path: a first name, and further names behind dots. -/
inductive IsPath (root : String) : Expression → List String → Prop
  | root {span : Span} : IsPath root (.identifier root span) []
  | member {target : Expression} {names : List String} {name : String} {span : Span} :
      IsPath root target names → IsPath root (.member target name span) (names ++ [name])

/-- The names with dots between them. -/
def dottedName (root : String) (names : List String) : String :=
  names.foldl (fun path name => path ++ "." ++ name) root

theorem IsPath.dottedPath?_eq {root : String} {expression : Expression} {names : List String}
    (path : IsPath root expression names) :
    expression.dottedPath? = some (dottedName root names) := by
  induction path with
  | root => rfl
  | member target ih =>
    rw [Expression.dottedPath?, ih, dottedName, dottedName, List.foldl_append]
    rfl

theorem IsPath.rootIdentifier?_eq {root : String} {expression : Expression} {names : List String}
    (path : IsPath root expression names) : expression.rootIdentifier? = some root := by
  induction path with
  | root => rfl
  | member target ih => exact ih

/-! ## Names that stand for one type -/

namespace Context

variable {context : Context} {name : String} {type : TypeId}

/-- A name may stand for a type as an alias or a full name, and if it is neither, as a name
in `System` or in a hinted namespace. -/
def MayName (context : Context) (name : String) (type : TypeId) : Prop :=
  context.catalog.findType? (expandAlias name) = some type ∨
    (context.catalog.findType? (expandAlias name) = none ∧
      ∃ place, (place = systemNamespace ∨ place ∈ context.namespaces) ∧
        context.catalog.findType? (place ++ "." ++ expandAlias name) = some type)

/-- The name stands for this type and for no other. -/
def NamesOnly (context : Context) (name : String) (type : TypeId) : Prop :=
  context.MayName name type ∧ ∀ other, context.MayName name other → other = type

/-- The hints allow the type to be named: there are none, or the type belongs to the core
assembly, to a hinted assembly or to none. -/
def Sees (context : Context) (type : TypeId) : Prop :=
  context.assemblies = [] ∨
    ∀ assembly, context.catalog.assemblyOf? type = some assembly →
      assembly.name.name = coreAssemblyName ∨
        ∃ hint ∈ context.assemblies, hint.name = assembly.name.name

theorem mem_candidates_iff_mayName :
    type ∈ context.candidates name ↔ context.MayName name type := by
  cases found : context.catalog.findType? (expandAlias name) with
  | none => simp [MayName, mem_candidates_iff found, found]
  | some first => simp [MayName, candidates, found, eq_comm]

theorem nodup_candidates (context : Context) (name : String) :
    (context.candidates name).Nodup := by
  unfold candidates
  dsimp only
  split
  · simp
  · exact nodup_distinct _

theorem uniqueType?_eq_some_iff :
    context.uniqueType? name = some type ↔ context.NamesOnly name type := by
  have distinct := context.nodup_candidates name
  simp only [NamesOnly, ← mem_candidates_iff_mayName]
  unfold uniqueType?
  generalize context.candidates name = candidates at distinct ⊢
  rcases candidates with _ | ⟨first, _ | ⟨second, others⟩⟩
  · simp
  · simp [eq_comm]
  · have different : first ≠ second := by
      rintro rfl
      exact (List.nodup_cons.mp distinct).1 List.mem_cons_self
    constructor
    · nofun
    · rintro ⟨_, same⟩
      have isFirst := same first List.mem_cons_self
      have isSecond := same second (List.mem_cons_of_mem _ List.mem_cons_self)
      exact absurd (isFirst.trans isSecond.symm) different

theorem uniqueType?_eq_none_iff :
    context.uniqueType? name = none ↔ ∀ type, ¬ context.NamesOnly name type := by
  simp only [← uniqueType?_eq_some_iff, Option.eq_none_iff_forall_ne_some, ne_eq]

theorem missingAssembly?_eq_none_iff :
    context.missingAssembly? type = none ↔ context.Sees type := by
  unfold missingAssembly? Sees
  by_cases noHints : context.assemblies = []
  · simp [noHints]
  · cases context.catalog.assemblyOf? type with
    | none => simp
    | some assembly => simp [noHints, Decidable.or_iff_not_imp_left]

end Context

/-! ## Members behind a dot -/

section Members

variable {context : Context} {target : Expression} {name : String} {span : Span} {tree : Tree}

/-- A member of the type before the dot. -/
theorem bind_member_of_type {type : TypeId} (isType : context.receiverType? target = some type) :
    bind context (.member target name span) = .ok tree ↔
      context.Sees type ∧ ∃ member, context.catalog.findMember? type name = some member ∧
        member.isStatic = true ∧ .staticAccess member member.type = tree := by
  rw [bind_eq_ok_iff, ← Context.missingAssembly?_eq_none_iff]
  constructor
  · intro binds
    cases binds with
    | member before made =>
        cases before with
        | type found visible =>
            obtain rfl := Option.some.inj (isType.symm.trans found)
            exact ⟨visible, bindMember_eq_ok_iff.mp made⟩
        | value isValue => cases isType.symm.trans isValue
  · rintro ⟨visible, further⟩
    exact .member (.type isType visible) (bindMember_eq_ok_iff.mpr further)

/-- A member of the value before the dot. -/
theorem bind_member_of_value (isValue : context.receiverType? target = none) :
    bind context (.member target name span) = .ok tree ↔
      ∃ inner, bind context target = .ok inner ∧
        ∃ member, context.catalog.findMember? inner.type name = some member ∧
          member.isStatic = false ∧ .memberAccess inner member member.type = tree := by
  rw [bind_eq_ok_iff]
  constructor
  · intro binds
    cases binds with
    | member before made =>
        cases before with
        | type found => cases isValue.symm.trans found
        | value _ bound => exact ⟨_, bound, bindMember_eq_ok_iff.mp made⟩
  · rintro ⟨inner, bound, further⟩
    exact .member (.value isValue bound) (bindMember_eq_ok_iff.mpr further)

end Members

/-! ## What a path resolves to -/

/-- The names behind the first one with which the longest proper prefix of the path begins
that stands for exactly one type. -/
structure Context.LongestType (context : Context) (root : String) (names front : List String)
    (type : TypeId) : Prop where
  isPrefix : front <+: names
  proper : front ≠ names
  named : context.NamesOnly (dottedName root front) type
  longest : ∀ longer, longer <+: names → longer ≠ names → front.length < longer.length →
    ∀ other, ¬ context.NamesOnly (dottedName root longer) other

/-- What a path resolves to: a variable and members of values, or a static member of the type
that the longest prefix names and members of values behind it. -/
inductive Context.Resolves (context : Context) (root : String) : List String → Tree → Prop
  | ofVariable {names : List String} {type : TypeId} {tree : Tree} :
      context.environment.lookup root = some type →
      context.catalog.Accesses (.parameter ⟨root, type⟩) names tree →
      Resolves context root names tree
  | ofType {front behind : List String} {name : String} {type : TypeId} {member : Member}
      {tree : Tree} :
      context.environment.lookup root = none →
      context.LongestType root (front ++ name :: behind) front type → context.Sees type →
      context.catalog.findMember? type name = some member → member.isStatic = true →
      context.catalog.Accesses (.staticAccess member member.type) behind tree →
      Resolves context root (front ++ name :: behind) tree

section Paths

variable {context : Context} {root : String} {expression : Expression} {names : List String}
  {tree : Tree}

theorem receiverType?_of_variable {type : TypeId} (path : IsPath root expression names)
    (isVariable : context.environment.lookup root = some type) :
    context.receiverType? expression = none := by
  simp [Context.receiverType?, path.rootIdentifier?_eq, path.dottedPath?_eq, isVariable]

theorem receiverType?_of_free (path : IsPath root expression names)
    (free : context.environment.lookup root = none) :
    context.receiverType? expression = context.uniqueType? (dottedName root names) := by
  simp [Context.receiverType?, path.rootIdentifier?_eq, path.dottedPath?_eq, free]

/-- Without a variable a single name is no value. -/
theorem bindIdentifier_of_free {span : Span} (free : context.environment.lookup root = none) :
    bindIdentifier context root span ≠ .ok tree := by
  unfold bindIdentifier
  rw [free]
  dsimp only
  split <;> nofun

/-- A path from a variable goes through members of values only. -/
theorem bind_path_of_variable {type : TypeId} (path : IsPath root expression names)
    (isVariable : context.environment.lookup root = some type) :
    bind context expression = .ok tree ↔
      context.catalog.Accesses (.parameter ⟨root, type⟩) names tree := by
  induction path generalizing tree with
  | root =>
    rw [bind, bindIdentifier, isVariable]
    constructor
    · rintro ⟨⟩
      exact .none
    · rintro ⟨⟩
      rfl
  | member target ih =>
    rw [bind_member_of_value (receiverType?_of_variable target isVariable),
      Catalog.accesses_append_iff]
    constructor
    · rintro ⟨inner, bound, member, further⟩
      exact ⟨inner, member, ih.mp bound, further⟩
    · rintro ⟨inner, member, accesses, further⟩
      exact ⟨inner, ih.mpr accesses, member, further⟩

/-! ### The longest prefix -/

/-- The proper prefixes of a list with one more element are the prefixes of the list. -/
theorem proper_prefix_append_iff {front : List String} {name : String} :
    front <+: names ++ [name] ∧ front ≠ names ++ [name] ↔ front <+: names := by
  rw [List.prefix_concat_iff]
  constructor
  · rintro ⟨whole | inside, proper⟩
    · exact absurd whole proper
    · exact inside
  · intro inside
    refine ⟨.inr inside, ?_⟩
    rintro rfl
    have short := inside.length_le
    rw [List.length_append, List.length_singleton] at short
    exact absurd short (Nat.not_succ_le_self _)

/-- If everything before the last dot names a type, this is the longest prefix that does. -/
theorem longestType_append_of_named {front : List String} {name : String} {type named : TypeId}
    (isNamed : context.NamesOnly (dottedName root names) named) :
    context.LongestType root (names ++ [name]) front type ↔ front = names ∧ type = named := by
  constructor
  · intro longest
    have inside : front <+: names :=
      proper_prefix_append_iff.mp ⟨longest.isPrefix, longest.proper⟩
    have whole : front = names := by
      obtain ⟨isPrefix, different⟩ := proper_prefix_append_iff.mpr (List.prefix_refl names)
      have notLonger : ¬ front.length < names.length := by
        intro shorter
        exact longest.longest names isPrefix different shorter named isNamed
      exact inside.eq_of_length (Nat.le_antisymm inside.length_le (Nat.le_of_not_lt notLonger))
    subst whole
    exact ⟨rfl, isNamed.2 type longest.named.1⟩
  · rintro ⟨rfl, rfl⟩
    obtain ⟨isPrefix, proper⟩ := proper_prefix_append_iff.mpr (List.prefix_refl front)
    refine ⟨isPrefix, proper, isNamed, ?_⟩
    intro longer isLonger notWhole shorter
    have inside := proper_prefix_append_iff.mp ⟨isLonger, notWhole⟩
    exact absurd inside.length_le (Nat.not_le_of_lt shorter)

/-- Otherwise it is the longest prefix of what stands before the last dot. -/
theorem longestType_append_of_unnamed {front : List String} {name : String} {type : TypeId}
    (unnamed : ∀ other, ¬ context.NamesOnly (dottedName root names) other) :
    context.LongestType root (names ++ [name]) front type ↔
      context.LongestType root names front type := by
  constructor
  · intro longest
    refine ⟨proper_prefix_append_iff.mp ⟨longest.isPrefix, longest.proper⟩, ?_, longest.named, ?_⟩
    · rintro rfl
      exact unnamed type longest.named
    · intro longer isLonger _ shorter
      obtain ⟨isPrefix, proper⟩ := proper_prefix_append_iff.mpr isLonger
      exact longest.longest longer isPrefix proper shorter
  · intro longest
    obtain ⟨isPrefix, proper⟩ := proper_prefix_append_iff.mpr longest.isPrefix
    refine ⟨isPrefix, proper, longest.named, ?_⟩
    intro longer isLonger notWhole shorter
    by_cases whole : longer = names
    · subst whole
      exact unnamed
    · exact longest.longest longer (proper_prefix_append_iff.mp ⟨isLonger, notWhole⟩) whole shorter

/-! ### Resolving -/

theorem resolves_append_of_named {name : String} {type : TypeId}
    (free : context.environment.lookup root = none)
    (isNamed : context.NamesOnly (dottedName root names) type) :
    context.Resolves root (names ++ [name]) tree ↔
      context.Sees type ∧ ∃ member, context.catalog.findMember? type name = some member ∧
        member.isStatic = true ∧ .staticAccess member member.type = tree := by
  constructor
  · intro resolves
    generalize isAll : names ++ [name] = all at resolves
    cases resolves with
    | ofVariable isVariable =>
      rw [free] at isVariable
      cases isVariable
    | ofType _ longest sees found static accesses =>
      rw [← isAll] at longest
      obtain ⟨rfl, rfl⟩ := (longestType_append_of_named isNamed).mp longest
      cases List.append_cancel_left isAll
      cases accesses
      exact ⟨sees, _, found, static, rfl⟩
  · rintro ⟨sees, member, found, static, rfl⟩
    have longest : context.LongestType root (names ++ [name]) names type :=
      (longestType_append_of_named isNamed).mpr ⟨rfl, rfl⟩
    exact .ofType free longest sees found static .none

theorem resolves_append_of_unnamed {name : String}
    (free : context.environment.lookup root = none)
    (unnamed : ∀ type, ¬ context.NamesOnly (dottedName root names) type) :
    context.Resolves root (names ++ [name]) tree ↔
      ∃ inner, context.Resolves root names inner ∧
        ∃ member, context.catalog.findMember? inner.type name = some member ∧
          member.isStatic = false ∧ .memberAccess inner member member.type = tree := by
  constructor
  · intro resolves
    generalize isAll : names ++ [name] = all at resolves
    cases resolves with
    | ofVariable isVariable =>
      rw [free] at isVariable
      cases isVariable
    | @ofType front behind first type member tree _ longest sees found static accesses =>
      rw [← isAll, longestType_append_of_unnamed unnamed] at longest
      obtain ⟨more, rfl⟩ := longest.isPrefix
      cases more with
      | nil => exact absurd (List.append_nil front).symm longest.proper
      | cons next more =>
        have split : next :: (more ++ [name]) = first :: behind := by
          rw [List.append_assoc] at isAll
          exact List.append_cancel_left isAll
        cases split
        obtain ⟨inner, further, before, last⟩ := Catalog.accesses_append_iff.mp accesses
        exact ⟨inner, .ofType free longest sees found static before, further, last⟩
  · rintro ⟨inner, resolves, further, last⟩
    cases resolves with
    | ofVariable isVariable =>
      rw [free] at isVariable
      cases isVariable
    | @ofType front behind first type member tree _ longest sees found static accesses =>
      have all : front ++ first :: behind ++ [name] = front ++ first :: (behind ++ [name]) := by
        simp
      rw [← longestType_append_of_unnamed unnamed, all] at longest
      rw [all]
      exact .ofType free longest sees found static
        (Catalog.accesses_append_iff.mpr ⟨inner, further, accesses, last⟩)

/-- A path that does not begin with a variable goes through a static member of a type. -/
theorem bind_path_of_free (path : IsPath root expression names)
    (free : context.environment.lookup root = none) :
    bind context expression = .ok tree ↔ context.Resolves root names tree := by
  induction path generalizing tree with
  | root =>
    rw [bind]
    constructor
    · intro done
      exact absurd done (bindIdentifier_of_free free)
    · intro resolves
      generalize isAll : ([] : List String) = all at resolves
      cases resolves with
      | ofVariable isVariable =>
        rw [free] at isVariable
        cases isVariable
      | ofType => simp at isAll
  | @member target names name span path ih =>
    -- Either all that stands before the last dot names a type, or the last dot only adds a member
    -- to what the path before it resolves to.
    have same := receiverType?_of_free path free
    cases isType : context.uniqueType? (dottedName root names) with
    | some type =>
      rw [bind_member_of_type (same.trans isType),
        resolves_append_of_named free (Context.uniqueType?_eq_some_iff.mp isType)]
    | none =>
      rw [bind_member_of_value (same.trans isType),
        resolves_append_of_unnamed free (Context.uniqueType?_eq_none_iff.mp isType)]
      simp only [ih]

/-- **Paths.** A dotted path is bound to what it resolves to, and not at all if it resolves to
nothing. -/
theorem bind_eq_ok_iff_resolves (path : IsPath root expression names) :
    bind context expression = .ok tree ↔ context.Resolves root names tree := by
  cases lookup : context.environment.lookup root with
  | none => exact bind_path_of_free path lookup
  | some type =>
    rw [bind_path_of_variable path lookup]
    constructor
    · exact .ofVariable lookup
    · intro resolves
      cases resolves with
      | ofVariable isVariable accesses =>
        rw [lookup] at isVariable
        cases isVariable
        exact accesses
      | ofType free =>
        rw [lookup] at free
        cases free

end Paths

/-! ### A path through a constant -/

namespace EmptyString

/-- The core types, and the name of a namespace as a variable of type string. -/
def context (environment : Environment) : Context :=
  { catalog := .initial, environment }

/-- The constant of the core type. -/
def empty : Member :=
  { name := "Empty", declaringType := CoreType.string, type := CoreType.string
    kind := .field true, isStatic := true }

/-- The length of strings. -/
def length : Member :=
  { name := "Length", declaringType := CoreType.string, type := CoreType.int32
    kind := .property false, isStatic := false }

/-- The expression `System.String.Empty.Length`. -/
def path : Expression :=
  .member (.member (.member (.identifier "System" ⟨0, 6⟩) "String" ⟨0, 13⟩) "Empty" ⟨0, 19⟩)
    "Length" ⟨0, 26⟩

theorem isPath : IsPath "System" path ["String", "Empty", "Length"] :=
  .member (.member (.member .root))

theorem resolves :
    (context {}).Resolves "System" ["String", "Empty", "Length"]
      (.memberAccess (.staticAccess empty empty.type) length length.type) := by
  have named : (context {}).NamesOnly (dottedName "System" ["String"]) CoreType.string :=
    Context.uniqueType?_eq_some_iff.mp (by decide +kernel)
  have unnamed : ∀ type,
      ¬ (context {}).NamesOnly (dottedName "System" ["String", "Empty"]) type :=
    Context.uniqueType?_eq_none_iff.mp (by decide +kernel)
  have static : (context {}).Resolves "System" (["String"] ++ ["Empty"])
      (.staticAccess empty empty.type) :=
    (resolves_append_of_named rfl named).mpr ⟨.inl rfl, empty, by decide +kernel, rfl, rfl⟩
  exact (resolves_append_of_unnamed rfl unnamed).mpr
    ⟨_, static, length, by decide +kernel, rfl, rfl⟩

/-- The path goes through the constant. With a variable of the name of the namespace it is
another path, and the variable has no member `String`. -/
theorem bind_path :
    bind (context {}) path =
        .ok (.memberAccess (.staticAccess empty empty.type) length length.type) ∧
      ∀ tree, bind (context { innermost := [("System", CoreType.string)] }) path ≠ .ok tree := by
  refine ⟨(bind_eq_ok_iff_resolves isPath).mpr resolves, ?_⟩
  intro tree done
  have missing : (context {}).catalog.findMember? CoreType.string "String" = none := by
    decide +kernel
  cases (bind_path_of_variable isPath rfl).mp done with
  | next found => cases missing.symm.trans found

end EmptyString

end Binding

end ExprImports
