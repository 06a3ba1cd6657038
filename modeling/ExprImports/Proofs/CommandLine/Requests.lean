import ExprImports.CommandLine.Report
import ExprImports.Proofs.Binding.Symmetry
import ExprImports.Proofs.Catalog.Conversions
import ExprImports.Proofs.CommandLine.Options
import ExprImports.Proofs.Recompilation.Modes
import ExprImports.Proofs.Schema.Retention

/-!
# Asking for the type that was reported

The report on an expression gives the full name of its type, and the target of the command is found
by a full name as well. But the table in which targets are looked up does not have all the names
that are printed: arrays are not entered in it, and a type is hidden in it by a later one of the
same name. So the type of an expression can be asked for by its name exactly if it is no array and
not hidden, and if the name is no short one of a core type (`Invocation.report_asking_iff`).

**Other types of the name.** It does not help if another type is found under the name. What a
declared type is converted to is older than it, and so hidden by it. What an array is converted to
is a core type, and none of these has the name of an array. And core types, as those of nulls and
numbers, are never hidden (`Schema.IsLoaded.eq_of_usable`).
-/

set_option autoImplicit false

namespace ExprImports

theorem TypeId.isCore_of_widensTo {source target : TypeId}
    (wider : source.widensTo target = true) : source.isCore = true := by
  simp only [widensTo, Bool.or_eq_true, Bool.and_eq_true, decide_eq_true_eq] at wider
  rcases wider with ⟨rfl, _⟩ | ⟨rfl, _⟩ <;> rfl

/-! ## What stands above core types and arrays -/

namespace Catalog.Built

variable {catalog : Catalog} (built : catalog.Built) {type other : TypeId}
include built

theorem isCore_of_mem_parents (core : type.isCore = true)
    (isParent : other ∈ catalog.parents type) : other.isCore = true := by
  have all : ∀ position < CoreType.count, Catalog.initial.has (.entry position) = true ∧
      (Catalog.initial.parents (.entry position)).all TypeId.isCore = true := by
    decide +kernel
  cases type with
  | null => cases core
  | entry position =>
      obtain ⟨known, areCore⟩ := all position (of_decide_eq_true core)
      rw [built.extends_initial.parents_eq known] at isParent
      exact List.all_eq_true.mp areCore other isParent

theorem isCore_of_isViewedAs (core : type.isCore = true)
    (isView : catalog.IsViewedAs type other) : other.isCore = true := by
  induction isView with
  | refl => exact core
  | tail _ isParent ih => exact built.isCore_of_mem_parents ih isParent

/-- What an array type is viewed as, other than itself, is a core type. -/
theorem eq_or_isCore_of_isArray (array : catalog.isArray type = true)
    (isView : catalog.IsViewedAs type other) : other = type ∨ other.isCore = true := by
  rcases Relation.ReflTransGen.cases_head isView with same | ⟨parent, isParent, further⟩
  · exact .inl same.symm
  · rw [built.regular.parents_of_isArray array, List.mem_singleton] at isParent
    exact .inr (built.isCore_of_isViewedAs (isParent ▸ rfl) further)

/-! ## Full names -/

theorem fullName_ne_of_isArray (array : catalog.isArray type = true) (core : other.isCore = true) :
    catalog.fullName type ≠ catalog.fullName other := by
  have all : ∀ position < CoreType.count,
      (Catalog.initial.fullName (.entry position)).toList.getLast? ≠ some ']' := by
    decide +kernel
  have unbracketed : (catalog.fullName other).toList.getLast? ≠ some ']' := by
    cases other with
    | null => cases core
    | entry position =>
        have inside : position < CoreType.count := of_decide_eq_true core
        have bounded : (TypeId.entry position).height ≤ CoreType.count := inside
        rw [built.fullName_core bounded]
        exact all position inside
  obtain ⟨element, isElement⟩ := Option.isSome_iff_exists.mp array
  obtain ⟨entry, rank, found, isKind⟩ := exists_of_element? isElement
  have close : "]".toList.getLast? = some ']' := by decide
  intro same
  refine unbracketed ?_
  rw [← same, built.ordered.fullName_array found isKind, arrayBrackets, String.toList_append,
    String.toList_append, List.getLast?_append, List.getLast?_append, close]
  rfl

theorem isArray_eq_false_of_isDeclared (declared : catalog.IsDeclared type) :
    catalog.isArray type = false := by
  rw [← Bool.not_eq_true]
  intro array
  obtain ⟨element, isElement⟩ := Option.isSome_iff_exists.mp array
  obtain ⟨entry, found, isArray⟩ := kind_of_element? isElement
  obtain ⟨known, isKnown, ⟨kind, isKind⟩ | ⟨generic, arguments, applied⟩⟩ := declared
  all_goals obtain rfl := Option.some.inj (found.symm.trans isKnown)
  · rw [isKind] at isArray
    cases isArray
  · rw [(built.regular.arrays type entry found isArray).2.2] at applied
    cases applied

end Catalog.Built

/-! ## Names that are read back -/

/-- No short name is longer than the name that it stands for. -/
theorem Binding.length_le_expandAlias (name : String) :
    name.length ≤ (expandAlias name).length := by
  have all : ∀ known ∈ aliases, known.1.length ≤ known.2.length := by decide
  unfold expandAlias
  cases found : aliases.lookup name with
  | none => exact Nat.le_refl _
  | some full => exact all (name, full) (Catalog.mem_of_lookup found)

namespace Catalog

variable {catalog : Catalog} {type other : TypeId}

/-- The full name of the type stands for the type itself, where names of targets are looked up: it
is no array, no later type bears the name, and the name is no short one. -/
structure IsRequestable (catalog : Catalog) (type : TypeId) : Prop where
  noArray : catalog.isArray type = false
  latest : ∀ other, catalog.IsDeclared other → catalog.fullName other = catalog.fullName type →
    other.height ≤ type.height
  noAlias : Binding.expandAlias (catalog.fullName type) = catalog.fullName type

/-- A name under which a type is found as a target is that of the type only if it is found as it
stands, as no namespace fits before it. -/
theorem Indexed.findType?_of_resolveName? (indexed : catalog.Indexed) {places : List String}
    (found : catalog.resolveName? (Binding.expandAlias (catalog.fullName type)) places =
      some type) :
    Binding.expandAlias (catalog.fullName type) = catalog.fullName type ∧
      catalog.findType? (catalog.fullName type) = some type := by
  rcases Option.or_eq_some_iff.mp found with here | ⟨_, further⟩
  · have same := indexed.fullName_of_findType? here
    exact ⟨same.symm, by rwa [← same] at here⟩
  · obtain ⟨place, _, there⟩ := List.exists_of_findSome?_eq_some further
    have same := indexed.fullName_of_findType? there
    have long := Binding.length_le_expandAlias (catalog.fullName type)
    have longer := congrArg String.length same
    have dot : ".".length = 1 := rfl
    rw [String.length_append, String.length_append] at longer
    omega

/-- A type that is known and not open is declared, unless it is an array. -/
theorem isDeclared_of_isOpen_eq_false (known : catalog.has type = true)
    (closed : catalog.isOpen type = false) (noArray : catalog.isArray type = false) :
    catalog.IsDeclared type := by
  obtain ⟨entry, found⟩ := Option.isSome_iff_exists.mp known
  refine ⟨entry, found, .inl ?_⟩
  cases isKind : entry.kind with
  | nominal kind => exact ⟨kind, rfl⟩
  | array element rank =>
      rw [isArray, element?, found, Option.map_some, isKind] at noArray
      cases noArray
  | parameter =>
      rw [isOpen, found] at closed
      simp only [isKind] at closed
      cases closed

/-- **A type is found by its full name exactly if it is no array and not hidden.** -/
theorem Built.findType?_fullName_iff (built : catalog.Built) (known : catalog.has type = true)
    (closed : catalog.isOpen type = false) :
    catalog.findType? (catalog.fullName type) = some type ↔
      catalog.isArray type = false ∧
        ∀ other, catalog.IsDeclared other → catalog.fullName other = catalog.fullName type →
          other.height ≤ type.height := by
  rw [built.findType?_eq_some_iff]
  constructor
  · rintro ⟨declared, _, latest⟩
    exact ⟨built.isArray_eq_false_of_isDeclared declared, latest⟩
  · rintro ⟨noArray, latest⟩
    exact ⟨isDeclared_of_isOpen_eq_false known closed noArray, rfl, latest⟩

/-- **A type is found as a target by its full name exactly if it can be requested.** -/
theorem Built.resolveName?_fullName_iff (built : catalog.Built) (known : catalog.has type = true)
    (closed : catalog.isOpen type = false) (places : List String) :
    catalog.resolveName? (Binding.expandAlias (catalog.fullName type)) places = some type ↔
      catalog.IsRequestable type := by
  constructor
  · intro found
    obtain ⟨noAlias, here⟩ := built.reached.indexed.findType?_of_resolveName? found
    obtain ⟨noArray, latest⟩ := (built.findType?_fullName_iff known closed).mp here
    exact ⟨noArray, latest, noAlias⟩
  · rintro ⟨noArray, latest, noAlias⟩
    have here := (built.findType?_fullName_iff known closed).mpr ⟨noArray, latest⟩
    rw [noAlias, resolveName?, here, Option.some_or]

end Catalog

/-! ## Other types of the same name -/

/-- **An expression cannot be used as another type that is found under the name of its type.** If
that is no core type, it would have to be viewed as the other one. -/
theorem Schema.IsLoaded.eq_of_usable {schema : Schema} (loaded : schema.IsLoaded)
    {type other : TypeId} (known : schema.catalog.has type = true)
    (closed : schema.catalog.isOpen type = false)
    (found : schema.catalog.findType? (schema.catalog.fullName type) = some other)
    (usable : type.isCore = true ∨ schema.catalog.isAssignable type other = true) :
    other = type := by
  have built := loaded.built
  obtain ⟨_, sameName, bounds⟩ := built.findType?_eq_some_iff.mp found
  rcases usable with core | assignable
  · exact Option.some.inj (found.symm.trans (loaded.findType?_fullName core))
  · rw [built.ordered.isAssignable_iff] at assignable
    cases array : schema.catalog.isArray type with
    | true =>
        have apart (core : other.isCore = true) : False :=
          built.fullName_ne_of_isArray array core sameName.symm
        rcases assignable with rfl | isView
        · exact (apart rfl).elim
        · exact (built.eq_or_isCore_of_isArray array isView).resolve_right apart
    | false =>
        have declared := Catalog.isDeclared_of_isOpen_eq_false known closed array
        have younger := bounds type declared rfl
        rcases assignable with rfl | isView
        · cases type with
          | null => cases known
          | entry position =>
              obtain rfl : position = 0 := Nat.le_zero.mp (Nat.le_of_succ_le_succ younger)
              rfl
        · exact TypeId.height_injective
            (Nat.le_antisymm (built.ordered.height_le_of_isViewedAs isView) younger)

namespace CommandLine

theorem isLoaded_of_schemaOf {documents : Documents} {schema : Schema}
    (isSchema : schemaOf documents = .ok schema) : schema.IsLoaded := by
  unfold schemaOf at isSchema
  split at isSchema
  · cases isSchema
    exact .inr rfl
  · cases isSchema
  · rename_i text _
    exact .inl ⟨text, mapError_eq_ok_iff.mp isSchema⟩

theorem targetOf_none (catalog : Catalog) {options : Options} (free : options.target = none) :
    targetOf catalog options = .ok none := by
  rw [targetOf, free]

namespace Invocation

theorem targetOf_asking_eq_ok_iff {invocation : Invocation} {catalog : Catalog} {name : String}
    {target : Option TypeId} :
    targetOf catalog (invocation.asking name).options = .ok target ↔
      ∃ type, target = some type ∧ catalog.resolveName? (Binding.expandAlias name)
        (invocation.options.namespaces ++ ["System"]) = some type := by
  dsimp only [targetOf, asking, Options.asking]
  cases catalog.resolveName? (Binding.expandAlias name)
      (invocation.options.namespaces ++ ["System"]) with
  | none => simp
  | some type => simp [eq_comm]

/-- The expression compiles to the type over the schema that the documents make. -/
structure HasType (invocation : Invocation) (documents : Documents) (schema : Schema)
    (type : TypeId) : Prop where
  isSchema : schemaOf documents = .ok schema
  compiles : ∃ compiled, SurfaceCompiler.compile schema.catalog
    (invocation.request schema.environment none).session schema.environment = .ok compiled ∧
      compiled.returnType = type

variable {invocation : Invocation} {documents : Documents} {report : Report}

/-- The recompiler over a schema under a configuration. -/
abbrev recompiler (schema : Schema) (configuration : Configuration) : Recompiler :=
  .ofCompiler (SurfaceCompiler.compiler schema.catalog) schema.catalog configuration.defaults

/-- The expression is compiled over the schema and for the target, as one of the type and with
these imports. -/
def Yields (invocation : Invocation) (schema : Schema) (configuration : Configuration)
    (target : Option TypeId) (type : TypeId) (imports : ImportSettings) : Prop :=
  ∃ node, ((recompiler schema configuration).recompile
    (invocation.request schema.environment target)).1 = .ok (.compiled type node imports)

theorem report_eq_ok_iff : invocation.report documents = .ok report ↔
    ∃ schema configuration target type, schemaOf documents = .ok schema ∧
      configurationOf documents = .ok configuration ∧
      targetOf schema.catalog invocation.options = .ok target ∧
      invocation.Yields schema configuration target type report.imports ∧
      report.typeName = schema.catalog.fullName type := by
  unfold Invocation.report
  constructor
  · intro done
    obtain ⟨schema, isSchema, done⟩ := exists_of_bind_eq_ok done
    obtain ⟨configuration, isConfiguration, done⟩ := exists_of_bind_eq_ok done
    obtain ⟨target, isTarget, done⟩ := exists_of_bind_eq_ok done
    dsimp only at done
    split at done
    · cases done
    · cases done
    · rename_i type node imports compiled
      cases done
      exact ⟨schema, configuration, target, type, isSchema, isConfiguration, isTarget,
        ⟨node, compiled⟩, rfl⟩
  · rintro ⟨schema, configuration, target, type, isSchema, isConfiguration, isTarget,
      ⟨node, compiled⟩, isName⟩
    simp only [isSchema, isConfiguration, isTarget, Bind.bind, Except.bind, compiled]
    rw [← isName]
    rfl

section Yielding

variable {schema : Schema} {configuration : Configuration} {type other : TypeId}
  {imports others : ImportSettings}

/-- What it takes for an expression to be compiled: its type is known and not open, and that of its
tree, which is the target if there is one, and it is a location where one is needed. -/
theorem yields_iff {target : Option TypeId} :
    invocation.Yields schema configuration target type imports ↔
      (schema.catalog.has type = true ∧ schema.catalog.isOpen type = false) ∧
      ∃ compiled, (recompiler schema configuration).compile
          (invocation.request schema.environment target) = .ok compiled ∧
        compiled.returnType = type ∧ target.getD type = type ∧
        ((invocation.request schema.environment target).mode = .reference →
          compiled.body.checkLocation schema.catalog = .location) ∧
        imports = .ofTypes schema.catalog
          (compiled.body.typeReferences schema.catalog configuration.defaults) := by
  have isText := FactoryRegistry.isText_text schema.catalog SurfaceCompiler.language
  have recompiles := @Recompiler.exists_recompiled_iff (recompiler schema configuration) _ _ isText
    (invocation.request schema.environment target) type imports
  refine recompiles.trans (and_congr_left fun _ => ?_)
  exact and_iff_right rfl

/-- What is compiled for a target has it as its type. -/
theorem Yields.hits (yields : invocation.Yields schema configuration (some other) type imports) :
    other = type := by
  obtain ⟨_, _, _, _, hits, _⟩ := yields_iff.mp yields
  exact hits

theorem hasType_of_yields (isSchema : schemaOf documents = .ok schema)
    (yields : invocation.Yields schema configuration none type imports) :
    invocation.HasType documents schema type := by
  obtain ⟨_, compiled, compiles, typed, _⟩ := yields_iff.mp yields
  exact ⟨isSchema, compiled, mapError_eq_ok_iff.mp compiles, typed⟩

/-- For the type that it has anyway the expression is compiled as without a target. -/
theorem Yields.again (yields : invocation.Yields schema configuration none type imports) :
    invocation.Yields schema configuration (some type) type imports := by
  have surface := Recompiler.isSurface_ofCompiler schema.catalog configuration.defaults
  obtain ⟨decided, compiled, compiles, typed, _, location, imported⟩ := yields_iff.mp yields
  refine yields_iff.mpr ⟨decided, compiled, ?_, typed, rfl, location, imported⟩
  exact Recompiler.compile_of_inferred surface compiles (.inr (congrArg some typed.symm))

/-- An expression that is compiled for a target can be used as one of it: it is null or a number,
or its type is viewed as the target. -/
theorem usable_of_yields (owned : schema.catalog.Owned)
    (yields : invocation.Yields schema configuration none type imports)
    (requested : invocation.Yields schema configuration (some other) other others) :
    other = type ∨ type.isCore = true ∨ schema.catalog.isAssignable type other = true := by
  obtain ⟨_, compiled, compiles, rfl, _⟩ := yields_iff.mp yields
  obtain ⟨⟨known, _⟩, _, targeted, _⟩ := yields_iff.mp requested
  obtain ⟨inferred, isInferred, done⟩ :=
    SurfaceCompiler.compileTargeted_eq_ok_iff.mp (mapError_eq_ok_iff.mp targeted)
  obtain rfl := Except.ok.inj (isInferred.symm.trans compiles)
  have typed := SurfaceCompiler.returnType_of_compileInferred isInferred
  obtain ⟨body, converted, _⟩ := (SurfaceCompiler.retarget_eq_ok_iff typed (.inr known)).mp done
  obtain ⟨expression, _, bound, _⟩ :=
    Recompiler.exists_bound_of_surfaceCompile (mapError_eq_ok_iff.mp isInferred)
  rw [typed]
  rcases Tree.exists_convert?_iff.mp ⟨body, converted⟩ with same | ⟨null, _⟩ | wider | assignable
  · exact .inl same.symm
  · rw [Binding.type_of_bind_null owned bound null]
    exact .inr (.inl rfl)
  · exact .inr (.inl (TypeId.isCore_of_widensTo wider))
  · exact .inr (.inr assignable)

/-- What is found as a target under the name of the type, and bears that name, is the type itself if
the expression is compiled for it. -/
theorem eq_of_requested (loaded : schema.IsLoaded)
    (yields : invocation.Yields schema configuration none type imports)
    (requested : invocation.Yields schema configuration (some other) other others)
    (sameName : schema.catalog.fullName other = schema.catalog.fullName type)
    {places : List String} (found : schema.catalog.resolveName?
      (Binding.expandAlias (schema.catalog.fullName other)) places = some other) :
    other = type := by
  obtain ⟨known, closed⟩ := (yields_iff.mp yields).1
  have stands := (loaded.built.reached.indexed.findType?_of_resolveName? found).2
  rw [sameName] at stands
  obtain same | usable := usable_of_yields loaded.built.owned yields requested
  · exact same
  · exact loaded.eq_of_usable known closed stands usable

end Yielding

/-- **A report can be asked for exactly if its type can be requested.** The name in the report of a
command without a target may be given as its target, and the command is then the same but for the
target. It gives the same report exactly if the type can be requested, and then it prints the
same. -/
theorem report_asking_iff (free : invocation.options.target = none)
    (reports : invocation.report documents = .ok report) :
    ∃ schema type, invocation.HasType documents schema type ∧
      report.typeName = schema.catalog.fullName type ∧
      (∀ arguments, ofArguments arguments = .ok invocation →
        ofArguments (("--target=" ++ report.typeName) :: arguments) =
          .ok (invocation.asking report.typeName)) ∧
      ((invocation.asking report.typeName).report documents = .ok report ↔
        schema.catalog.IsRequestable type) ∧
      (schema.catalog.IsRequestable type →
        (invocation.asking report.typeName).output documents = invocation.output documents) := by
  obtain ⟨schema, configuration, target, type, isSchema, isConfiguration, isTarget, yields,
    isName⟩ := report_eq_ok_iff.mp reports
  rw [targetOf_none schema.catalog free] at isTarget
  obtain rfl := Except.ok.inj isTarget
  have loaded := isLoaded_of_schemaOf isSchema
  obtain ⟨known, closed⟩ := (yields_iff.mp yields).1
  have again : (invocation.asking report.typeName).report documents = .ok report ↔
      schema.catalog.IsRequestable type := by
    have requestable := loaded.built.resolveName?_fullName_iff known closed
      (invocation.options.namespaces ++ ["System"])
    rw [← requestable, ← isName]
    constructor
    · intro done
      obtain ⟨_, _, target, other, sameSchema, sameConfiguration, isTarget, requested, sameName⟩ :=
        report_eq_ok_iff.mp done
      obtain rfl := Except.ok.inj (isSchema.symm.trans sameSchema)
      obtain rfl := Except.ok.inj (isConfiguration.symm.trans sameConfiguration)
      obtain ⟨asked, rfl, found⟩ := targetOf_asking_eq_ok_iff.mp isTarget
      obtain rfl : asked = other := requested.hits
      have isOther : schema.catalog.fullName asked = schema.catalog.fullName type :=
        sameName.symm.trans isName
      rw [isName, ← isOther] at found
      obtain rfl := eq_of_requested loaded yields requested isOther found
      rwa [isName]
    · intro found
      exact report_eq_ok_iff.mpr ⟨schema, configuration, some type, type, isSchema, isConfiguration,
        targetOf_asking_eq_ok_iff.mpr ⟨type, rfl, found⟩, yields.again, isName⟩
  refine ⟨schema, type, hasType_of_yields isSchema yields, isName,
    fun _ taken => ofArguments_asking taken free _, again, fun requestable => ?_⟩
  rw [output, output, again.mpr requestable, reports]
  rfl

end Invocation

/-! ## An array -/

/-- An array is made, over no schema. -/
def pair : Invocation := { expression := "new int[] { 1, 2 }" }

def pairRead : Surface.Expression :=
  .createArray ⟨"int", ⟨4, 3⟩⟩
    [.literal (.integer 1) ⟨12, 1⟩, .literal (.integer 2) ⟨15, 1⟩] ⟨0, 18⟩

/-- The type `System.Int32[]`. -/
def pairType : TypeId := .entry 24

def pairCompiled : Compiled :=
  { parameters := []
    body := .newArray .elements
      [.constant (.literal (.integer 1) CoreType.int32) CoreType.int32,
        .constant (.literal (.integer 2) CoreType.int32) CoreType.int32] pairType
    returnType := pairType }

def pairReport : Report :=
  { typeName := "System.Int32[]"
    imports := ⟨[{ assembly := coreAssemblyName, namespaceName := some "System" }]⟩ }

theorem compile_pair :
    SurfaceCompiler.compile Schema.core.catalog (pair.request {} none).session {} =
      .ok pairCompiled := by
  have isRead : SurfaceCompiler.read (pair.request {} none).session = .ok pairRead := by
    with_unfolding_all rfl
  have resolved : (SurfaceCompiler.context Schema.core.catalog (pair.request {} none).session
      {}).resolve ⟨"int", ⟨4, 3⟩⟩ = .ok CoreType.int32 :=
    Binding.Context.resolve_eq_ok_iff.mpr ⟨by decide +kernel, by decide +kernel⟩
  have array : Schema.core.catalog.findArray? CoreType.int32 1 = some pairType := by
    decide +kernel
  have bound : Binding.bind
      (SurfaceCompiler.context Schema.core.catalog (pair.request {} none).session {})
      pairRead = .ok pairCompiled.body := by
    refine Binding.bind_eq_ok_iff.mpr (.createArray resolved array ?_)
    exact .cons ⟨_, rfl, rfl⟩ (.cons ⟨_, rfl, rfl⟩ .nil)
  exact Recompiler.surfaceCompile_eq_ok_iff.mpr ⟨pairRead, isRead, Binding.compile_of_bind bound⟩

theorem report_pair : pair.report {} = .ok pairReport := by
  have known : Schema.core.catalog.has pairType = true := by decide +kernel
  have closed : Schema.core.catalog.isOpen pairType = false := by decide +kernel
  have imports : ImportSettings.ofTypes Schema.core.catalog
      (pairCompiled.body.typeReferences Schema.core.catalog .builtin) = pairReport.imports := by
    decide +kernel
  have isName : Schema.core.catalog.fullName pairType = pairReport.typeName := by decide +kernel
  refine Invocation.report_eq_ok_iff.mpr ⟨.core, {}, none, pairType, rfl, rfl, rfl, ?_, isName.symm⟩
  exact Invocation.yields_iff.mpr ⟨⟨known, closed⟩, pairCompiled,
    mapError_eq_ok_iff.mpr compile_pair, rfl, rfl, nofun, imports.symm⟩

theorem pair_not_reported_again :
    pair.options.target = none ∧ pair.report {} = .ok pairReport ∧
      (pair.asking pairReport.typeName).report {} ≠ .ok pairReport := by
  refine ⟨rfl, report_pair, ?_⟩
  obtain ⟨schema, type, ⟨isSchema, compiled, compiles, rfl⟩, _, _, again, _⟩ :=
    Invocation.report_asking_iff rfl report_pair
  obtain rfl : Schema.core = schema := Except.ok.inj isSchema
  obtain rfl := Except.ok.inj (compile_pair.symm.trans compiles)
  intro reported
  have array : Schema.core.catalog.isArray pairType = true := by decide +kernel
  have noArray := (again.mp reported).noArray
  rw [show pairCompiled.returnType = pairType from rfl, array] at noArray
  cases noArray

end CommandLine

end ExprImports
