import ExprImports.Proofs.Recompilation.Replay

/-!
# Compiling for a target

A text that is compiled for a target is compiled as it stands, and its tree is converted
afterwards. So it compiles for a type exactly if it compiles to a type that is converted to
it, or to null and the type is no value type (`compileTargeted_iff`).

**Imports.** A conversion comes last in the order of visiting, and a null mentions no type.
Collecting only ever appends, so what the text needs comes first and stays in its order.
-/

set_option autoImplicit false

namespace ExprImports

/-! ## Collecting appends -/

/-- Steps that only append to the references only append one after the other. -/
theorem Closure.isPrefix_foldl {α : Type} {step : Closure → α → Closure}
    (appends : ∀ closure item, closure.references <+: (step closure item).references)
    (items : List α) (closure : Closure) :
    closure.references <+: (items.foldl step closure).references := by
  induction items generalizing closure with
  | nil => exact List.prefix_refl _
  | cons item rest ih => exact (appends closure item).trans (ih (step closure item))

section Collecting

variable (catalog : Catalog) (defaults : DefaultAssemblies)

theorem Closure.isPrefix_add (closure : Closure) (type : TypeId) (isDirect : Bool) :
    closure.references <+: (closure.add catalog defaults type isDirect).references := by
  induction measure : type.height using Nat.strongRecOn generalizing closure type isDirect with
  | _ height ih =>
      rw [Closure.add]
      split
      · exact List.prefix_refl _
      · extract_lets kept above
        have keeps : closure.references <+: kept.references := by
          unfold kept
          split
          · exact List.prefix_append _ _
          · exact List.prefix_refl _
        split
        · exact keeps
        · refine keeps.trans
            (Closure.isPrefix_foldl ?_ above ⟨kept.references, type :: kept.expanded⟩)
          intro closure parent
          split
          · rename_i older
            exact ih parent.height (measure ▸ older) closure parent false rfl
          · exact List.prefix_refl _

theorem Closure.isPrefix_addAnchors (closure : Closure) (anchors : List Anchor) :
    closure.references <+: (closure.addAnchors catalog defaults anchors).references := by
  apply Closure.isPrefix_foldl
  exact fun closure anchor => closure.isPrefix_add catalog defaults anchor.type anchor.isDirect

/-- A tree whose anchors come first among those of another one needs first what that needs. -/
theorem Tree.isPrefix_typeReferences {tree other : Tree}
    (first : tree.anchors catalog <+: other.anchors catalog) :
    tree.typeReferences catalog defaults <+: other.typeReferences catalog defaults := by
  obtain ⟨further, isAll⟩ := first
  rw [typeReferences, typeReferences, Closure.visit, Closure.visit, ← isAll, Closure.addAnchors,
    Closure.addAnchors, List.foldl_append]
  exact Closure.isPrefix_addAnchors catalog defaults _ further

end Collecting

theorem isPrefix_foldl_insertNew {α : Type} [DecidableEq α] (elements collected : List α) :
    collected <+: elements.foldl insertNew collected := by
  induction elements generalizing collected with
  | nil => exact List.prefix_refl _
  | cons element rest ih =>
      have here : collected <+: insertNew collected element := by
        unfold insertNew
        split
        · exact List.prefix_refl _
        · exact List.prefix_append _ _
      exact here.trans (ih _)

theorem isPrefix_distinct {α : Type} [DecidableEq α] {elements others : List α}
    (first : elements <+: others) : distinct elements <+: distinct others := by
  obtain ⟨further, rfl⟩ := first
  rw [distinct, distinct, List.foldl_append]
  exact isPrefix_foldl_insertNew further _

/-- The records of types that come first come first. -/
theorem ImportSettings.isPrefix_ofTypes (catalog : Catalog) {types others : List TypeId}
    (first : types <+: others) :
    (ofTypes catalog types).records <+: (ofTypes catalog others).records :=
  isPrefix_distinct (first.filterMap _)

/-! ## Converting the tree -/

/-- A conversion leaves the anchors of a tree where they are, and puts its own behind them. -/
theorem Tree.ConvertsTo.isPrefix_anchors {catalog : Catalog} {tree converted : Tree}
    {target : TypeId} (converts : tree.ConvertsTo target converted) :
    tree.anchors catalog <+: converted.anchors catalog := by
  cases converts with
  | same => exact List.prefix_refl _
  | convert => exact List.prefix_append _ _
  | null literal =>
      unfold isNull at literal
      split at literal
      · exact List.prefix_refl _
      · cases literal

namespace SurfaceCompiler

variable {catalog : Catalog} {session : Session} {environment : Environment}

/-- What is compiled without a target has the type of its tree. -/
theorem returnType_of_compileInferred {inferred : Compiled}
    (done : (compiler catalog).compileInferred session environment = .ok inferred) :
    inferred.returnType = inferred.body.type := by
  obtain ⟨_, _, _, typed⟩ :=
    Recompiler.exists_bound_of_surfaceCompile (mapError_eq_ok_iff.mp done)
  exact typed

/-- For a type of the catalog the tree is converted, and nothing else is changed. -/
theorem retarget_eq_ok_iff {inferred targeted : Compiled} {target : TypeId}
    (typed : inferred.returnType = inferred.body.type)
    (known : inferred.returnType = target ∨ catalog.has target = true) :
    retarget catalog session inferred target = .ok targeted ↔
      ∃ body, inferred.body.convert? catalog target = some body ∧
        targeted = { inferred with body, returnType := target } := by
  unfold retarget Binding.coerce
  by_cases same : inferred.returnType = target
  · have unchanged : inferred.body.convert? catalog target = some inferred.body := by
      rw [Tree.convert?, if_pos (typed.symm.trans same)]
    rw [if_pos same, unchanged]
    subst same
    constructor
    · rintro ⟨⟩
      exact ⟨_, rfl, rfl⟩
    · rintro ⟨_, ⟨⟩, rfl⟩
      rfl
  · rw [if_neg same, known.resolve_left same]
    cases converted : inferred.body.convert? catalog target with
    | none =>
        constructor
        · intro done
          cases done
        · rintro ⟨_, ⟨⟩, _⟩
    | some body =>
        have isTarget := Tree.type_of_convert? converted
        constructor
        · rintro ⟨⟩
          exact ⟨body, rfl, by rw [isTarget]⟩
        · rintro ⟨_, ⟨⟩, rfl⟩
          rw [← isTarget]
          rfl

/-- A null is compiled for an order, and for no number. -/
example :
    let null : Compiled := ⟨[], .constant .null CoreType.object, CoreType.object⟩
    (retarget Sales.catalog Sales.byFullName.session null Sales.order).isOk = true ∧
      (retarget Sales.catalog Sales.byFullName.session null CoreType.int32).isOk = false := by
  decide +kernel

theorem compileTargeted_eq_ok_iff {targeted : Compiled} {target : TypeId} :
    (compiler catalog).compileTargeted session environment target = .ok targeted ↔
      ∃ inferred, (compiler catalog).compileInferred session environment = .ok inferred ∧
        retarget catalog session inferred target = .ok targeted := by
  dsimp only [compiler]
  cases compile catalog session environment with
  | error diagnostic =>
      constructor
      · nofun
      · rintro ⟨_, ⟨⟩, _⟩
  | ok inferred =>
      refine mapError_eq_ok_iff.trans ⟨fun done => ⟨inferred, rfl, done⟩, ?_⟩
      rintro ⟨_, ⟨⟩, done⟩
      exact done

/-- **A target only asks for a conversion.** For a type of the catalog a text compiles exactly
if it compiles without a target and its tree can be used as one of the type. Both compiled
expressions have the same parameters, and they are the same if the text has that type anyway.
The imports of the text come first among those that it needs as one of the type. -/
theorem compileTargeted_iff (session : Session) (environment : Environment) {target : TypeId}
    (known : catalog.has target = true) :
    ((∃ targeted,
        (compiler catalog).compileTargeted session environment target = .ok targeted) ↔
      ∃ inferred, (compiler catalog).compileInferred session environment = .ok inferred ∧
        (inferred.body.type = target ∨
          (inferred.body.isNull = true ∧ catalog.isValueType target = false) ∨
          inferred.body.type.widensTo target = true ∨
          catalog.isAssignable inferred.body.type target = true)) ∧
    ∀ inferred targeted,
      (compiler catalog).compileInferred session environment = .ok inferred →
      (compiler catalog).compileTargeted session environment target = .ok targeted →
        targeted.parameters = inferred.parameters ∧ targeted.returnType = target ∧
        (inferred.body.type = target → targeted.body = inferred.body) ∧
        ∀ defaults,
          (ImportSettings.ofTypes catalog
              (inferred.body.typeReferences catalog defaults)).records <+:
            (ImportSettings.ofTypes catalog
              (targeted.body.typeReferences catalog defaults)).records := by
  constructor
  · constructor
    · rintro ⟨targeted, done⟩
      obtain ⟨inferred, compiles, done⟩ := compileTargeted_eq_ok_iff.mp done
      have typed := returnType_of_compileInferred compiles
      obtain ⟨body, converted, _⟩ := (retarget_eq_ok_iff typed (.inr known)).mp done
      exact ⟨inferred, compiles, Tree.exists_convert?_iff.mp ⟨body, converted⟩⟩
    · rintro ⟨inferred, compiles, usable⟩
      have typed := returnType_of_compileInferred compiles
      obtain ⟨body, converted⟩ := Tree.exists_convert?_iff.mpr usable
      exact ⟨_, compileTargeted_eq_ok_iff.mpr ⟨inferred, compiles,
        (retarget_eq_ok_iff typed (.inr known)).mpr ⟨body, converted, rfl⟩⟩⟩
  · intro inferred targeted compiles done
    obtain ⟨again, compilesAgain, done⟩ := compileTargeted_eq_ok_iff.mp done
    obtain rfl := Except.ok.inj (compiles.symm.trans compilesAgain)
    have typed := returnType_of_compileInferred compiles
    obtain ⟨body, converted, rfl⟩ := (retarget_eq_ok_iff typed (.inr known)).mp done
    refine ⟨rfl, rfl, fun same => ?_, fun defaults => ?_⟩
    · rw [Tree.convert?, if_pos same] at converted
      exact (Option.some.inj converted).symm
    · have anchors : inferred.body.anchors catalog <+: body.anchors catalog :=
        (convertsTo_of_convert? converted).isPrefix_anchors
      exact ImportSettings.isPrefix_ofTypes catalog
        (Tree.isPrefix_typeReferences catalog defaults anchors)

end SurfaceCompiler

namespace Sales

theorem compileInferred_byFullName :
    (SurfaceCompiler.compiler catalog).compileInferred byFullName.session {} =
      .ok orderCompiled := by
  have resolved : (recompiler.context byFullName).resolve fullName = .ok order :=
    Binding.Context.resolve_eq_ok_iff.mpr ⟨by decide +kernel, by decide +kernel⟩
  have bound : Binding.bind (recompiler.context byFullName) (.typeOf fullName ⟨0, 27⟩) =
      .ok orderCompiled.body := by
    rw [Binding.bind, resolved]
    rfl
  exact mapError_eq_ok_iff.mpr (Recompiler.surfaceCompile_eq_ok_iff.mpr
    ⟨_, read_byFullName, Binding.compile_of_bind bound⟩)

end Sales

/-- The type of orders is used as any other object, and what it needs itself comes first. -/
theorem byFullName_asObject :
    Sales.catalog.has CoreType.object = true ∧ ∃ targeted,
      (SurfaceCompiler.compiler Sales.catalog).compileTargeted Sales.byFullName.session {}
        CoreType.object = .ok targeted ∧ targeted.returnType = CoreType.object ∧
      Sales.orderImports.records <+: (ImportSettings.ofTypes Sales.catalog
        (targeted.body.typeReferences Sales.catalog .builtin)).records := by
  have known : Sales.catalog.has CoreType.object = true := by decide +kernel
  obtain ⟨compilesIff, agree⟩ :=
    SurfaceCompiler.compileTargeted_iff Sales.byFullName.session {} known
  have assignable :
      Sales.catalog.isAssignable Sales.orderCompiled.body.type CoreType.object = true := by
    decide +kernel
  obtain ⟨targeted, done⟩ := compilesIff.mpr
    ⟨Sales.orderCompiled, Sales.compileInferred_byFullName, .inr (.inr (.inr assignable))⟩
  obtain ⟨_, isTarget, _, first⟩ := agree _ _ Sales.compileInferred_byFullName done
  have imports : ImportSettings.ofTypes Sales.catalog
      (Sales.orderCompiled.body.typeReferences Sales.catalog .builtin) = Sales.orderImports := by
    decide +kernel
  exact ⟨known, targeted, done, isTarget, imports ▸ first .builtin⟩

end ExprImports
