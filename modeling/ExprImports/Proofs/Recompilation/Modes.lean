import ExprImports.Proofs.Recompilation.Contract
import ExprImports.Proofs.Recompilation.Targets

/-!
# Compiling to assign

An expression that is to be assigned to is compiled as one that is to be read, and must then
be a storage location. No conversion is one, and neither is a null. So a target has no effect
on it but to be the type that the expression has anyway (`recompile_reference_iff`).
-/

set_option autoImplicit false

namespace ExprImports

namespace SurfaceCompiler

variable {catalog : Catalog} {session : Session} {inferred targeted : Compiled} {target : TypeId}

/-- What can be assigned to after a conversion was not converted. -/
theorem eq_of_retarget (typed : inferred.returnType = inferred.body.type)
    (done : retarget catalog session inferred target = .ok targeted)
    (location : targeted.body.checkLocation catalog = .location) : targeted = inferred := by
  unfold retarget at done
  split at done
  · cases done
    rfl
  · split at done
    · cases done
    · split at done
      · cases done
      · rename_i body coerced
        cases done
        dsimp only at location
        cases Binding.convertsTo_of_coerce coerced with
        | same => rw [← typed]
        | null _ => cases location
        | convert => cases location

end SurfaceCompiler

namespace Recompiler

section Compilation

variable {recompiler : Recompiler} (surface : recompiler.IsSurface) {request : Request}
  {compiled : Compiled}
include surface

/-- What can be assigned to is what is compiled without a target. -/
theorem inferred_of_compile (done : recompiler.compile request = .ok compiled)
    (location : compiled.body.checkLocation recompiler.catalog = .location) :
    recompiler.compiler.compileInferred request.session request.environment = .ok compiled := by
  unfold compile at done
  cases isTarget : request.target with
  | none =>
      rw [isTarget] at done
      exact done
  | some target =>
      rw [isTarget, surface] at done
      obtain ⟨inferred, compiles, done⟩ :=
        SurfaceCompiler.compileTargeted_eq_ok_iff.mp (mapError_eq_ok_iff.mp done)
      have typed := SurfaceCompiler.returnType_of_compileInferred compiles
      obtain rfl := SurfaceCompiler.eq_of_retarget typed done location
      rw [surface]
      exact compiles

/-- For the type that a text has anyway it is compiled as without a target. -/
theorem compile_of_inferred
    (done : recompiler.compiler.compileInferred request.session request.environment =
      .ok compiled)
    (hits : request.target = none ∨ request.target = some compiled.returnType) :
    recompiler.compile request = .ok compiled := by
  unfold compile
  obtain isTarget | isTarget := hits
  · rw [isTarget]
    exact done
  · rw [isTarget]
    rw [surface] at done ⊢
    have kept : SurfaceCompiler.retarget recompiler.catalog request.session compiled
        compiled.returnType = .ok compiled := if_pos rfl
    exact mapError_eq_ok_iff.mpr
      (SurfaceCompiler.compileTargeted_eq_ok_iff.mpr ⟨compiled, done, kept⟩)

end Compilation

section Factories

variable {recompiler : Recompiler} {language : String} {left : FactoryRegistry}
  (isText : left.IsText recompiler.catalog language)
include isText

/-- With text factories it does not matter which of them are remembered. -/
theorem exists_recompiled_iff {request : Request} {type : TypeId} {imports : ImportSettings} :
    (∃ node, ({ recompiler with factories := left }.recompile request).1 =
        .ok (.compiled type node imports)) ↔
      (request.language = recompiler.compiler.language ∧ recompiler.catalog.has type = true ∧
        recompiler.catalog.isOpen type = false) ∧
      ∃ compiled, recompiler.compile request = .ok compiled ∧ compiled.returnType = type ∧
        request.target.getD type = type ∧
        (request.mode = .reference →
          compiled.body.checkLocation recompiler.catalog = .location) ∧
        imports = .ofTypes recompiler.catalog
          (compiled.body.typeReferences recompiler.catalog recompiler.defaults) := by
  constructor
  · rintro ⟨node, done⟩
    obtain ⟨sameLanguage, compiled, compiles, typed, hits, standing, imported, made⟩ :=
      recompile_eq_compiled_iff.mp (Prod.ext done rfl)
    obtain ⟨known, closed, _⟩ := isText.materialize_eq_ok_iff.mp (congrArg Prod.fst made)
    exact ⟨⟨sameLanguage, known, closed⟩, compiled, compiles, typed, hits,
      locationFault?_eq_none_iff.mp standing, imported⟩
  · rintro ⟨⟨sameLanguage, known, closed⟩, compiled, compiles, typed, hits, standing, imported⟩
    have made : (left.materialize recompiler.catalog type request.mode request.text).1 =
        .ok { mode := request.mode, resultType := type, language, text := request.text } :=
      isText.materialize_eq_ok_iff.mpr ⟨known, closed, rfl⟩
    have done : { recompiler with factories := left }.recompile request =
        (.ok (.compiled type { mode := request.mode, resultType := type, language
                               text := request.text } imports),
          (left.materialize recompiler.catalog type request.mode request.text).2) :=
      recompile_eq_compiled_iff.mpr ⟨sameLanguage, compiled, compiles, typed, hits,
        locationFault?_eq_none_iff.mpr standing, imported, Prod.ext made rfl⟩
    exact ⟨_, congrArg Prod.fst done⟩

end Factories

/-- **A text is assigned to as what it is.** A recompiler that started with text factories
compiles a text to be assigned to exactly if it compiles the text to be read, without a target
and with the same type and imports, if the tree is a location, and if the target is that type
where there is one. What it compiles for the target is then what it compiles without one, so
nothing is converted. This holds whatever was recompiled before. -/
theorem recompile_reference_iff {recompiler : Recompiler} (surface : recompiler.IsSurface)
    {language : String} (fresh : recompiler.factories = .text language)
    (earlier later : List Request) (request : Request) (type : TypeId)
    (imports : ImportSettings) :
    ((∃ node, ((recompiler.after earlier).recompile { request with mode := .reference }).1 =
        .ok (.compiled type node imports)) ↔
      (∃ node, ((recompiler.after later).recompile
          { request with mode := .value, target := none }).1 =
            .ok (.compiled type node imports)) ∧
        (∃ inferred, recompiler.compiler.compileInferred request.session request.environment =
            .ok inferred ∧ inferred.body.checkLocation recompiler.catalog = .location) ∧
        (request.target = none ∨ request.target = some type)) ∧
    ((∃ node, ((recompiler.after earlier).recompile { request with mode := .reference }).1 =
        .ok (.compiled type node imports)) →
      ∃ inferred, recompiler.compiler.compileInferred request.session request.environment =
          .ok inferred ∧ recompiler.compile request = .ok inferred) := by
  have isText : recompiler.factories.IsText recompiler.catalog language :=
    fresh ▸ FactoryRegistry.isText_text recompiler.catalog language
  obtain ⟨first, usedFirst, isTextFirst⟩ := isText_after isText earlier
  obtain ⟨second, usedSecond, isTextSecond⟩ := isText_after isText later
  rw [usedFirst, usedSecond, exists_recompiled_iff isTextFirst, exists_recompiled_iff isTextSecond]
  refine ⟨⟨?_, ?_⟩, ?_⟩
  · rintro ⟨decided, compiled, compiles, typed, hits, standing, imported⟩
    have location := standing rfl
    have inferred : recompiler.compiler.compileInferred request.session request.environment =
        .ok compiled := inferred_of_compile surface compiles location
    refine ⟨⟨decided, compiled, inferred, typed, rfl, nofun, imported⟩,
      ⟨compiled, inferred, location⟩, ?_⟩
    dsimp only at hits
    cases isTarget : request.target with
    | none => exact .inl rfl
    | some target =>
        rw [isTarget, Option.getD_some] at hits
        exact .inr (congrArg some hits)
  · rintro ⟨⟨decided, compiled, inferred, typed, _, _, imported⟩, ⟨_, compiles, location⟩, hits⟩
    obtain rfl := Except.ok.inj (compiles.symm.trans inferred)
    obtain rfl := typed
    refine ⟨decided, _, compile_of_inferred surface compiles hits, rfl, ?_,
      fun _ => location, imported⟩
    obtain free | isTarget := hits
    · exact congrArg (Option.getD · _) free
    · exact congrArg (Option.getD · _) isTarget
  · rintro ⟨_, compiled, compiles, _, _, standing, _⟩
    exact ⟨compiled, inferred_of_compile surface compiles (standing rfl),
      compiles⟩

end Recompiler

namespace Sales

/-- A variable by itself. -/
def total : Request :=
  { text := "total", language := SurfaceCompiler.language
    environment := { innermost := [("total", CoreType.int32)] } }

def totalCompiled : Compiled :=
  { parameters := [⟨"total", CoreType.int32⟩], body := .parameter ⟨"total", CoreType.int32⟩
    returnType := CoreType.int32 }

theorem read_total : SurfaceCompiler.read total.session = .ok (.identifier "total" ⟨0, 5⟩) := by
  with_unfolding_all rfl

theorem compileInferred_total :
    recompiler.compiler.compileInferred total.session total.environment = .ok totalCompiled := by
  have bound : Binding.bind (recompiler.context total) (.identifier "total" ⟨0, 5⟩) =
      .ok totalCompiled.body := Binding.bind_identifier ⟨0, 5⟩ rfl
  exact mapError_eq_ok_iff.mpr (Recompiler.surfaceCompile_eq_ok_iff.mpr
    ⟨_, read_total, Binding.compile_of_bind bound⟩)

/-- The node that reads the variable. -/
def totalNode : Activity :=
  { mode := .value, resultType := CoreType.int32, language := SurfaceCompiler.language
    text := total.text }

/-- The variable is read. Its type is of a default assembly, so nothing is imported. -/
theorem recompile_total : (recompiler.recompile total).1 =
    .ok (.compiled CoreType.int32 totalNode ⟨[]⟩) := by
  have imports : ImportSettings.ofTypes catalog
      (totalCompiled.body.typeReferences catalog .builtin) = ⟨[]⟩ := by decide +kernel
  have compiles : recompiler.compile total = .ok totalCompiled := compileInferred_total
  exact imports ▸ Recompiler.recompile_ofCompiler compiles rfl rfl rfl
    (by decide +kernel) (by decide +kernel)

end Sales

/-- The variable is assigned to, for its own type as the target. -/
theorem total_assigned : ∃ node,
    (Sales.recompiler.recompile
      { Sales.total with mode := .reference, target := some CoreType.int32 }).1 =
        .ok (.compiled CoreType.int32 node ⟨[]⟩) := by
  obtain ⟨assigned, _⟩ := Recompiler.recompile_reference_iff Sales.isSurface_recompiler rfl [] []
    { Sales.total with target := some CoreType.int32 } CoreType.int32 ⟨[]⟩
  exact assigned.mpr ⟨⟨_, Sales.recompile_total⟩, ⟨_, Sales.compileInferred_total, rfl⟩, .inr rfl⟩

end ExprImports
