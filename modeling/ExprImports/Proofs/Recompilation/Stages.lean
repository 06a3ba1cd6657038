import ExprImports.Proofs.Binding.Contexts
import ExprImports.Proofs.Binding.Indexers
import ExprImports.Proofs.Binding.Parts
import ExprImports.SurfaceCompiler

/-!
# The stages of a recompilation that succeeds

A text that compiles has been read as an expression and bound to a tree, which is
converted afterwards if there is a target (`exists_bound_of_compile`). A recompilation has
a compiled outcome exactly if the languages agree, the text compiles to the type that was
asked for, its tree can stand where it is to stand, and the factory of the type makes a
node (`recompile_eq_compiled_iff`).

**Seeing less.** Two requests for one text and one target differ in their variables and hints
only. If the first one sees fewer types than the second one and they are alike otherwise, then
the text is compiled as in the second one, or it is reported to name a type that only the second
one sees (`compile_restricted_request`).
-/

set_option autoImplicit false

namespace ExprImports.Recompiler

open Binding

/-- The recompiler compiles the expression language over its own catalog. -/
def IsSurface (recompiler : Recompiler) : Prop :=
  recompiler.compiler = SurfaceCompiler.compiler recompiler.catalog

theorem isSurface_ofCompiler (catalog : Catalog) (defaults : DefaultAssemblies) :
    (ofCompiler (SurfaceCompiler.compiler catalog) catalog defaults).IsSurface :=
  rfl

/-- The context in which the text of a request is bound. -/
def context (recompiler : Recompiler) (request : Request) : Context :=
  SurfaceCompiler.context recompiler.catalog request.session request.environment

section Compilation

variable {catalog : Catalog} {session : Session} {environment : Environment}
  {compiled : Compiled}

/-- A text is compiled by reading it and compiling the expression that it is read as. -/
theorem surfaceCompile_eq_ok_iff :
    SurfaceCompiler.compile catalog session environment = .ok compiled ↔
      ∃ expression, SurfaceCompiler.read session = .ok expression ∧
        Binding.compile (SurfaceCompiler.context catalog session environment) expression =
          .ok compiled := by
  rw [SurfaceCompiler.compile]
  constructor
  · intro done
    obtain ⟨expression, isRead, done⟩ := exists_of_bind_eq_ok done
    exact ⟨expression, isRead, mapError_eq_ok_iff.mp done⟩
  · rintro ⟨expression, isRead, done⟩
    rw [isRead]
    exact mapError_eq_ok_iff.mpr done

theorem exists_bound_of_surfaceCompile
    (done : SurfaceCompiler.compile catalog session environment = .ok compiled) :
    ∃ expression, SurfaceCompiler.read session = .ok expression ∧
      bind (SurfaceCompiler.context catalog session environment) expression = .ok compiled.body ∧
      compiled.returnType = compiled.body.type := by
  obtain ⟨expression, isRead, done⟩ := surfaceCompile_eq_ok_iff.mp done
  obtain ⟨tree, bound, done⟩ := exists_of_bind_eq_ok done
  cases done
  exact ⟨expression, isRead, bound, rfl⟩

/-- For a target the tree is kept or converted. -/
theorem convertsTo_of_retarget {target : TypeId} {retargeted : Compiled}
    (typed : compiled.returnType = compiled.body.type)
    (done : SurfaceCompiler.retarget catalog session compiled target = .ok retargeted) :
    compiled.body.ConvertsTo target retargeted.body ∧
      retargeted.returnType = retargeted.body.type := by
  unfold SurfaceCompiler.retarget at done
  split at done
  · cases done
    exact ⟨.same, typed⟩
  · split at done
    · cases done
    · split at done
      · cases done
      · rename_i converted coerced
        cases done
        exact ⟨convertsTo_of_coerce coerced, rfl⟩

variable {recompiler : Recompiler} (surface : recompiler.IsSurface) {request : Request}
include surface

/-- Without a target a text has the type that its expression has. -/
theorem compile_eq_ok_iff (inferred : request.target = none) :
    recompiler.compile request = .ok compiled ↔
      ∃ expression, SurfaceCompiler.read request.session = .ok expression ∧
        Binding.compile (recompiler.context request) expression = .ok compiled := by
  rw [compile, inferred, surface]
  exact mapError_eq_ok_iff.trans surfaceCompile_eq_ok_iff

/-- A text that compiles has been read and bound, and its tree is then converted to the
target, if there is one. -/
theorem exists_bound_of_compile (done : recompiler.compile request = .ok compiled) :
    ∃ expression tree, SurfaceCompiler.read request.session = .ok expression ∧
      bind (recompiler.context request) expression = .ok tree ∧
      compiled.returnType = compiled.body.type ∧
      (compiled.body = tree ∨
        ∃ target, request.target = some target ∧ tree.ConvertsTo target compiled.body) := by
  rw [compile, surface] at done
  split at done
  · obtain ⟨expression, isRead, bound, typed⟩ :=
      exists_bound_of_surfaceCompile (mapError_eq_ok_iff.mp done)
    exact ⟨expression, compiled.body, isRead, bound, typed, .inl rfl⟩
  · rename_i target isTarget
    have done := mapError_eq_ok_iff.mp done
    dsimp only [SurfaceCompiler.compiler] at done
    split at done
    · cases done
    · rename_i inferred compiles
      obtain ⟨expression, isRead, bound, typed⟩ :=
        exists_bound_of_surfaceCompile (mapError_eq_ok_iff.mp compiles)
      obtain ⟨converts, typed⟩ := convertsTo_of_retarget typed (mapError_eq_ok_iff.mp done)
      exact ⟨expression, inferred.body, isRead, bound, typed, .inr ⟨target, isTarget, converts⟩⟩

/-- The tree that is compiled stands for the one that the text is bound to. -/
theorem exists_becomes_of_compile (done : recompiler.compile request = .ok compiled) :
    ∃ expression tree, SurfaceCompiler.read request.session = .ok expression ∧
      bind (recompiler.context request) expression = .ok tree ∧ tree.Becomes compiled.body := by
  obtain ⟨expression, tree, isRead, bound, _, retargeted⟩ := exists_bound_of_compile surface done
  refine ⟨expression, tree, isRead, bound, ?_⟩
  obtain same | ⟨target, _, converts⟩ := retargeted
  · exact same ▸ tree.becomes_self
  · exact ⟨target, converts⟩

/-! ## Requests that see less -/

/-- A text is compiled as it stands, and its tree is converted to the target, if there is one. -/
theorem compile_eq_of_surface (request : Request) :
    recompiler.compile request =
      ((SurfaceCompiler.compile recompiler.catalog request.session request.environment).mapError
        CompilerFault.source).bind fun compiled =>
          match request.target with
          | none => .ok compiled
          | some target =>
            SurfaceCompiler.retarget recompiler.catalog request.session compiled target := by
  rw [compile, surface]
  cases request.target with
  | none =>
      dsimp only [SurfaceCompiler.compiler]
      cases SurfaceCompiler.compile recompiler.catalog request.session request.environment <;> rfl
  | some target =>
      dsimp only [SurfaceCompiler.compiler]
      cases SurfaceCompiler.compile recompiler.catalog request.session request.environment with
      | error diagnostic => rfl
      | ok compiled =>
          dsimp only [Except.mapError, Except.bind]
          cases SurfaceCompiler.retarget recompiler.catalog request.session compiled target <;> rfl

/-- **A request that sees less gets the same, or a report on what it does not see.** -/
theorem compile_restricted_request (request : Request) (environment : Environment)
    (hints : ImportHints)
    (narrows : ∀ expression, SurfaceCompiler.read request.session = .ok expression →
      (recompiler.context { request with environment, hints }).Narrows
        (recompiler.context request) expression.identifiers) :
    recompiler.compile { request with environment, hints } = recompiler.compile request ∨
      ∃ expression fault, SurfaceCompiler.read request.session = .ok expression ∧
        (recompiler.context { request with environment, hints }).Hides
          (recompiler.context request) expression fault ∧
        recompiler.compile { request with environment, hints } = .error (.source
          (SurfaceCompiler.bindingDiagnostic recompiler.catalog request.session fault)) := by
  have sameText : SurfaceCompiler.read ({ request with environment, hints } : Request).session =
      SurfaceCompiler.read request.session := rfl
  rw [compile_eq_of_surface surface, compile_eq_of_surface surface, SurfaceCompiler.compile,
    SurfaceCompiler.compile, sameText]
  cases isRead : SurfaceCompiler.read request.session with
  | error diagnostic => exact .inl rfl
  | ok expression =>
      obtain same | ⟨fault, hides, stops⟩ :=
        (Binding.compile_restricted (narrows expression isRead)).eq_or_error
      · left
        simp only [context] at same
        simp only [Bind.bind, Except.bind, same]
        rfl
      · refine .inr ⟨expression, fault, rfl, hides, ?_⟩
        simp only [context] at stops
        simp only [Bind.bind, Except.bind, stops]
        rfl

end Compilation

/-! ## Outcomes -/

section Outcomes

variable {recompiler : Recompiler} {request : Request} {type : TypeId} {node : Activity}
  {imports : ImportSettings} {registry : FactoryRegistry}

/-- What it takes for a recompilation to have a compiled outcome. -/
theorem recompile_eq_compiled_iff :
    recompiler.recompile request = (.ok (.compiled type node imports), registry) ↔
      request.language = recompiler.compiler.language ∧
        ∃ compiled, recompiler.compile request = .ok compiled ∧
          compiled.returnType = type ∧ request.target.getD type = type ∧
          recompiler.locationFault? request compiled = none ∧
          imports = .ofTypes recompiler.catalog
            (compiled.body.typeReferences recompiler.catalog recompiler.defaults) ∧
          recompiler.factories.materialize recompiler.catalog type request.mode request.text =
            (.ok node, registry) := by
  constructor
  · intro done
    simp only [recompile] at done
    split at done
    · cases done
    · rename_i sameLanguage
      split at done
      · cases done
      · cases done
      · rename_i compiled compiles
        split at done
        · cases done
        · rename_i hits
          split at done
          · cases done
          · rename_i standing
            obtain ⟨made, same⟩ := Prod.mk.inj done
            obtain ⟨made, isNode, outcome⟩ := exists_of_map_eq_ok made
            obtain ⟨rfl, rfl, rfl⟩ := Outcome.compiled.inj outcome
            have hits := not_not.mp hits
            refine ⟨not_not.mp sameLanguage, compiled, compiles, hits.symm, ?_, standing, rfl, ?_⟩
            · rw [hits, hits]
            · exact Prod.ext isNode same
  · rintro ⟨sameLanguage, compiled, compiles, rfl, hits, standing, rfl, made⟩
    simp only [recompile, sameLanguage, compiles, hits, standing, made, ne_eq, not_true_eq_false,
      if_false]
    rfl

end Outcomes

/-- A registry of text factories makes a node for every type that is not open. -/
theorem materialize_text {catalog : Catalog} {type : TypeId} (known : catalog.has type = true)
    (closed : catalog.isOpen type = false) (language : String) (mode : Mode) (text : String) :
    ((FactoryRegistry.text language).materialize catalog type mode text).1 =
      .ok { mode, resultType := type, language, text } := by
  have made : (FactoryRegistry.text language).origin catalog type =
      .made (.text type language) := by
    simp [FactoryRegistry.origin, FactoryRegistry.text, known, closed]
  simp [FactoryRegistry.materialize, FactoryRegistry.resolve, made, Factory.text, Except.bind,
    FactoryRegistry.checkNode]

/-- A text that compiles to be read, and whose type is not open, becomes a text node. -/
theorem recompile_ofCompiler {compiler : Compiler} {catalog : Catalog}
    {defaults : DefaultAssemblies} {request : Request} {compiled : Compiled}
    (compiles : (ofCompiler compiler catalog defaults).compile request = .ok compiled)
    (sameLanguage : request.language = compiler.language) (toBeRead : request.mode = .value)
    (inferred : request.target = none) (known : catalog.has compiled.returnType = true)
    (closed : catalog.isOpen compiled.returnType = false) :
    ((ofCompiler compiler catalog defaults).recompile request).1 =
      .ok (.compiled compiled.returnType
        { mode := .value, resultType := compiled.returnType, language := compiler.language
          text := request.text }
        (.ofTypes catalog (compiled.body.typeReferences catalog defaults))) := by
  have made := materialize_text known closed compiler.language .value request.text
  refine congrArg Prod.fst (recompile_eq_compiled_iff.mpr ⟨sameLanguage, compiled, compiles, rfl,
    by rw [inferred]; rfl, by rw [locationFault?, toBeRead], rfl, Prod.ext ?_ rfl⟩)
  rw [toBeRead]
  exact made

end ExprImports.Recompiler

/-! ## A small recompiler -/

namespace ExprImports.Sales

def entity : TypeId := .entry 16

/-- The class `Contoso.Core.Order`. -/
def coreOrder : TypeId := .entry 17

/-- The class `Contoso.Sales.Order`. -/
def order : TypeId := .entry 18

/-- Two assemblies, each with a class `Order`. That of `Contoso.Sales` is an entity, and is
created from one of `Contoso.Core`. All entities are counted. -/
def catalog : Catalog :=
  let core := (Catalog.initial.defineAssembly { name := "Contoso.Core" } false).2
  let assembled := (core.defineAssembly { name := "Contoso.Sales" } false).2
  let declare (name namespaceName : String) (assembly : Nat) (base : TypeId) : TypeDeclaration :=
    { name, namespaceName, assembly := .entry assembly, kind := .classType, base := some base }
  let entities := (assembled.define (declare "Entity" "Contoso.Core" 1 CoreType.object)).2
  let records := (entities.define (declare "Order" "Contoso.Core" 1 CoreType.object)).2
  let orders := (records.define (declare "Order" "Contoso.Sales" 2 entity)).2
  let counted := orders.addMember entity "Count" CoreType.int32 (.property false) true
  counted.addConstructor order [coreOrder]

theorem built_catalog : catalog.Built := by
  refine .addConstructor (.addMember (.define (.define (.define (.defineAssembly
    (.defineAssembly .initial _ _) _ _) _ ?_) _ ?_) _ ?_) _ _ _ _ _) _ _
  all_goals decide +kernel

/-- The recompiler over the catalog, with the usual default assemblies. -/
def recompiler : Recompiler :=
  .ofCompiler (SurfaceCompiler.compiler catalog) catalog .builtin

theorem isSurface_recompiler : recompiler.IsSurface :=
  Recompiler.isSurface_ofCompiler catalog .builtin

end ExprImports.Sales
