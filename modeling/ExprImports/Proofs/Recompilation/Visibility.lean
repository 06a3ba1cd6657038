import ExprImports.Proofs.Recompilation.Targets

/-!
# Hinted assemblies only filter

Hints on assemblies say which types may be named, and nothing else. A text that is compiled
under some such hints gets what it gets without them, or it is reported to name a type of
another assembly. It compiles exactly if it does without them and all types that it names may be
named, so with more hinted assemblies it compiles to the same (`compile_hinting`).

**What is named.** Only the parts of a text that are evaluated are looked at: a path that stands
for a type before a dot names that type, and its own parts name nothing (`Recompiler.Names`).
-/

set_option autoImplicit false

namespace ExprImports

/-- The type is defined in the core assembly or in one with the simple name of a listed one, or
nothing is known of the assembly that defines it. -/
def Catalog.BelongsTo (catalog : Catalog) (assemblies : List AssemblyName) (type : TypeId) : Prop :=
  ∀ assembly, catalog.assemblyOf? type = some assembly →
    assembly.name.name = coreAssemblyName ∨ ∃ hint ∈ assemblies, hint.name = assembly.name.name

/-- The request under hints on these assemblies instead of its own. -/
def Request.hinting (request : Request) (assemblies : List AssemblyName) : Request :=
  { request with hints := { request.hints with assemblies } }

namespace Recompiler

open Binding

/-- The text names the type in a part that is evaluated. -/
def Names (recompiler : Recompiler) (request : Request) (type : TypeId) : Prop :=
  ∃ expression part, SurfaceCompiler.read request.session = .ok expression ∧
    (recompiler.context request).Evaluates part expression ∧
    (recompiler.context request).namedBy? part = some type

end Recompiler

namespace Binding

open Surface

/-- What is evaluated depends on the parts of expressions only. -/
theorem Context.Evaluates.of_valueParts {context other : Context}
    (same : ∀ expression, context.valueParts expression = other.valueParts expression)
    {part whole : Expression} (evaluates : context.Evaluates part whole) :
    other.Evaluates part whole := by
  induction evaluates with
  | root => exact .root
  | inPart isPart _ inside => exact .inPart (same _ ▸ isPart) inside

/-- The assembly that is missing is the one that defines the type, and it is not hinted. -/
theorem Context.assemblyOf?_of_missingAssembly? {context : Context} {type : TypeId}
    {simpleName : String} (missing : context.missingAssembly? type = some simpleName) :
    ∃ assembly, context.catalog.assemblyOf? type = some assembly ∧
      assembly.name.name = simpleName ∧
      ¬ context.catalog.BelongsTo context.assemblies type := by
  have hidden : ¬ context.Sees type := by
    rw [← Context.missingAssembly?_eq_none_iff, missing]
    exact Option.some_ne_none _
  unfold Context.missingAssembly? at missing
  split at missing
  · cases missing
  · split at missing
    · cases missing
    · rename_i assembly isDefining
      dsimp only at missing
      split at missing
      · cases missing
      · cases missing
        exact ⟨assembly, isDefining, rfl, fun belongs => hidden (.inr belongs)⟩

end Binding

namespace Recompiler

open Binding

variable {recompiler : Recompiler} {request : Request} {assemblies others : List AssemblyName}
  {type : TypeId}

/-- What a text names does not depend on the hinted assemblies. -/
theorem names_hinting (named : recompiler.Names (request.hinting assemblies) type) :
    recompiler.Names (request.hinting others) type := by
  obtain ⟨expression, part, isRead, evaluates, isNamed⟩ := named
  have same (whole : Surface.Expression) :
      (recompiler.context (request.hinting assemblies)).valueParts whole =
        (recompiler.context (request.hinting others)).valueParts whole := by
    cases whole <;> rfl
  exact ⟨expression, part, isRead, evaluates.of_valueParts same, isNamed⟩

/-- Under hints that name fewer assemblies a text gets the same, or it is reported to name a type
of another assembly. -/
theorem compile_hinting_cases (surface : recompiler.IsSurface) (request : Request)
    (assemblies others : List AssemblyName)
    (sees : ∀ type, (recompiler.context (request.hinting assemblies)).Sees type →
      (recompiler.context (request.hinting others)).Sees type) :
    recompiler.compile (request.hinting assemblies) =
        recompiler.compile (request.hinting others) ∨
      ∃ type assembly span, recompiler.Names request type ∧
        recompiler.catalog.assemblyOf? type = some assembly ∧
        ¬ recompiler.catalog.BelongsTo assemblies type ∧
        recompiler.compile (request.hinting assemblies) = .error (.source
          (SurfaceCompiler.bindingDiagnostic recompiler.catalog request.session
            ⟨.assemblyNotReferenced type assembly.name.name, span⟩)) := by
  obtain same | ⟨expression, fault, isRead, hides, reported⟩ :=
    compile_restricted_request surface (request.hinting others) request.environment
      (request.hinting assemblies).hints fun expression isRead =>
        { catalog := rfl
          candidates := fun name => rfl
          lookups := fun name isMentioned => rfl
          sees := sees }
  · exact .inl same
  · cases hides with
    | intro span evaluates isNamed hidden only =>
        obtain ⟨assembly, isDefining, rfl, foreign⟩ := Context.assemblyOf?_of_missingAssembly? hidden
        exact .inr ⟨_, assembly, span, names_hinting ⟨expression, _, isRead, evaluates, isNamed⟩,
          isDefining, foreign, reported⟩

/-- In a text that compiles under hints all that is named belongs to the hinted assemblies. -/
theorem belongsTo_of_compile (surface : recompiler.IsSurface) (hinted : assemblies ≠ [])
    {compiled : Compiled} (done : recompiler.compile (request.hinting assemblies) = .ok compiled)
    (named : recompiler.Names request type) : recompiler.catalog.BelongsTo assemblies type := by
  obtain ⟨expression, tree, isRead, bound, _⟩ := exists_bound_of_compile surface done
  have namedAgain : recompiler.Names (request.hinting assemblies) type := names_hinting named
  obtain ⟨whole, part, isReadAgain, evaluates, isNamed⟩ := namedAgain
  obtain rfl := Except.ok.inj (isRead.symm.trans isReadAgain)
  obtain noHints | belongs := sees_of_evaluates evaluates bound isNamed
  · exact absurd noHints hinted
  · exact belongs

/-- **Hinted assemblies only filter.** Under some hinted assemblies a text gets what it gets
without any, or it is reported to name a type of another assembly. It compiles exactly if it
does without hinted assemblies and all that it names belongs to them. What compiles under few of
them compiles to the same under many. -/
theorem compile_hinting (surface : recompiler.IsSurface) (request : Request)
    {few many : List AssemblyName} (hinted : few ≠ [])
    (inside : ∀ hint ∈ few, ∃ other ∈ many, other.name = hint.name) :
    (recompiler.compile (request.hinting few) = recompiler.compile (request.hinting []) ∨
      ∃ type assembly span, recompiler.Names request type ∧
        recompiler.catalog.assemblyOf? type = some assembly ∧
        ¬ recompiler.catalog.BelongsTo few type ∧
        recompiler.compile (request.hinting few) = .error (.source
          (SurfaceCompiler.bindingDiagnostic recompiler.catalog request.session
            ⟨.assemblyNotReferenced type assembly.name.name, span⟩))) ∧
    ((∃ compiled, recompiler.compile (request.hinting few) = .ok compiled) ↔
      (∃ compiled, recompiler.compile (request.hinting []) = .ok compiled) ∧
        ∀ type, recompiler.Names request type → recompiler.catalog.BelongsTo few type) ∧
    ∀ compiled, recompiler.compile (request.hinting few) = .ok compiled →
      recompiler.compile (request.hinting many) = .ok compiled := by
  have fromNone := compile_hinting_cases surface request few [] fun type seen => .inl rfl
  refine ⟨fromNone, ⟨?_, ?_⟩, ?_⟩
  · rintro ⟨compiled, done⟩
    refine ⟨?_, fun type named => belongsTo_of_compile surface hinted done named⟩
    obtain same | ⟨type, assembly, span, named, isDefining, foreign, reported⟩ := fromNone
    · exact ⟨compiled, same ▸ done⟩
    · exact absurd (belongsTo_of_compile surface hinted done named) foreign
  · rintro ⟨⟨compiled, done⟩, allBelong⟩
    obtain same | ⟨type, assembly, span, named, isDefining, foreign, reported⟩ := fromNone
    · exact ⟨compiled, same.trans done⟩
    · exact absurd (allBelong type named) foreign
  · intro compiled done
    have sees (type : TypeId)
        (seen : (recompiler.context (request.hinting few)).Sees type) :
        (recompiler.context (request.hinting many)).Sees type := by
      refine .inr fun assembly isDefining => ?_
      obtain isCore | ⟨hint, isHint, same⟩ := (seen.resolve_left hinted) assembly isDefining
      · exact .inl isCore
      · obtain ⟨other, isOther, alike⟩ := inside hint isHint
        exact .inr ⟨other, isOther, alike.trans same⟩
    obtain same | ⟨type, assembly, span, named, isDefining, foreign, reported⟩ :=
      compile_hinting_cases surface request few many sees
    · exact same.symm.trans done
    · exact absurd (belongsTo_of_compile surface hinted done named) foreign

end Recompiler

namespace Sales

def salesAssembly : AssemblyName := { name := "Contoso.Sales" }

/-- An assembly that defines no type. -/
def otherAssembly : AssemblyName := { name := "Fabrikam" }

theorem uniqueType?_fullName :
    (recompiler.context byFullName).uniqueType? fullName.name = some order := by
  decide +kernel

theorem names_byFullName_iff {type : TypeId} :
    recompiler.Names byFullName type ↔ type = order := by
  constructor
  · rintro ⟨expression, part, isRead, evaluates, isNamed⟩
    obtain rfl := Except.ok.inj (read_byFullName.symm.trans isRead)
    cases evaluates with
    | root => exact Option.some.inj (isNamed.symm.trans uniqueType?_fullName)
    | inPart isPart inside => cases isPart
  · rintro rfl
    exact ⟨_, _, read_byFullName, .root, uniqueType?_fullName⟩

theorem assemblyOf?_order : catalog.assemblyOf? order = some ⟨salesAssembly, false⟩ := by
  decide +kernel

/-- The type of orders compiles alike under the hint on its assembly and under further ones, but
not under hints on other assemblies only. -/
theorem byFullName_hinting :
    recompiler.compile (byFullName.hinting [salesAssembly]) = .ok orderCompiled ∧
    recompiler.compile (byFullName.hinting [otherAssembly, salesAssembly]) = .ok orderCompiled ∧
    ¬ ∃ compiled, recompiler.compile (byFullName.hinting [otherAssembly]) = .ok compiled := by
  have unhinted : recompiler.compile (byFullName.hinting []) = .ok orderCompiled :=
    compileInferred_byFullName
  have belongs (type : TypeId) (named : recompiler.Names byFullName type) :
      recompiler.catalog.BelongsTo [salesAssembly] type := by
    obtain rfl := names_byFullName_iff.mp named
    intro assembly isDefining
    obtain rfl := Option.some.inj (assemblyOf?_order.symm.trans isDefining)
    exact .inr ⟨salesAssembly, List.mem_cons_self, rfl⟩
  have inside : ∀ hint ∈ [salesAssembly], ∃ other ∈ [otherAssembly, salesAssembly],
      other.name = hint.name := by decide
  have itself : ∀ hint ∈ [otherAssembly], ∃ other ∈ [otherAssembly], other.name = hint.name := by
    decide
  obtain ⟨kept, _, further⟩ :=
    Recompiler.compile_hinting isSurface_recompiler byFullName (by decide) inside
  obtain ⟨_, compilesIff, _⟩ :=
    Recompiler.compile_hinting isSurface_recompiler byFullName (by decide) itself
  have done : recompiler.compile (byFullName.hinting [salesAssembly]) = .ok orderCompiled := by
    obtain same | ⟨type, assembly, span, named, isDefining, foreign, reported⟩ := kept
    · exact same.trans unhinted
    · exact absurd (belongs type named) foreign
  refine ⟨done, further _ done, fun compiles => ?_⟩
  have belongs := (compilesIff.mp compiles).2 order (names_byFullName_iff.mpr rfl)
  exact absurd (belongs _ assemblyOf?_order) (by decide)

end Sales

end ExprImports
