import ExprImports.Proofs.Recompilation.Factories

/-!
# What a recompilation promises

A recompiler trusts neither its compiler nor its factories. A compiler may report what it
likes and may compile for a target to another type, and a factory may fail or build a node
that was not asked for. Whatever they do, the fault that the compiler reports decides between
a diagnostic and an error, and a compiled outcome holds together (`recompile_contract`).
-/

set_option autoImplicit false

namespace ExprImports

namespace Recompiler

variable {recompiler : Recompiler} {request : Request}

/-! ## What the compiler answers -/

/-- The compiler reports a fault: bare if it is to infer the type, and in an envelope if it
compiles for a target. -/
inductive Reports (recompiler : Recompiler) (request : Request) (fault : CompilerFault) : Prop where
  | inferred (free : request.target = none)
      (reported : recompiler.compiler.compileInferred request.session request.environment =
        .error fault)
  | targeted {target : TypeId} (isTarget : request.target = some target)
      (reported : recompiler.compiler.compileTargeted request.session request.environment target =
        .error ⟨fault⟩)

/-- The compiler compiles the text, to whatever type it says. -/
inductive Yields (recompiler : Recompiler) (request : Request) (compiled : Compiled) : Prop where
  | inferred (free : request.target = none)
      (done : recompiler.compiler.compileInferred request.session request.environment =
        .ok compiled)
  | targeted {target : TypeId} (isTarget : request.target = some target)
      (done : recompiler.compiler.compileTargeted request.session request.environment target =
        .ok compiled)

theorem compile_eq_error_iff {fault : CompilerFault} :
    recompiler.compile request = .error fault ↔ recompiler.Reports request fault := by
  unfold compile
  constructor
  · intro failed
    cases isTarget : request.target with
    | none =>
        rw [isTarget] at failed
        exact .inferred isTarget failed
    | some target =>
        rw [isTarget] at failed
        obtain ⟨envelope, answer, rfl⟩ := exists_of_mapError_eq_error failed
        exact .targeted isTarget answer
  · intro reports
    cases reports with
    | inferred free reported =>
        rw [free]
        exact reported
    | targeted isTarget reported =>
        rw [isTarget]
        dsimp only
        rw [reported]
        rfl

theorem compile_eq_yielded_iff {compiled : Compiled} :
    recompiler.compile request = .ok compiled ↔ recompiler.Yields request compiled := by
  unfold compile
  constructor
  · intro done
    cases isTarget : request.target with
    | none =>
        rw [isTarget] at done
        exact .inferred isTarget done
    | some target =>
        rw [isTarget] at done
        exact .targeted isTarget (mapError_eq_ok_iff.mp done)
  · intro yields
    cases yields with
    | inferred free done =>
        rw [free]
        exact done
    | targeted isTarget done =>
        rw [isTarget]
        exact mapError_eq_ok_iff.mpr done

/-! ## What the outcomes rest on -/

/-- What was compiled has the type that was asked for, if one was. -/
def Hits (request : Request) (compiled : Compiled) : Prop :=
  ∀ target, request.target = some target → target = compiled.returnType

theorem getD_target_eq_iff {compiled : Compiled} :
    request.target.getD compiled.returnType = compiled.returnType ↔ Hits request compiled := by
  unfold Hits
  cases request.target with
  | none => exact ⟨fun _ => nofun, fun _ => rfl⟩
  | some target => exact ⟨fun same _ isTarget => Option.some.inj isTarget ▸ same, fun h => h _ rfl⟩

/-- What a compiled outcome rests on: something of the right type was compiled that can
stand where it is to stand, the factory of the type built the node that was asked for, and
the imports are those of the types that the tree needs. -/
structure Delivers (recompiler : Recompiler) (request : Request) (compiled : Compiled)
    (type : TypeId) (node : Activity) (imports : ImportSettings) : Prop where
  yielded : recompiler.Yields request compiled
  typed : compiled.returnType = type
  hits : Hits request compiled
  standing : request.mode = .reference →
    compiled.body.checkLocation recompiler.catalog = .location
  built : ∃ factory, (recompiler.factories.resolve recompiler.catalog type).1 = .ok factory ∧
    factory.build request.mode request.text = .ok node
  nodeType : node.resultType = type
  nodeMode : node.mode = request.mode
  imported : imports = .ofTypes recompiler.catalog
    (compiled.body.typeReferences recompiler.catalog recompiler.defaults)

/-- What a diagnostic rests on: it is the one that the compiler reported, or something is to
be assigned to that is no location, and the diagnostic gives the explanation of the compiler
or else that of the tree. -/
inductive Declines (recompiler : Recompiler) (request : Request) : Diagnostic → Prop where
  | reported {diagnostic : Diagnostic} (reports : recompiler.Reports request (.source diagnostic)) :
      Declines recompiler request diagnostic
  | noLocation {compiled : Compiled} {obstacle : Option Obstacle}
      (yielded : recompiler.Yields request compiled) (hits : Hits request compiled)
      (toBeAssigned : request.mode = .reference)
      (notLocation : compiled.body.checkLocation recompiler.catalog = .notLocation obstacle) :
      Declines recompiler request (.invalidLocation request.text
        ((recompiler.compiler.explainNonLocation request.session compiled).or
          (obstacle.map (·.message recompiler.catalog))))

theorem locationFault?_eq_none_iff {compiled : Compiled} :
    recompiler.locationFault? request compiled = none ↔
      (request.mode = .reference →
        compiled.body.checkLocation recompiler.catalog = .location) := by
  unfold locationFault?
  cases request.mode <;> cases compiled.body.checkLocation recompiler.catalog <;> simp

theorem locationFault?_eq_some_iff {compiled : Compiled} {diagnostic : Diagnostic} :
    recompiler.locationFault? request compiled = some diagnostic ↔
      request.mode = .reference ∧ ∃ obstacle,
        compiled.body.checkLocation recompiler.catalog = .notLocation obstacle ∧
        .invalidLocation request.text
          ((recompiler.compiler.explainNonLocation request.session compiled).or
            (obstacle.map (·.message recompiler.catalog))) = diagnostic := by
  unfold locationFault?
  cases request.mode <;> cases compiled.body.checkLocation recompiler.catalog <;> simp

/-! ## The outcomes -/

/-- A text in another language is not looked at. -/
theorem recompile_of_language_ne (foreign : request.language ≠ recompiler.compiler.language) :
    recompiler.recompile request =
      (.error (.languageMismatch recompiler.compiler.language request.language),
        recompiler.factories) := by
  simp only [recompile, if_pos foreign]

section SameLanguage

variable (sameLanguage : request.language = recompiler.compiler.language)
include sameLanguage

theorem recompile_of_source {diagnostic : Diagnostic}
    (reports : recompiler.Reports request (.source diagnostic)) :
    recompiler.recompile request = (.ok (.failed diagnostic), recompiler.factories) := by
  simp only [recompile, sameLanguage, ne_eq, not_true_eq_false, if_false,
    compile_eq_error_iff.mpr reports]

theorem recompile_of_internal {message : String}
    (reports : recompiler.Reports request (.internal message)) :
    recompiler.recompile request = (.error (.compilerFailure message), recompiler.factories) := by
  simp only [recompile, sameLanguage, ne_eq, not_true_eq_false, if_false,
    compile_eq_error_iff.mpr reports]

theorem recompile_of_locationFault {compiled : Compiled} {diagnostic : Diagnostic}
    (yielded : recompiler.Yields request compiled) (hits : Hits request compiled)
    (declined : recompiler.locationFault? request compiled = some diagnostic) :
    recompiler.recompile request = (.ok (.failed diagnostic), recompiler.factories) := by
  simp only [recompile, sameLanguage, ne_eq, not_true_eq_false, if_false,
    compile_eq_yielded_iff.mpr yielded, getD_target_eq_iff.mpr hits, declined]

theorem recompile_of_materialize_error {compiled : Compiled} {fault : RecompileError}
    (yielded : recompiler.Yields request compiled) (hits : Hits request compiled)
    (standing : recompiler.locationFault? request compiled = none)
    (failed : (recompiler.factories.materialize recompiler.catalog compiled.returnType
      request.mode request.text).1 = .error fault) :
    (recompiler.recompile request).1 = .error fault := by
  simp only [recompile, sameLanguage, ne_eq, not_true_eq_false, if_false,
    compile_eq_yielded_iff.mpr yielded, getD_target_eq_iff.mpr hits, standing, failed]
  rfl

end SameLanguage

theorem recompile_eq_delivered_iff {type : TypeId} {node : Activity} {imports : ImportSettings} :
    (recompiler.recompile request).1 = .ok (.compiled type node imports) ↔
      request.language = recompiler.compiler.language ∧
        ∃ compiled, recompiler.Delivers request compiled type node imports := by
  constructor
  · intro done
    obtain ⟨sameLanguage, compiled, compiles, rfl, hits, standing, imported, made⟩ :=
      recompile_eq_compiled_iff.mp (Prod.ext done rfl)
    obtain ⟨factory, resolved, built, nodeType, nodeMode⟩ :=
      FactoryRegistry.materialize_eq_ok_iff.mp (congrArg Prod.fst made)
    exact ⟨sameLanguage, compiled, compile_eq_yielded_iff.mp compiles, rfl,
      getD_target_eq_iff.mp hits, locationFault?_eq_none_iff.mp standing,
      ⟨factory, resolved, built⟩, nodeType, nodeMode, imported⟩
  · rintro ⟨sameLanguage, compiled, delivers⟩
    obtain ⟨factory, resolved, built⟩ := delivers.built
    obtain rfl := delivers.typed
    have made := FactoryRegistry.materialize_eq_ok_iff.mpr
      ⟨factory, resolved, built, delivers.nodeType, delivers.nodeMode⟩
    exact congrArg Prod.fst (recompile_eq_compiled_iff.mpr ⟨sameLanguage, compiled,
      compile_eq_yielded_iff.mpr delivers.yielded, rfl, getD_target_eq_iff.mpr delivers.hits,
      locationFault?_eq_none_iff.mpr delivers.standing, delivers.imported, Prod.ext made rfl⟩)

theorem recompile_eq_failed_iff {diagnostic : Diagnostic} :
    (recompiler.recompile request).1 = .ok (.failed diagnostic) ↔
      request.language = recompiler.compiler.language ∧
        recompiler.Declines request diagnostic := by
  constructor
  · intro done
    simp only [recompile] at done
    split at done
    · cases done
    · rename_i sameLanguage
      refine ⟨not_not.mp sameLanguage, ?_⟩
      split at done
      · rename_i reported
        cases done
        exact .reported (compile_eq_error_iff.mp reported)
      · cases done
      · rename_i compiled compiles
        split at done
        · cases done
        · rename_i hits
          split at done
          · rename_i declined
            cases done
            obtain ⟨toBeAssigned, obstacle, notLocation, rfl⟩ :=
              locationFault?_eq_some_iff.mp declined
            exact .noLocation (compile_eq_yielded_iff.mp compiles)
              (getD_target_eq_iff.mp (not_not.mp hits)) toBeAssigned notLocation
          · obtain ⟨node, _, outcome⟩ := exists_of_map_eq_ok done
            cases outcome
  · rintro ⟨sameLanguage, declines⟩
    cases declines with
    | reported reports => exact congrArg Prod.fst (recompile_of_source sameLanguage reports)
    | noLocation yielded hits toBeAssigned notLocation =>
        exact congrArg Prod.fst (recompile_of_locationFault sameLanguage yielded hits
          (locationFault?_eq_some_iff.mpr ⟨toBeAssigned, _, notLocation, rfl⟩))

/-- **The contract of a recompiler**, with any compiler, factories, types and default
assemblies. A text in another language ends it. A fault of the text is the outcome, word for
word, and its type is the root type; a fault of the compiler ends it. There are no compiled
outcomes but those that hold together, and no other diagnostics but those that are reported
or that follow from assigning to what is no location. -/
theorem recompile_contract (recompiler : Recompiler) (request : Request) :
    (request.language ≠ recompiler.compiler.language →
      recompiler.recompile request =
        (.error (.languageMismatch recompiler.compiler.language request.language),
          recompiler.factories)) ∧
    (request.language = recompiler.compiler.language →
      (∀ diagnostic, recompiler.Reports request (.source diagnostic) →
        recompiler.recompile request = (.ok (.failed diagnostic), recompiler.factories) ∧
          (Outcome.failed diagnostic).resolvedType = CoreType.object) ∧
      ∀ message, recompiler.Reports request (.internal message) →
        recompiler.recompile request =
          (.error (.compilerFailure message), recompiler.factories)) ∧
    (∀ type node imports,
      (recompiler.recompile request).1 = .ok (.compiled type node imports) ↔
        request.language = recompiler.compiler.language ∧
          ∃ compiled, recompiler.Delivers request compiled type node imports) ∧
    ∀ diagnostic, (recompiler.recompile request).1 = .ok (.failed diagnostic) ↔
      request.language = recompiler.compiler.language ∧
        recompiler.Declines request diagnostic := by
  refine ⟨recompile_of_language_ne, fun sameLanguage => ⟨fun diagnostic reports => ?_, ?_⟩,
    fun type node imports => recompile_eq_delivered_iff,
    fun diagnostic => recompile_eq_failed_iff⟩
  · exact ⟨recompile_of_source sameLanguage reports, rfl⟩
  · exact fun message => recompile_of_internal sameLanguage

/-- A compiler that reports one fault, whatever it is given. -/
def reporting (fault : CompilerFault) : Recompiler :=
  .ofCompiler
    { language := "none"
      compileInferred := fun _ _ => .error fault
      compileTargeted := fun _ _ _ => .error ⟨fault⟩
      explainNonLocation := fun _ _ => none }
    .initial .builtin

/-- The fault is taken out of its envelope. -/
theorem reported_in_envelope :
    let fault : Diagnostic := { message := "unknown name", text := "x", span := some ⟨0, 1⟩ }
    let request : Request := { text := "x", language := "none", target := some CoreType.int32 }
    (reporting (.source fault)).recompile request = (.ok (.failed fault), .text "none") :=
  (((recompile_contract _ _).2.1 rfl).1 _ (.targeted rfl rfl)).1

end Recompiler

end ExprImports
