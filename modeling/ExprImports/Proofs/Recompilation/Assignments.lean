import ExprImports.Proofs.Locations
import ExprImports.Proofs.Recompilation.Imports
import ExprImports.Proofs.Recompilation.Modes

/-!
# What is assigned to

An assignment has a meaning if its target and its value have one and the value can be converted to
the type of the target (`bind_assign_eq_ok_iff`). Nobody asks whether the target is a location. The
only check is that of a whole tree that is to stand as a reference, and it sees the outermost node.

Every assignment in a compiled text is one that an evaluated part of the text writes, to the tree of
the target that is written there, and no such part is lost. So a compiled text assigns to locations
only exactly if it is written so (`assignsLocations_iff`).
-/

set_option autoImplicit false

namespace ExprImports

/-- Every assignment in the tree has a target that the check for locations accepts. -/
def Tree.AssignsLocations (catalog : Catalog) (tree : Tree) : Prop :=
  ∀ target value type, (Tree.assign target value type).Occurs tree → target.IsLocation catalog

namespace Binding

open Surface

variable {context : Context}

/-- In the parts of the expression that are evaluated, what is written before `=` has the tree of a
location. -/
def Context.AssignsLocations (context : Context) (expression : Expression) : Prop :=
  ∀ target value span place, context.Evaluates (.assign target value span) expression →
    bind context target = .ok place → place.IsLocation context.catalog

/-! ## One assignment -/

/-- **What an assignment needs.** Nothing is asked of the target but that it has a meaning. -/
theorem bind_assign_eq_ok_iff {target value : Expression} {span : Span} {tree : Tree} :
    bind context (.assign target value span) = .ok tree ↔
      ∃ place given converted, bind context target = .ok place ∧ bind context value = .ok given ∧
        given.convert? context.catalog place.type = some converted ∧
          tree = .assign place converted place.type := by
  rw [bind_eq_ok_iff]
  constructor
  · intro binds
    cases binds with
    | assign boundTarget boundValue fits =>
        exact ⟨_, _, _, boundTarget, boundValue, coerce_eq_ok_iff.mp fits, rfl⟩
  · rintro ⟨place, given, converted, boundTarget, boundValue, converts, rfl⟩
    exact .assign boundTarget boundValue (coerce_eq_ok_iff.mpr converts)

/-- Only an assignment is bound to an assignment. -/
theorem exists_assign_of_bind (owned : context.catalog.Owned) {part : Expression}
    {place assigned : Tree} {type : TypeId}
    (done : bind context part = .ok (.assign place assigned type)) :
    type = place.type ∧ ∃ target value span, part = .assign target value span ∧
      bind context target = .ok place := by
  obtain ⟨parts, boundParts, assembles⟩ := exists_assembles owned done
  generalize isTree : Tree.assign place assigned type = tree at assembles
  cases assembles with
  | literal value span => cases value <;> cases isTree
  | assign span converts =>
      cases isTree
      obtain ⟨boundTarget, _⟩ := List.forall₂_cons.mp boundParts
      exact ⟨rfl, _, _, span, rfl, boundTarget⟩
  | _ => cases isTree

/-! ## All assignments -/

section Whole

variable (owned : context.catalog.Owned) {expression : Expression} {tree result : Tree}
  (done : bind context expression = .ok tree) (becomes : tree.Becomes result)
include owned done becomes

/-- No assignment is put in: each one comes from an assignment that is evaluated. -/
theorem exists_assign_of_occurs {place assigned : Tree} {type : TypeId}
    (occurs : (Tree.assign place assigned type).Occurs result) :
    type = place.type ∧ ∃ target value span,
      context.Evaluates (.assign target value span) expression ∧
        bind context target = .ok place := by
  have noConversion : ¬ IsConversion (.assign place assigned type) := by
    intro isConversion
    cases isConversion
  have inTree := (occurs_or_isConversion_of_becomes becomes occurs).resolve_right noConversion
  obtain ⟨part, evaluates, boundPart⟩ :=
    (origin_of_occurs owned done inTree).resolve_right noConversion
  obtain ⟨typed, target, value, span, rfl, boundTarget⟩ := exists_assign_of_bind owned boundPart
  exact ⟨typed, target, value, span, evaluates, boundTarget⟩

/-- No assignment is lost: one that is evaluated stands in the tree, with the tree of its target. -/
theorem exists_occurs_of_assign {target value : Expression} {span : Span}
    (evaluates : context.Evaluates (.assign target value span) expression) :
    ∃ place assigned, bind context target = .ok place ∧
      (Tree.assign place assigned place.type).Occurs result := by
  obtain ⟨partTree, boundPart, remains⟩ := exists_of_evaluates owned evaluates done
  obtain ⟨place, given, converted, boundTarget, _, _, rfl⟩ := bind_assign_eq_ok_iff.mp boundPart
  obtain ⟨type, converts⟩ := becomes
  obtain occurs | isNull := remains.trans (Tree.remains_of_convertsTo converts)
  · exact ⟨place, converted, boundTarget, occurs⟩
  · cases isNull

theorem assignsLocations_iff_of_bind :
    result.AssignsLocations context.catalog ↔ context.AssignsLocations expression := by
  constructor
  · intro assigns target value span place evaluates boundTarget
    obtain ⟨bound, assigned, boundAgain, occurs⟩ :=
      exists_occurs_of_assign owned done becomes evaluates
    obtain rfl := Except.ok.inj (boundTarget.symm.trans boundAgain)
    exact assigns place assigned _ occurs
  · intro written place assigned type occurs
    obtain ⟨_, target, value, span, evaluates, boundTarget⟩ :=
      exists_assign_of_occurs owned done becomes occurs
    exact written target value span place evaluates boundTarget

end Whole

end Binding

/-! ## Compiled texts -/

namespace Recompiler

open Binding

/-- **A text assigns to what is written before `=`.** The assignments in a compiled text, in either
mode, are those that evaluated parts of the text write: none is put in, and none is lost. So all of
them have locations as their targets exactly if the text is written so. Only of a whole tree that is
to stand as a reference is a location asked, and if that tree is an assignment then its target is
one. -/
theorem assignsLocations_iff {recompiler : Recompiler} (surface : recompiler.IsSurface)
    (reached : recompiler.catalog.Reached) {request : Request} {compiled : Compiled}
    (done : recompiler.compile request = .ok compiled) :
    ∃ expression, SurfaceCompiler.read request.session = .ok expression ∧
      (∀ place assigned type, (Tree.assign place assigned type).Occurs compiled.body →
        type = place.type ∧ ∃ target value span,
          (recompiler.context request).Evaluates (.assign target value span) expression ∧
            Binding.bind (recompiler.context request) target = .ok place) ∧
      (∀ target value span,
        (recompiler.context request).Evaluates (.assign target value span) expression →
          ∃ place assigned, Binding.bind (recompiler.context request) target = .ok place ∧
            (Tree.assign place assigned place.type).Occurs compiled.body) ∧
      (compiled.body.AssignsLocations recompiler.catalog ↔
        (recompiler.context request).AssignsLocations expression) ∧
      (request.mode = .reference → recompiler.locationFault? request compiled = none →
        ∀ place assigned type, compiled.body = .assign place assigned type →
          place.IsLocation recompiler.catalog) := by
  obtain ⟨expression, tree, isRead, bound, becomes⟩ := exists_becomes_of_compile surface done
  have owned : (recompiler.context request).catalog.Owned := reached.owned
  refine ⟨expression, isRead, fun _ _ _ => exists_assign_of_occurs owned bound becomes,
    fun _ _ _ => exists_occurs_of_assign owned bound becomes,
    assignsLocations_iff_of_bind owned bound becomes, ?_⟩
  intro toBeAssigned accepted place assigned type isAssignment
  have location := locationFault?_eq_none_iff.mp accepted toBeAssigned
  rw [isAssignment, Tree.checkLocation] at location
  exact location

end Recompiler

namespace Sales

open Binding Surface

/-- The literal one is assigned to. -/
def oneAssigned : Request :=
  { text := "1 = 2", language := SurfaceCompiler.language }

def oneAssignedRead : Expression :=
  .assign (.literal (.integer 1) ⟨0, 1⟩) (.literal (.integer 2) ⟨4, 1⟩) ⟨0, 5⟩

def oneAssignedCompiled : Compiled :=
  { parameters := []
    body := .assign (literalTree (.integer 1)) (literalTree (.integer 2)) CoreType.int32
    returnType := CoreType.int32 }

theorem compile_oneAssigned : recompiler.compile oneAssigned = .ok oneAssignedCompiled := by
  have isRead : SurfaceCompiler.read oneAssigned.session = .ok oneAssignedRead := by
    with_unfolding_all rfl
  have bound : Binding.bind (recompiler.context oneAssigned) oneAssignedRead =
      .ok oneAssignedCompiled.body :=
    bind_assign_eq_ok_iff.mpr ⟨_, _, _, rfl, rfl, rfl, rfl⟩
  exact (Recompiler.compile_eq_ok_iff isSurface_recompiler rfl).mpr
    ⟨oneAssignedRead, isRead, compile_of_bind bound⟩

/-- The node that assigns to one. -/
def oneAssignedNode : Activity :=
  { mode := .value, resultType := CoreType.int32, language := SurfaceCompiler.language
    text := oneAssigned.text }

/-- The record of the integers. -/
def oneAssignedImports : ImportSettings :=
  ⟨[⟨coreAssemblyName, some "System"⟩]⟩

theorem recompile_oneAssigned : (recompiler.recompile oneAssigned).1 =
    .ok (.compiled CoreType.int32 oneAssignedNode oneAssignedImports) := by
  have imports : ImportSettings.ofTypes catalog
      (oneAssignedCompiled.body.typeReferences catalog .builtin) = oneAssignedImports := by
    decide +kernel
  exact imports ▸ Recompiler.recompile_ofCompiler compile_oneAssigned rfl rfl rfl
    (by decide +kernel) (by decide +kernel)

end Sales

/-- As a value the assignment to a constant is compiled, and as a reference it is refused. -/
theorem one_not_assignsLocations :
    (Sales.recompiler.recompile Sales.oneAssigned).1 =
        .ok (.compiled CoreType.int32 Sales.oneAssignedNode Sales.oneAssignedImports) ∧
      ¬ Sales.oneAssignedCompiled.body.AssignsLocations Sales.catalog ∧
        (∃ expression, SurfaceCompiler.read Sales.oneAssigned.session = .ok expression ∧
          ¬ (Sales.recompiler.context Sales.oneAssigned).AssignsLocations expression) ∧
          (Sales.recompiler.locationFault? { Sales.oneAssigned with mode := .reference }
            Sales.oneAssignedCompiled).isSome = true := by
  have nowhere : ¬ Sales.oneAssignedCompiled.body.AssignsLocations Sales.catalog := by
    intro assigns
    cases assigns _ _ _ .root
  obtain ⟨expression, isRead, _, _, asWritten, _⟩ := Recompiler.assignsLocations_iff
    Sales.isSurface_recompiler Sales.built_catalog.reached Sales.compile_oneAssigned
  exact ⟨Sales.recompile_oneAssigned, nowhere, ⟨expression, isRead, fun written =>
    nowhere (asWritten.mpr written)⟩, rfl⟩

end ExprImports
