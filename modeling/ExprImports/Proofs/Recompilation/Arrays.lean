import ExprImports.Proofs.Recompilation.Imports
import ExprImports.Proofs.Recompilation.Safety

/-!
# The indexes of arrays

An array type has a rank, the number of its dimensions. The element of an array is read with the
indexes that are written, each of them converted to an integer, and their number is compared with
nothing (`bind_index_of_int32`). Every such access in a compiled text comes from a part of the
text that is evaluated, and no such part is lost. So the accesses of a compiled text have one index
for each dimension exactly if the text is written so (`ranksFit_iff_ranksWritten`).
-/

set_option autoImplicit false

namespace ExprImports

/-- The number of dimensions of an array type. -/
def Catalog.rank? (catalog : Catalog) (type : TypeId) : Option Nat :=
  match (catalog.find? type).map TypeEntry.kind with
  | some (.array _ rank) => some rank
  | _ => none

theorem Catalog.exists_rank? {catalog : Catalog} {type element : TypeId}
    (isArray : catalog.element? type = some element) : ∃ rank, catalog.rank? type = some rank := by
  obtain ⟨entry, rank, found, kind⟩ := exists_of_element? isArray
  exact ⟨rank, by rw [rank?, found, Option.map_some, kind]⟩

theorem Catalog.exists_element? {catalog : Catalog} {type : TypeId} {rank : Nat}
    (isRank : catalog.rank? type = some rank) : ∃ element, catalog.element? type = some element := by
  unfold rank? at isRank
  split at isRank
  · rename_i element rank kind
    exact ⟨element, by rw [element?, kind]⟩
  · cases isRank

/-- In the tree every array is read with one index for each of its dimensions. -/
def Tree.RanksFit (catalog : Catalog) (tree : Tree) : Prop :=
  ∀ array indexes element, (Tree.arrayIndex array indexes element).Occurs tree →
    catalog.rank? array.type = some indexes.length

namespace Binding

open Surface

variable {context : Context}

/-- In the parts of the expression that are evaluated, every array has one index written for each
of its dimensions. -/
def Context.RanksWritten (context : Context) (expression : Expression) : Prop :=
  ∀ target arguments span array rank,
    context.Evaluates (.index target arguments span) expression →
      bind context target = .ok array → context.catalog.rank? array.type = some rank →
        arguments.length = rank

/-! ## One access -/

section Access

variable {target : Expression} {arguments : List Expression} {span : Span} {array : Tree}
  {element : TypeId}

/-- What is written behind an array becomes its indexes, however many there are. -/
theorem exists_arrayIndex_of_bind (boundTarget : bind context target = .ok array)
    (isArray : context.catalog.element? array.type = some element) {tree : Tree}
    (done : bind context (.index target arguments span) = .ok tree) :
    ∃ indexes, tree = .arrayIndex array indexes element ∧ indexes.length = arguments.length := by
  cases binds_of_bind done with
  | index before bound made =>
      obtain rfl := Except.ok.inj (boundTarget.symm.trans before)
      obtain ⟨other, isOther, indexes, coerced, rfl⟩ | ⟨noArray, _⟩ := cases_of_bindIndex made
      · obtain rfl := Option.some.inj (isArray.symm.trans isOther)
        have fitting := allConvert_of_coerceEach coerced
        rw [map_fst_zip_spans bound] at fitting
        exact ⟨indexes, rfl, fitting.length_eq.symm.trans bound.length_eq.symm⟩
      · cases isArray.symm.trans noArray

/-- Trees of the type are taken as they are. -/
theorem coerceEach_of_types {catalog : Catalog} {type : TypeId} {trees : List (Tree × Span)}
    (typed : ∀ pair ∈ trees, pair.1.type = type) :
    coerceEach catalog type trees = .ok (trees.map (·.1)) := by
  induction trees with
  | nil => rfl
  | cons pair rest ih =>
      obtain ⟨here, later⟩ := List.forall_mem_cons.mp typed
      rw [coerceEach, coerce, Tree.convert?, if_pos here, ih later]
      rfl

/-- An array is read with any number of integers, whatever its rank is. -/
theorem bind_index_of_int32 (boundTarget : bind context target = .ok array)
    (isArray : context.catalog.element? array.type = some element) {trees : List Tree}
    (boundArguments : bindAll context arguments = .ok trees)
    (integers : ∀ tree ∈ trees, tree.type = CoreType.int32) :
    bind context (.index target arguments span) = .ok (.arrayIndex array trees element) := by
  have boundTrees := bindAll_eq_ok_iff.mp boundArguments
  have converted : coerceEach context.catalog CoreType.int32
      (trees.zip (arguments.map (·.span))) = .ok trees := by
    rw [coerceEach_of_types, map_fst_zip_spans boundTrees]
    intro pair isPair
    exact integers pair.1 (List.of_mem_zip isPair).1
  refine bind_eq_ok_iff.mpr (.index boundTarget boundTrees ?_)
  simp only [bindIndex, isArray, converted]
  rfl

end Access

/-- Only an indexed part is bound to an access of an array. -/
theorem exists_index_of_bind (owned : context.catalog.Owned) {part : Expression} {array : Tree}
    {indexes : List Tree} {element : TypeId}
    (done : bind context part = .ok (.arrayIndex array indexes element)) :
    context.catalog.element? array.type = some element ∧
      ∃ target arguments span, part = .index target arguments span ∧
        bind context target = .ok array ∧ indexes.length = arguments.length := by
  obtain ⟨parts, boundParts, assembles⟩ := exists_assembles owned done
  generalize isTree : Tree.arrayIndex array indexes element = tree at assembles
  cases assembles with
  | literal value span => cases value <;> cases isTree
  | element span isArray fitting =>
      cases isTree
      obtain ⟨boundTarget, boundArguments⟩ := List.forall₂_cons.mp boundParts
      exact ⟨isArray, _, _, span, rfl, boundTarget,
        fitting.length_eq.symm.trans boundArguments.length_eq.symm⟩
  | _ => cases isTree

/-! ## All accesses -/

section Whole

variable (owned : context.catalog.Owned) {expression : Expression} {tree result : Tree}
  (done : bind context expression = .ok tree) (becomes : tree.Becomes result)
include owned done becomes

/-- No access is put in: each one comes from an indexed part that is evaluated. -/
theorem exists_index_of_occurs {array : Tree} {indexes : List Tree} {element : TypeId}
    (occurs : (Tree.arrayIndex array indexes element).Occurs result) :
    context.catalog.element? array.type = some element ∧
      ∃ target arguments span, context.Evaluates (.index target arguments span) expression ∧
        bind context target = .ok array ∧ indexes.length = arguments.length := by
  have noConversion : ¬ IsConversion (.arrayIndex array indexes element) := by
    intro isConversion
    cases isConversion
  have inTree := (occurs_or_isConversion_of_becomes becomes occurs).resolve_right noConversion
  obtain ⟨part, evaluates, boundPart⟩ :=
    (origin_of_occurs owned done inTree).resolve_right noConversion
  obtain ⟨isArray, target, arguments, span, rfl, access⟩ := exists_index_of_bind owned boundPart
  exact ⟨isArray, target, arguments, span, evaluates, access⟩

/-- No access is lost: an indexed part that is evaluated leaves one. -/
theorem exists_occurs_of_index {target : Expression} {arguments : List Expression} {span : Span}
    {array : Tree} {element : TypeId}
    (evaluates : context.Evaluates (.index target arguments span) expression)
    (boundTarget : bind context target = .ok array)
    (isArray : context.catalog.element? array.type = some element) :
    ∃ indexes, (Tree.arrayIndex array indexes element).Occurs result ∧
      indexes.length = arguments.length := by
  obtain ⟨partTree, boundPart, remains⟩ := exists_of_evaluates owned evaluates done
  obtain ⟨indexes, rfl, sameLength⟩ := exists_arrayIndex_of_bind boundTarget isArray boundPart
  obtain ⟨type, converts⟩ := becomes
  obtain occurs | isNull := remains.trans (Tree.remains_of_convertsTo converts)
  · exact ⟨indexes, occurs, sameLength⟩
  · cases isNull

theorem ranksFit_iff_of_bind :
    result.RanksFit context.catalog ↔ context.RanksWritten expression := by
  constructor
  · intro fits target arguments span array rank evaluates boundTarget isRank
    obtain ⟨element, isArray⟩ := Catalog.exists_element? isRank
    obtain ⟨indexes, occurs, sameLength⟩ :=
      exists_occurs_of_index owned done becomes evaluates boundTarget isArray
    have fit := (fits array indexes element occurs).symm.trans isRank
    exact sameLength.symm.trans (Option.some.inj fit)
  · intro written array indexes element occurs
    obtain ⟨isArray, target, arguments, span, evaluates, boundTarget, sameLength⟩ :=
      exists_index_of_occurs owned done becomes occurs
    obtain ⟨rank, isRank⟩ := Catalog.exists_rank? isArray
    rw [isRank, sameLength, written target arguments span array rank evaluates boundTarget isRank]

end Whole

end Binding

/-! ## Compiled texts -/

namespace Recompiler

open Binding

/-- **An array is read with the indexes that are written.** Each access of an array in a compiled
text is one that an evaluated part of the text writes, with as many indexes as are written there.
So each has an index for every dimension of its array exactly if the text is written so. -/
theorem ranksFit_iff_ranksWritten {recompiler : Recompiler} (surface : recompiler.IsSurface)
    (reached : recompiler.catalog.Reached) {request : Request} {compiled : Compiled}
    (done : recompiler.compile request = .ok compiled) :
    ∃ expression, SurfaceCompiler.read request.session = .ok expression ∧
      (∀ array indexes element, (Tree.arrayIndex array indexes element).Occurs compiled.body →
        recompiler.catalog.element? array.type = some element ∧
          ∃ target arguments span,
            (recompiler.context request).Evaluates (.index target arguments span) expression ∧
              Binding.bind (recompiler.context request) target = .ok array ∧
                indexes.length = arguments.length) ∧
      (compiled.body.RanksFit recompiler.catalog ↔
        (recompiler.context request).RanksWritten expression) := by
  obtain ⟨expression, tree, isRead, bound, becomes⟩ := exists_becomes_of_compile surface done
  have owned : (recompiler.context request).catalog.Owned := reached.owned
  exact ⟨expression, isRead, fun _ _ _ => exists_index_of_occurs owned bound becomes,
    ranksFit_iff_of_bind owned bound becomes⟩

end Recompiler

namespace Sales

open Binding Surface

/-- An array of boxes without an index. -/
def noBox : Request :=
  { text := "boxes[]", language := SurfaceCompiler.language
    environment := { innermost := [("boxes", orderBoxes)] } }

def noBoxRead : Expression :=
  .index (.identifier "boxes" ⟨0, 5⟩) [] ⟨0, 7⟩

def noBoxCompiled : Compiled :=
  { parameters := [⟨"boxes", orderBoxes⟩]
    body := .arrayIndex (.parameter ⟨"boxes", orderBoxes⟩) [] orderBox
    returnType := orderBox }

theorem compile_noBox : boxRecompiler.compile noBox = .ok noBoxCompiled := by
  have isRead : SurfaceCompiler.read noBox.session = .ok noBoxRead := by with_unfolding_all rfl
  have boundTarget : Binding.bind (boxRecompiler.context noBox) (.identifier "boxes" ⟨0, 5⟩) =
      .ok (.parameter ⟨"boxes", orderBoxes⟩) := bind_identifier _ rfl
  have isArray : boxCatalog.element? orderBoxes = some orderBox := by decide +kernel
  have bound : Binding.bind (boxRecompiler.context noBox) noBoxRead = .ok noBoxCompiled.body :=
    bind_index_of_int32 boundTarget isArray rfl (List.forall_mem_nil _)
  exact (Recompiler.compile_eq_ok_iff (Recompiler.isSurface_ofCompiler _ _) rfl).mpr
    ⟨noBoxRead, isRead, compile_of_bind bound⟩

end Sales

/-- The boxes have one dimension, and they are read without an index. -/
theorem noBox_not_ranksFit :
    Sales.boxRecompiler.compile Sales.noBox = .ok Sales.noBoxCompiled ∧
      Sales.boxCatalog.rank? Sales.orderBoxes = some 1 ∧
        ¬ Sales.noBoxCompiled.body.RanksFit Sales.boxCatalog ∧
          ∃ expression, SurfaceCompiler.read Sales.noBox.session = .ok expression ∧
            ¬ (Sales.boxRecompiler.context Sales.noBox).RanksWritten expression := by
  have isRank : Sales.boxCatalog.rank? Sales.orderBoxes = some 1 := by decide +kernel
  have unfit : ¬ Sales.noBoxCompiled.body.RanksFit Sales.boxCatalog := by
    intro fits
    have none := (fits _ _ _ .root).symm.trans isRank
    cases none
  obtain ⟨expression, isRead, _, asWritten⟩ := Recompiler.ranksFit_iff_ranksWritten
    (Recompiler.isSurface_ofCompiler _ _) Sales.built_boxCatalog.reached Sales.compile_noBox
  exact ⟨Sales.compile_noBox, isRank, unfit, expression, isRead, fun written =>
    unfit (asWritten.mpr written)⟩

end ExprImports
