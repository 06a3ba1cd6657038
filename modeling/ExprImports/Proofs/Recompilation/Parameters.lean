import ExprImports.Proofs.Closure.Anchors
import ExprImports.Proofs.Recompilation.Targets
import Mathlib.Data.List.Nodup

/-!
# The parameters of a compiled text

The parameters of a compiled expression are taken from the text: they are the identifiers in it
that the environment binds. What is compiled is the tree, in which the arguments are converted and
paths before a dot may stand for types. Both agree: the nodes of the tree that stand for variables
are, from left to right, the identifiers of the text that the environment binds
(`parameters_of_bind`). So the parameters are the variables of the tree, each listed once, in the
order in which they occur first (`parameters_captured`).
-/

set_option autoImplicit false

namespace ExprImports

/-- Leaving out elements and changing the others without making two of them alike may be done
before or after repetitions are left out. -/
theorem filterMap_distinct {α β : Type} [DecidableEq α] [DecidableEq β] {change : α → Option β}
    (injective : ∀ x y result, change x = some result → change y = some result → x = y)
    (elements : List α) :
    (distinct elements).filterMap change = distinct (elements.filterMap change) := by
  have step (collected : List α) (element : α) :
      (insertNew collected element).filterMap change =
        ([element].filterMap change).foldl insertNew (collected.filterMap change) := by
    cases changed : change element with
    | none =>
        unfold insertNew
        split <;> simp [changed]
    | some result =>
        have known : result ∈ collected.filterMap change ↔ element ∈ collected := by
          rw [List.mem_filterMap]
          constructor
          · rintro ⟨other, inside, same⟩
            exact injective _ _ _ changed same ▸ inside
          · exact fun inside => ⟨element, inside, changed⟩
        by_cases inside : element ∈ collected
        · simp [insertNew, changed, inside, known.mpr inside]
        · simp [insertNew, changed, inside, mt known.mp inside]
  have run (collected : List α) :
      (elements.foldl insertNew collected).filterMap change =
        (elements.filterMap change).foldl insertNew (collected.filterMap change) := by
    induction elements generalizing collected with
    | nil => rfl
    | cons element rest ih =>
        rw [List.foldl_cons, ih, step, ← List.foldl_append, ← List.filterMap_append,
          List.singleton_append]
  exact run []

/-! ## The variables of a tree -/

namespace Tree

/-- The variable that a node stands for. -/
def parameter? : Tree → Option Variable
  | .parameter bound => some bound
  | _ => none

/-- The variables of a tree from left to right, one for each node that stands for one. -/
def parameters (tree : Tree) : List Variable :=
  tree.parameter?.toList ++ tree.children.attach.flatMap fun child => child.val.parameters
termination_by sizeOf tree
decreasing_by exact sizeOf_lt_of_mem_children child.property

theorem parameters_eq (tree : Tree) :
    tree.parameters = tree.parameter?.toList ++ tree.children.flatMap parameters := by
  rw [parameters, List.flatMap_subtype (g := parameters) fun _ _ => rfl, List.unattach_attach]

theorem eq_parameter_of_parameter? {tree : Tree} {bound : Variable}
    (stands : tree.parameter? = some bound) : tree = .parameter bound := by
  unfold parameter? at stands
  split at stands
  · cases stands
    rfl
  · cases stands

theorem mem_parameters_iff {tree : Tree} {bound : Variable} :
    bound ∈ tree.parameters ↔ (Tree.parameter bound).Occurs tree := by
  constructor
  · intro inside
    induction tree using parameters.induct with
    | _ tree ih =>
        rw [parameters_eq, List.mem_append, Option.mem_toList, List.mem_flatMap] at inside
        obtain stands | ⟨child, isChild, further⟩ := inside
        · exact eq_parameter_of_parameter? stands ▸ .root
        · exact .inChild isChild (ih ⟨child, isChild⟩ further)
  · intro occurs
    induction occurs with
    | root =>
        rw [parameters_eq]
        exact List.mem_cons_self
    | inChild isChild _ ih =>
        rw [parameters_eq, List.mem_append, List.mem_flatMap]
        exact .inr ⟨_, isChild, ih⟩

/-- A conversion neither adds variables nor takes any away. -/
theorem parameters_of_becomes {tree result : Tree} (becomes : tree.Becomes result) :
    result.parameters = tree.parameters := by
  obtain ⟨target, converts⟩ := becomes
  cases converts with
  | same => rfl
  | null literal =>
      unfold isNull at literal
      split at literal
      · rw [parameters_eq, parameters_eq]
        rfl
      · cases literal
  | convert =>
      rw [parameters_eq]
      exact List.append_nil _

theorem parameters_of_becomeAll {trees results : List Tree} (become : BecomeAll trees results) :
    results.flatMap parameters = trees.flatMap parameters := by
  induction become with
  | nil => rfl
  | cons first _ ih => rw [List.flatMap_cons, List.flatMap_cons, parameters_of_becomes first, ih]

end Tree

/-! ## The variables of a text -/

/-- The variable of the environment with this name. -/
def Environment.boundVariable? (environment : Environment) (name : String) : Option Variable :=
  (environment.lookup name).map fun type => { name, type }

theorem Environment.boundVariable?_eq_some_iff {environment : Environment} {name : String}
    {bound : Variable} :
    environment.boundVariable? name = some bound ↔
      name = bound.name ∧ environment.lookup bound.name = some bound.type := by
  rw [boundVariable?, Option.map_eq_some_iff]
  constructor
  · rintro ⟨type, found, rfl⟩
    exact ⟨rfl, found⟩
  · rintro ⟨rfl, found⟩
    exact ⟨bound.type, found, rfl⟩

namespace Binding

open Surface

variable {context : Context}

/-- The variables that an expression mentions, as often as it does. -/
def Context.variablesIn (context : Context) (expression : Expression) : List Variable :=
  expression.identifiers.filterMap context.environment.boundVariable?

theorem capturedVariables_eq (context : Context) (expression : Expression) :
    capturedVariables context.environment expression = distinct (context.variablesIn expression) := by
  refine filterMap_distinct (fun first second bound isFirst isSecond => ?_) expression.identifiers
  obtain ⟨rfl, _⟩ := Environment.boundVariable?_eq_some_iff.mp isFirst
  exact (Environment.boundVariable?_eq_some_iff.mp isSecond).1.symm

theorem allIdentifiers_eq_flatMap (expressions : List Expression) :
    allIdentifiers expressions = expressions.flatMap Expression.identifiers := by
  induction expressions with
  | nil => rfl
  | cons expression rest ih => rw [allIdentifiers, ih, List.flatMap_cons]

/-- A path mentions no identifier but the one that it begins with. -/
theorem identifiers_of_rootIdentifier? {expression : Expression} {root : String}
    (isRoot : expression.rootIdentifier? = some root) : expression.identifiers = [root] := by
  induction expression using Expression.rootIdentifier?.induct with
  | case1 name span =>
      cases isRoot
      rfl
  | case2 target name span ih => exact ih isRoot
  | case3 expression noIdentifier noMember =>
      rw [Expression.rootIdentifier?.eq_3 _ noIdentifier noMember] at isRoot
      cases isRoot

/-- What stands before a dot and names a type mentions no variable. -/
theorem variablesIn_receiverParts (context : Context) (target : Expression) :
    (context.receiverParts target).flatMap context.variablesIn = context.variablesIn target := by
  unfold Context.receiverParts
  cases isType : context.receiverType? target with
  | none => exact List.append_nil _
  | some type =>
      unfold Context.receiverType? at isType
      split at isType
      · rename_i root path isRoot _
        split at isType
        · cases isType
        · rename_i free
          rw [Bool.not_eq_true, Option.isSome_eq_false_iff, Option.isNone_iff_eq_none] at free
          simp [Context.variablesIn, identifiers_of_rootIdentifier? isRoot,
            Environment.boundVariable?, free]
      · cases isType

/-- All variables that an expression mentions are mentioned by its parts that are evaluated, unless
it is an identifier itself. -/
theorem variablesIn_valueParts (expression : Expression)
    (noIdentifier : ∀ name span, expression ≠ .identifier name span) :
    (context.valueParts expression).flatMap context.variablesIn =
      context.variablesIn expression := by
  have all (expressions : List Expression) : expressions.flatMap context.variablesIn =
      (allIdentifiers expressions).filterMap context.environment.boundVariable? := by
    rw [allIdentifiers_eq_flatMap, List.filterMap_flatMap]
    rfl
  cases expression with
  | literal => rfl
  | identifier name span => exact absurd rfl (noIdentifier name span)
  | member target name span => exact variablesIn_receiverParts context target
  | methodCall target name arguments span =>
      rw [Context.valueParts, List.flatMap_append, variablesIn_receiverParts, all,
        Context.variablesIn, ← List.filterMap_append]
      rfl
  | index target arguments span => exact all (target :: arguments)
  | create type arguments span => exact all arguments
  | createArray element items span => exact all items
  | typeOf => rfl
  | typeIs operand type span => exact List.append_nil _
  | typeAs operand type span => exact List.append_nil _
  | unary operator operand span => exact List.append_nil _
  | binary operator left right span =>
      simp [Context.valueParts, Context.variablesIn, Expression.identifiers]
  | conditional test ifTrue ifFalse span =>
      simp [Context.valueParts, Context.variablesIn, Expression.identifiers]
  | assign target value span =>
      simp [Context.valueParts, Context.variablesIn, Expression.identifiers]

/-- Only an identifier is put together as a variable. -/
theorem parameter?_of_assembles {expression : Expression} {parts : List Tree} {tree : Tree}
    (assembles : Assembles context expression parts tree)
    (noIdentifier : ∀ name span, expression ≠ .identifier name span) : tree.parameter? = none := by
  cases assembles with
  | literal value span => cases value <;> rfl
  | identifier span bound => exact absurd rfl (noIdentifier _ span)
  | _ => rfl

theorem parameters_of_boundAll {expressions : List Expression} {trees : List Tree}
    (bound : BoundAll context expressions trees)
    (alike : ∀ expression ∈ expressions, ∀ tree, bind context expression = .ok tree →
      tree.parameters = context.variablesIn expression) :
    trees.flatMap Tree.parameters = expressions.flatMap context.variablesIn := by
  induction bound with
  | nil => rfl
  | cons first _ ih =>
      obtain ⟨here, later⟩ := List.forall_mem_cons.mp alike
      rw [List.flatMap_cons, List.flatMap_cons, here _ first, ih later]

/-- **The variables of the tree of an expression are those that it mentions, in the same order.**
The induction follows the parts that are evaluated. -/
theorem parameters_of_bind (owned : context.catalog.Owned) {expression : Expression} {tree : Tree}
    (done : bind context expression = .ok tree) :
    tree.parameters = context.variablesIn expression := by
  induction size : sizeOf expression using Nat.strongRecOn generalizing expression tree with
  | _ bound ih =>
      obtain ⟨parts, boundParts, assembles⟩ := exists_assembles owned done
      by_cases isIdentifier : ∃ name span, expression = .identifier name span
      · obtain ⟨name, span, rfl⟩ := isIdentifier
        cases assembles with
        | identifier span known =>
            rw [Tree.parameters_eq, Context.variablesIn, Expression.identifiers]
            simp [Tree.parameter?, Tree.children, Environment.boundVariable?, known]
      · have noIdentifier : ∀ name span, expression ≠ .identifier name span :=
          fun name span same => isIdentifier ⟨name, span, same⟩
        have alike : parts.flatMap Tree.parameters =
            (context.valueParts expression).flatMap context.variablesIn := by
          refine parameters_of_boundAll boundParts fun part isPart tree boundPart => ?_
          exact ih _ (size ▸ Context.sizeOf_lt_of_mem_valueParts isPart) boundPart rfl
        calc tree.parameters
          _ = tree.children.flatMap Tree.parameters := by
              rw [Tree.parameters_eq, parameter?_of_assembles assembles noIdentifier]
              rfl
          _ = parts.flatMap Tree.parameters :=
              Tree.parameters_of_becomeAll (becomeAll_of_assembles assembles)
          _ = (context.valueParts expression).flatMap context.variablesIn := alike
          _ = context.variablesIn expression := variablesIn_valueParts expression noIdentifier

end Binding

/-! ## Compiled texts -/

namespace Recompiler

open Binding

variable {recompiler : Recompiler} (surface : recompiler.IsSurface) {request : Request}
  {compiled : Compiled}
include surface

/-- With or without a target, the parameters are those that the text mentions. -/
theorem parameters_of_compile (done : recompiler.compile request = .ok compiled)
    {expression : Surface.Expression}
    (isRead : SurfaceCompiler.read request.session = .ok expression) :
    compiled.parameters = capturedVariables request.environment expression := by
  rw [compile_eq_of_surface surface] at done
  obtain ⟨inferred, compiles, done⟩ := exists_of_bind_eq_ok done
  obtain ⟨again, isReadAgain, bound⟩ := surfaceCompile_eq_ok_iff.mp (mapError_eq_ok_iff.mp compiles)
  obtain rfl := Except.ok.inj (isReadAgain.symm.trans isRead)
  obtain ⟨tree, _, made⟩ := exists_of_bind_eq_ok bound
  cases made
  cases isTarget : request.target with
  | none =>
      rw [isTarget] at done
      cases done
      rfl
  | some target =>
      simp only [isTarget, SurfaceCompiler.retarget] at done
      repeat' split at done
      all_goals cases done
      all_goals rfl

/-- **The parameters of a compiled text are the variables of its tree**, each one once, in the order
in which they occur first, and with the types that the environment gives to them. -/
theorem parameters_captured (reached : recompiler.catalog.Reached)
    (done : recompiler.compile request = .ok compiled) :
    (compiled.parameters.map Variable.name).Nodup ∧
      compiled.parameters = distinct compiled.body.parameters ∧
      (∀ bound, bound ∈ compiled.parameters ↔ (Tree.parameter bound).Occurs compiled.body) ∧
      ∀ bound ∈ compiled.parameters,
        request.environment.lookup bound.name = some bound.type := by
  obtain ⟨expression, tree, isRead, bound, becomes⟩ := exists_becomes_of_compile surface done
  have inOrder : compiled.parameters = distinct compiled.body.parameters := by
    have owned : (recompiler.context request).catalog.Owned := reached.owned
    rw [Tree.parameters_of_becomes becomes, parameters_of_bind owned bound,
      parameters_of_compile surface done isRead]
    exact capturedVariables_eq (recompiler.context request) expression
  have isBound : ∀ bound ∈ compiled.parameters,
      request.environment.lookup bound.name = some bound.type := by
    intro bound inside
    rw [parameters_of_compile surface done isRead] at inside
    obtain ⟨name, _, found⟩ := List.mem_filterMap.mp inside
    exact (Environment.boundVariable?_eq_some_iff.mp found).2
  refine ⟨List.Nodup.map_on ?_ (inOrder ▸ nodup_distinct _), inOrder, fun bound => ?_, isBound⟩
  · intro first isFirst second isSecond sameName
    have sameType := (isBound first isFirst).symm.trans (sameName ▸ isBound second isSecond)
    cases first
    cases second
    cases sameName
    cases sameType
    rfl
  · rw [inOrder, mem_distinct, Tree.mem_parameters_iff]

end Recompiler

namespace Sales

open Binding Surface

/-- A text that mentions one variable twice and widens another one, compiled as an object. -/
def weighted : Request :=
  { text := "rate * total + rate", language := SurfaceCompiler.language
    environment := { innermost := [("total", CoreType.int32), ("rate", CoreType.double)] }
    target := some CoreType.object }

def weightedRead : Expression :=
  .binary .add
    (.binary .multiply (.identifier "rate" ⟨0, 4⟩) (.identifier "total" ⟨7, 5⟩) ⟨0, 12⟩)
    (.identifier "rate" ⟨15, 4⟩) ⟨0, 19⟩

/-- The sum, whose first operand is a product with the widened variable. -/
def weightedTree : Tree :=
  .binary .add
    (.binary .multiply (.parameter ⟨"rate", CoreType.double⟩)
      (.convert .convert (.parameter ⟨"total", CoreType.int32⟩) CoreType.double) CoreType.double)
    (.parameter ⟨"rate", CoreType.double⟩) CoreType.double

theorem bind_weighted : Binding.bind (recompiler.context weighted) weightedRead =
    .ok weightedTree := by
  rw [weightedRead, Binding.bind, Binding.bind, Binding.bind, Binding.bind]
  rfl

/-- What the text compiles to: the sum as an object. -/
def weightedCompiled : Compiled :=
  { parameters := [⟨"rate", CoreType.double⟩, ⟨"total", CoreType.int32⟩]
    body := .convert .convert weightedTree CoreType.object
    returnType := CoreType.object }

theorem compile_weighted : recompiler.compile weighted = .ok weightedCompiled := by
  have isRead : SurfaceCompiler.read weighted.session = .ok weightedRead := by
    with_unfolding_all rfl
  have converts : catalog.converts CoreType.double CoreType.object = true := by decide +kernel
  have converted : weightedTree.convert? catalog CoreType.object = some weightedCompiled.body := by
    rw [Tree.convert?, if_neg (by decide), if_neg (by decide)]
    exact if_pos converts
  have retargeted : SurfaceCompiler.retarget catalog weighted.session
      ⟨weightedCompiled.parameters, weightedTree, CoreType.double⟩ CoreType.object =
        .ok weightedCompiled :=
    (SurfaceCompiler.retarget_eq_ok_iff rfl (.inr (by decide +kernel))).mpr ⟨_, converted, rfl⟩
  rw [Recompiler.compile_eq_of_surface isSurface_recompiler,
    Recompiler.surfaceCompile_eq_ok_iff.mpr ⟨_, isRead, compile_of_bind bind_weighted⟩]
  exact retargeted

end Sales

/-- The variables come in the order of the text, not in that of the environment, and the one that
is mentioned twice comes once. -/
theorem weighted_captured : ∃ compiled, Sales.recompiler.compile Sales.weighted = .ok compiled ∧
    distinct compiled.body.parameters =
      [⟨"rate", CoreType.double⟩, ⟨"total", CoreType.int32⟩] := by
  refine ⟨_, Sales.compile_weighted, ?_⟩
  obtain ⟨_, inOrder, _⟩ := Recompiler.parameters_captured Sales.isSurface_recompiler
    Sales.built_catalog.reached Sales.compile_weighted
  exact inOrder.symm

end ExprImports
