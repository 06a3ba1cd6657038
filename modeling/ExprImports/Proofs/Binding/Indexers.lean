import ExprImports.Proofs.Binding.Assembly

/-!
# Indexed properties that are static

The first indexed property of a type is taken whether it is static or not, and it is
always read through a receiver. Given a variable of the type and one for each
parameter, the reading of any such property can be written down.

**Soundness.** Whatever operations made the catalog, the trees of all expressions are well
typed exactly if no type that is not an array has a static indexed property before all
others. In any case only the readings of such properties are not (`compile_wellTyped_iff`).
-/

set_option autoImplicit false

namespace ExprImports.Binding

open Surface

/-! ## One variable for each type -/

/-- A name of as many letters as the number says. -/
def letters (count : Nat) : String :=
  String.ofList (List.replicate count 'x')

theorem letters_injective {first second : Nat} (same : letters first = letters second) :
    first = second := by
  have lists := String.ofList_injective same
  have lengths := congrArg List.length lists
  rwa [List.length_replicate, List.length_replicate] at lengths

/-- The name of the variable of the first of several types. -/
def firstName (rest : List TypeId) : String :=
  letters (rest.length + 1)

/-- A scope with a variable of each type. -/
def scopeOf : List TypeId → Scope
  | [] => []
  | type :: rest => (firstName rest, type) :: scopeOf rest

/-- The variables of the types as they are written. -/
def writtenVariables (span : Span) : List TypeId → List Expression
  | [] => []
  | _ :: rest => .identifier (firstName rest) span :: writtenVariables span rest

/-- The variables of the types as trees. -/
def variableTrees : List TypeId → List Tree
  | [] => []
  | type :: rest => .parameter ⟨firstName rest, type⟩ :: variableTrees rest

theorem types_variableTrees (types : List TypeId) :
    (variableTrees types).map Tree.type = types := by
  induction types with
  | nil => rfl
  | cons type rest ih =>
      rw [variableTrees, List.map_cons, ih]
      rfl

/-- The bindings so far have no variable of the types to come. -/
def Fresh (before : Scope) (types : List TypeId) : Prop :=
  ∀ count ≤ types.length, before.lookup (letters count) = none

theorem Fresh.step {before : Scope} {type : TypeId} {rest : List TypeId}
    (fresh : Fresh before (type :: rest)) : Fresh (before ++ [(firstName rest, type)]) rest := by
  intro count small
  have other : letters count ≠ firstName rest := by
    intro same
    have := letters_injective same
    omega
  rw [List.lookup_append, fresh count (Nat.le_succ_of_le small), Option.none_or,
    List.lookup_cons, beq_false_of_ne other, List.lookup_nil]

theorem lookup_firstName {environment : Environment} {before : Scope} {type : TypeId}
    {rest : List TypeId} (bindings : environment.bindings = before ++ scopeOf (type :: rest))
    (fresh : Fresh before (type :: rest)) :
    environment.lookup (firstName rest) = some type := by
  unfold Environment.lookup
  rw [bindings, List.lookup_append, firstName, fresh _ (by simp), Option.none_or, scopeOf,
    List.lookup_cons, firstName, beq_self_eq_true]

variable {context : Context}

theorem bind_identifier {name : String} {type : TypeId} (span : Span)
    (known : context.environment.lookup name = some type) :
    bind context (.identifier name span) = .ok (.parameter ⟨name, type⟩) := by
  simp only [bind, bindIdentifier, known]

theorem bindAll_writtenVariables (span : Span) (types : List TypeId) {before : Scope}
    (bindings : context.environment.bindings = before ++ scopeOf types)
    (fresh : Fresh before types) :
    bindAll context (writtenVariables span types) = .ok (variableTrees types) := by
  induction types generalizing before with
  | nil => rfl
  | cons type rest ih =>
      have longer : context.environment.bindings =
          (before ++ [(firstName rest, type)]) ++ scopeOf rest := by
        rw [bindings, List.append_assoc]
        rfl
      have others := ih longer fresh.step
      rw [writtenVariables, bindAll, bind_identifier span (lookup_firstName bindings fresh), others]
      rfl

/-- Arguments of the types of the parameters are taken as they are. -/
theorem convertAll?_of_types (catalog : Catalog) (arguments : List Tree) :
    catalog.convertAll? arguments (arguments.map Tree.type) = some arguments := by
  induction arguments with
  | nil => rfl
  | cons argument rest ih =>
      rw [List.map_cons, Catalog.convertAll?, Tree.convert?, if_pos rfl]
      simp only [ih, Option.map_some]

/-! ## Reading the first indexed property of a type -/

/-- A value that is no array is indexed by the first getter, if the arguments fit that one. -/
theorem bind_index_of_findIndexer? {target : Expression} {arguments : List Expression}
    {receiver : Tree} {trees : List Tree} {first : Method} (place : Span)
    (bound : bind context target = .ok receiver)
    (boundArguments : bindAll context arguments = .ok trees)
    (noArray : context.catalog.element? receiver.type = none)
    (isFirst : context.catalog.findIndexer? receiver.type = some first) :
    bind context (.index target arguments place) =
      match context.catalog.convertAll? trees first.parameters with
      | some fitted => .ok (.call receiver first fitted first.returnType)
      | none => fail place (.noOverload receiver.type first.name arguments.length) := by
  have boundTrees := bindAll_eq_ok_iff.mp boundArguments
  have sameLength : (trees.zip (arguments.map (·.span))).length = arguments.length := by
    rw [List.length_zip, List.length_map, boundTrees.length_eq, Nat.min_self]
  rw [bind, bound, boundArguments]
  cases fits : context.catalog.convertAll? trees first.parameters <;>
    simp only [Bind.bind, Except.bind, bindIndex, noArray, isFirst, map_fst_zip_spans boundTrees,
      sameLength, fits, Tree.callOf]

/-- A context with a variable of the type and one for each parameter. -/
def indexedContext (catalog : Catalog) (type : TypeId) (parameters : List TypeId) : Context :=
  { catalog, environment := { innermost := scopeOf (type :: parameters) } }

/-- The variable of the type, indexed by those of the parameters. -/
def indexedVariable (span : Span) (parameters : List TypeId) : Expression :=
  .index (.identifier (firstName parameters) span) (writtenVariables span parameters) span

theorem bind_indexedVariable {catalog : Catalog} {type : TypeId} {indexer : Method} (span : Span)
    (noArray : catalog.element? type = none) (found : catalog.findIndexer? type = some indexer) :
    bind (indexedContext catalog type indexer.parameters)
        (indexedVariable span indexer.parameters) =
      .ok (.call (.parameter ⟨firstName indexer.parameters, type⟩) indexer
        (variableTrees indexer.parameters) indexer.returnType) := by
  have bindings : (indexedContext catalog type indexer.parameters).environment.bindings =
      [] ++ scopeOf (type :: indexer.parameters) := by
    simp only [indexedContext, Environment.bindings, List.flatten_nil, List.append_nil,
      List.nil_append]
  have fresh : Fresh [] (type :: indexer.parameters) := fun _ _ => rfl
  have target := bind_identifier span (lookup_firstName bindings fresh)
  have longer : (indexedContext catalog type indexer.parameters).environment.bindings =
      ([] ++ [(firstName indexer.parameters, type)]) ++ scopeOf indexer.parameters := by
    rw [bindings, List.append_assoc]
    rfl
  have arguments := bindAll_writtenVariables span indexer.parameters longer fresh.step
  have fitting := convertAll?_of_types catalog (variableTrees indexer.parameters)
  rw [types_variableTrees] at fitting
  rw [indexedVariable, bind_index_of_findIndexer? span target arguments noArray found]
  simp only [indexedContext, fitting]

theorem compile_of_bind {expression : Expression} {tree : Tree}
    (bound : bind context expression = .ok tree) :
    compile context expression =
      .ok ⟨capturedVariables context.environment expression, tree, tree.type⟩ := by
  rw [compile, bound]
  rfl

/-- **Soundness of binding.** All trees of expressions are well typed exactly if no type
has a static indexed property before all others, and only the reading of such a
property is not. Two strings that are added become a call of the static method that
concatenates them. -/
theorem compile_wellTyped_iff {catalog : Catalog} (reached : catalog.Reached) :
    ((∀ context expression compiled, context.catalog = catalog →
        compile context expression = .ok compiled → compiled.body.WellTyped context) ↔
      catalog.IndexersNeedReceiver) ∧
    (∀ context expression compiled, context.catalog = catalog →
      compile context expression = .ok compiled →
        compiled.body.WellTypedButIndexers context ∧
          compiled.returnType = compiled.body.type) ∧
    ∀ context left right first second span, context.catalog = catalog →
      bind context left = .ok first → bind context right = .ok second →
        first.type = CoreType.string → second.type = CoreType.string →
          bind context (.binary .add left right span) =
            .ok (.staticCall Catalog.concatMethod [first, second] CoreType.string) := by
  have sound : ∀ context expression compiled, context.catalog = catalog →
      compile context expression = .ok compiled →
        compiled.body.WellTypedButIndexers context ∧
          compiled.returnType = compiled.body.type := by
    rintro context expression compiled rfl done
    obtain ⟨tree, bound, done⟩ := exists_of_bind_eq_ok done
    cases done
    exact ⟨sound_of_bind reached bound, rfl⟩
  refine ⟨⟨?necessary, ?sufficient⟩, sound, ?concatenation⟩
  case necessary =>
    intro wellTyped type indexer noArray found
    have done := compile_of_bind (bind_indexedVariable ⟨0, 0⟩ noArray found)
    exact (wellTyped _ _ _ rfl done _ .root).2
  case sufficient =>
    intro indexers context expression compiled same done node occurs
    obtain ⟨obeys, fits⟩ := (sound context expression compiled same done).1 node occurs
    refine ⟨obeys, fits.resolve_right fun reads => ?_⟩
    cases node with
    | call receiver method arguments type =>
        obtain ⟨noArray, found, static⟩ := reads
        rw [same] at noArray found
        rw [indexers _ _ noArray found] at static
        cases static
    | _ => exact reads
  case concatenation =>
    rintro context left right first second span rfl boundLeft boundRight firstString secondString
    rw [bind, boundLeft, boundRight]
    simp only [Bind.bind, Except.bind, bindBinary, firstString, secondString, decide_true,
      Bool.and_self, if_true, concatenation_eq reached]
    rfl

/-! ## A type with a static indexed property -/

namespace Grid

def grid : TypeId := .entry 16

/-- The static getter of an indexed property. -/
def cell : Method :=
  { name := Catalog.indexerName, declaringType := grid, parameters := [CoreType.int32]
    returnType := CoreType.string, isStatic := true, kind := .indexer false }

/-- The initial catalog with one more class, which has the indexed property. -/
def catalog : Catalog :=
  let declared := (Catalog.initial.define {
    name := "Grid", namespaceName := "Contoso.Crm", assembly := coreAssembly, kind := .classType
    base := some CoreType.object }).2
  declared.addMethod grid cell

theorem built_catalog : catalog.Built := by
  refine .addMethod (.define .initial _ ?_) _ _
  decide +kernel

/-- A context with one variable of the class. -/
def gridContext : Context :=
  { catalog := catalog, environment := { innermost := [("grid", grid)] } }

/-- The expression `grid[0]`. -/
def firstCell : Expression :=
  .index (.identifier "grid" ⟨0, 4⟩) [.literal (.integer 0) ⟨5, 1⟩] ⟨0, 7⟩

/-- The tree of `grid[0]`. -/
def firstCellTree : Tree :=
  .call (.parameter ⟨"grid", grid⟩) cell
    [.constant (.literal (.integer 0) CoreType.int32) CoreType.int32] CoreType.string

theorem bind_firstCell : bind gridContext firstCell = .ok firstCellTree := by
  have target : bind gridContext (.identifier "grid" ⟨0, 4⟩) = .ok (.parameter ⟨"grid", grid⟩) :=
    bind_identifier _ (by decide)
  have arguments : bindAll gridContext [.literal (.integer 0) ⟨5, 1⟩] =
      .ok [.constant (.literal (.integer 0) CoreType.int32) CoreType.int32] := rfl
  have noArray : gridContext.catalog.element? grid = none := by decide +kernel
  have found : gridContext.catalog.findIndexer? grid = some cell := by decide +kernel
  rw [firstCell, bind_index_of_findIndexer? _ target arguments noArray found]
  rfl

end Grid

/-- The tree of `grid[0]` has a receiver that the static property does not need, and
obeys all other rules. -/
theorem firstCell_not_wellTyped :
    Grid.catalog.Reached ∧ ¬ Grid.catalog.IndexersNeedReceiver ∧
      ∃ compiled, compile Grid.gridContext Grid.firstCell = .ok compiled ∧
        ¬ compiled.body.WellTyped Grid.gridContext ∧
          compiled.body.WellTypedButIndexers Grid.gridContext := by
  have done := compile_of_bind Grid.bind_firstCell
  obtain ⟨allWellTyped, sound, _⟩ := compile_wellTyped_iff Grid.built_catalog.reached
  have illTyped : ¬ Grid.firstCellTree.WellTyped Grid.gridContext := fun wellTyped => by
    cases (wellTyped _ .root).2
  refine ⟨Grid.built_catalog.reached, ?_, _, done, illTyped, (sound _ _ _ rfl done).1⟩
  exact fun indexers => illTyped (allWellTyped.mpr indexers _ _ _ rfl done)

end ExprImports.Binding
