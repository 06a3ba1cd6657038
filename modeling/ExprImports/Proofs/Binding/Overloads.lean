import ExprImports.Proofs.Binding.Indexers

/-!
# Indexing and calling the getter

An indexed property is read by indexing a value, or by calling its getter by name. The call tries
the methods of the name one after the other and takes the first one that is not static and has
parameters that the arguments can be converted to. Indexing takes the first getter, whether or not
it is static or the arguments fit.

**Agreement.** If the call gives a getter, then indexing gives the same tree exactly if this getter
is the first one. Otherwise indexing is refused, even though the arguments fit another getter, or it
reads a static one (`bind_index_of_getter`).
-/

set_option autoImplicit false

namespace ExprImports.Binding

open Surface

/-! ## The first getter and the first method that fits -/

section Candidates

variable {catalog : Catalog} {arguments : List Tree}

theorem firstApplicable?_cons (method : Method) (rest : List Method) :
    firstApplicable? catalog arguments (method :: rest) =
      ((catalog.convertAll? arguments method.parameters).map (method, ·)).or
        (firstApplicable? catalog arguments rest) := by
  unfold firstApplicable?
  rw [List.findSome?_cons]
  cases catalog.convertAll? arguments method.parameters <;> rfl

/-- If the method chosen is a getter, then the first getter is this method, or it is passed over
because it is static or the arguments do not fit. -/
theorem passed_over_of_chosen {methods : List Method} {first method : Method}
    {converted : List Tree} (isFirst : methods.find? (·.isIndexer) = some first)
    (chosen : firstApplicable? catalog arguments (methods.filter fun candidate =>
      candidate.isStatic = false) = some (method, converted))
    (isGetter : method.isIndexer = true) :
    first = method ∨ first.isStatic = true ∨
      catalog.convertAll? arguments first.parameters = none := by
  induction methods with
  | nil => cases isFirst
  | cons candidate rest ih =>
      have pass (passed : candidate.isStatic = true ∨
            catalog.convertAll? arguments candidate.parameters = none)
          (later : firstApplicable? catalog arguments (rest.filter fun candidate =>
            candidate.isStatic = false) = some (method, converted)) :
          first = method ∨ first.isStatic = true ∨
            catalog.convertAll? arguments first.parameters = none := by
        cases getter : candidate.isIndexer with
        | true =>
            rw [List.find?_cons_of_pos getter] at isFirst
            cases isFirst
            exact .inr passed
        | false =>
            rw [List.find?_cons_of_neg (by simp [getter])] at isFirst
            exact ih isFirst later
      cases static : candidate.isStatic with
      | true =>
          rw [List.filter_cons_of_neg (by simp [static])] at chosen
          exact pass (.inl static) chosen
      | false =>
          rw [List.filter_cons_of_pos (by simp [static]), firstApplicable?_cons] at chosen
          cases fits : catalog.convertAll? arguments candidate.parameters with
          | none =>
              rw [fits, Option.map_none, Option.none_or] at chosen
              exact pass (.inr fits) chosen
          | some taken =>
              rw [fits, Option.map_some, Option.some_or] at chosen
              cases chosen
              rw [List.find?_cons_of_pos isGetter] at isFirst
              exact .inl (Option.some.inj isFirst).symm

end Candidates

/-! ## Both ways of reading -/

variable {context : Context} {target : Expression} {arguments : List Expression}

/-- A call through a receiver is that of the first method that is not static and that the arguments
fit. -/
theorem chosen_of_bind_call {name : String} {span : Span} {receiver : Tree} {method : Method}
    {converted : List Tree}
    (called : bind context (.methodCall target name arguments span) =
      .ok (.call receiver method converted method.returnType)) :
    bind context target = .ok receiver ∧ ∃ trees, BoundAll context arguments trees ∧
      firstApplicable? context.catalog trees
        ((context.catalog.findMethods receiver.type name).filter fun candidate =>
          candidate.isStatic = false) = some (method, converted) := by
  cases binds_of_bind called with
  | methodCall before bound made =>
      obtain ⟨chosenMethod, _, chosen, same⟩ := bindCall_eq_ok_iff.mp made
      cases before with
      | type isType => cases same
      | value isValue boundTarget =>
          cases same
          exact ⟨boundTarget, _, bound, chosen⟩

/-- **Indexing reads the first getter, calling the first one that fits.** If a call by name reads an
indexed property of a value that is no array, then indexing the value gives the same tree exactly if
the getter is the first one of the type. If it is not, then indexing is refused, or it reads a
static property. -/
theorem bind_index_of_getter {span : Span} {receiver : Tree} {method : Method}
    {converted : List Tree}
    (called : bind context (.methodCall target Catalog.indexerName arguments span) =
      .ok (.call receiver method converted method.returnType))
    (isGetter : method.isIndexer = true)
    (noArray : context.catalog.element? receiver.type = none) (place : Span) :
    ∃ first, context.catalog.findIndexer? receiver.type = some first ∧
      (bind context (.index target arguments place) =
          .ok (.call receiver method converted method.returnType) ↔ first = method) ∧
      (first = method ∨
        bind context (.index target arguments place) =
          fail place (.noOverload receiver.type first.name arguments.length) ∨
        first.isStatic = true ∧ ∃ fitted,
          bind context (.index target arguments place) =
            .ok (.call receiver first fitted first.returnType)) := by
  obtain ⟨bound, trees, boundArguments, chosen⟩ := chosen_of_bind_call called
  obtain ⟨candidate, fits⟩ := firstApplicable?_spec chosen
  obtain ⟨first, isFirst⟩ := Option.isSome_iff_exists.mp
    (List.find?_isSome.mpr ⟨method, (List.mem_filter.mp candidate).1, isGetter⟩)
  have indexed := bind_index_of_findIndexer? place bound (bindAll_eq_ok_iff.mpr boundArguments)
    noArray isFirst
  refine ⟨first, isFirst, ⟨fun same => ?_, ?_⟩, ?_⟩
  · rw [indexed] at same
    split at same <;> cases same
    rfl
  · rintro rfl
    rw [indexed, fits]
  · obtain same | static | unfit := passed_over_of_chosen isFirst chosen isGetter
    · exact .inl same
    · rw [indexed]
      cases context.catalog.convertAll? trees first.parameters with
      | none => exact .inr (.inl rfl)
      | some fitted => exact .inr (.inr ⟨static, fitted, rfl⟩)
    · rw [indexed, unfit]
      exact .inr (.inl rfl)

/-! ## A type with two indexed properties -/

namespace Table

def table : TypeId := .entry 16

/-- The getter of the cells by their name. -/
def cellNamed : Method :=
  { name := Catalog.indexerName, declaringType := table, parameters := [CoreType.string]
    returnType := CoreType.string, kind := .indexer false }

/-- The getter of the cells by their position. -/
def cellAt : Method :=
  { name := Catalog.indexerName, declaringType := table, parameters := [CoreType.int32]
    returnType := CoreType.string, kind := .indexer false }

/-- The initial catalog with one more class, which has cells by their name and by their
position. -/
def catalog : Catalog :=
  let declared := (Catalog.initial.define {
    name := "Table", namespaceName := "Contoso.Crm", assembly := coreAssembly, kind := .classType
    base := some CoreType.object }).2
  let named := declared.addIndexer table [CoreType.string] CoreType.string false
  named.addIndexer table [CoreType.int32] CoreType.string false

/-- A context with one variable of the class. -/
def tableContext : Context :=
  { catalog := catalog, environment := { innermost := [("table", table)] } }

def tableRead : Expression :=
  .identifier "table" ⟨0, 5⟩

/-- The expression `table.get_Item(0)`. -/
def calledCell : Expression :=
  .methodCall tableRead Catalog.indexerName [.literal (.integer 0) ⟨15, 1⟩] ⟨0, 17⟩

/-- The expression `table[0]`. -/
def indexedCell : Expression :=
  .index tableRead [.literal (.integer 0) ⟨6, 1⟩] ⟨0, 8⟩

def zero : Tree :=
  .constant (.literal (.integer 0) CoreType.int32) CoreType.int32

/-- The tree of `table.get_Item(0)`. -/
def cellTree : Tree :=
  .call (.parameter ⟨"table", table⟩) cellAt [zero] CoreType.string

theorem chosen_cellAt : firstApplicable? catalog [zero] [cellNamed, cellAt] =
    some (cellAt, [zero]) := by
  have noText : catalog.converts zero.type CoreType.string = false := by decide +kernel
  have unfit : zero.convert? catalog CoreType.string = none := by
    rw [Tree.convert?, if_neg (by decide), if_neg (by decide), noText]
    rfl
  have fits : catalog.convertAll? [zero] cellAt.parameters = some [zero] :=
    convertAll?_of_types catalog [zero]
  rw [firstApplicable?_cons, firstApplicable?_cons, fits, cellNamed, Catalog.convertAll?, unfit]
  rfl

theorem bind_calledCell : bind tableContext calledCell = .ok cellTree := by
  have bound : bind tableContext tableRead = .ok (.parameter ⟨"table", table⟩) :=
    bind_identifier _ (by decide)
  have arguments : BoundAll tableContext [.literal (.integer 0) ⟨15, 1⟩] [zero] :=
    bindAll_eq_ok_iff.mp rfl
  have methods : tableContext.catalog.findMethods table Catalog.indexerName =
      [cellNamed, cellAt] := by decide +kernel
  refine bind_eq_ok_iff.mpr (.methodCall (.value rfl bound) arguments ?_)
  refine bindCall_eq_ok_iff.mpr ⟨cellAt, [zero], ?_, rfl⟩
  dsimp only [Receiver.lookupType, Tree.type]
  rw [methods]
  exact chosen_cellAt

end Table

/-- The cell is read by calling the getter for positions, and the index is refused, because the
getter for names comes first. -/
theorem indexedCell_refused :
    bind Table.tableContext Table.calledCell = .ok Table.cellTree ∧
      Table.cellAt.isIndexer = true ∧ Table.tableContext.catalog.element? Table.table = none ∧
        bind Table.tableContext Table.indexedCell =
          fail ⟨0, 8⟩ (.noOverload Table.table Catalog.indexerName 1) := by
  have noArray : Table.tableContext.catalog.element? Table.table = none := by decide +kernel
  have isFirst : Table.tableContext.catalog.findIndexer? Table.table = some Table.cellNamed := by
    decide +kernel
  obtain ⟨first, found, _, readings⟩ :=
    bind_index_of_getter Table.bind_calledCell rfl noArray ⟨0, 8⟩
  obtain rfl := Option.some.inj (isFirst.symm.trans found)
  refine ⟨Table.bind_calledCell, rfl, noArray, ?_⟩
  obtain same | refused | ⟨static, _⟩ := readings
  · exact absurd same (by decide)
  · exact refused
  · cases static

end ExprImports.Binding
