import ExprImports.Proofs.Closure.Coverage
import ExprImports.Proofs.Schema.Loading

/-!
# The imports of what a text names

The tree of every part of an expression that is evaluated occurs in the tree of the whole,
unless it is a null (`exists_of_evaluates`). A part that names a type leaves a node that
contributes a type directly: the named one itself, except before a dot, where the type that
declares the static member or method takes its place (`ProvidedBy`). What is contributed
directly is always collected, so its import record is among the imports
(`provider_imported`).

The declaring type may be a base type of the named one. Then nothing in the tree mentions
the named type, and it may lack its record (`order_not_imported`).
-/

set_option autoImplicit false

namespace ExprImports

/-! ## The trees of the parts -/

theorem Tree.Occurs.trans {inner middle outer : Tree} (first : inner.Occurs middle)
    (second : middle.Occurs outer) : inner.Occurs outer := by
  induction second with
  | root => exact first
  | inChild isChild _ ih => exact .inChild isChild ih

/-- The tree occurs in the other one, or it is a null. -/
def Tree.Remains (tree whole : Tree) : Prop :=
  tree.Occurs whole ∨ tree.isNull = true

theorem Tree.Remains.trans {inner middle outer : Tree} (first : inner.Remains middle)
    (second : middle.Remains outer) : inner.Remains outer := by
  rcases first with inside | isNull
  · rcases second with further | isNull
    · exact .inl (inside.trans further)
    · exact .inr (Tree.eq_of_occurs_null isNull inside ▸ isNull)
  · exact .inr isNull

theorem Tree.remains_of_child {tree child whole : Tree} (isChild : child ∈ whole.children)
    (remains : tree.Remains child) : tree.Remains whole :=
  remains.imp_left (.inChild isChild)

theorem Tree.remains_of_convertsTo {tree result : Tree} {target : TypeId}
    (converts : tree.ConvertsTo target result) : tree.Remains result := by
  cases converts with
  | same => exact .inl .root
  | null isNull => exact .inr isNull
  | convert => exact .inl (.inChild List.mem_cons_self .root)

namespace Binding

open Surface

variable {context : Context}

theorem remains_of_assembles {expression : Expression} {parts : List Tree} {tree : Tree}
    (assembles : Assembles context expression parts tree) : ∀ part ∈ parts, part.Remains tree := by
  intro part isPart
  obtain ⟨child, isChild, target, converts⟩ :=
    exists_of_mem_left (becomeAll_of_assembles assembles) part isPart
  exact Tree.remains_of_child isChild (Tree.remains_of_convertsTo converts)

/-- **Every part that is evaluated leaves its tree in the whole, unless it is a null.** -/
theorem exists_of_evaluates (owned : context.catalog.Owned) {part whole : Expression}
    (evaluates : context.Evaluates part whole) {tree : Tree}
    (bound : bind context whole = .ok tree) :
    ∃ partTree, bind context part = .ok partTree ∧ partTree.Remains tree := by
  induction evaluates generalizing tree with
  | root => exact ⟨tree, bound, .inl .root⟩
  | inPart isPart _ ih =>
      obtain ⟨trees, boundParts, assembles⟩ := exists_assembles owned bound
      obtain ⟨child, isChild, boundChild⟩ := exists_of_mem_written boundParts isPart
      obtain ⟨partTree, boundPart, remains⟩ := ih boundChild
      exact ⟨partTree, boundPart, remains.trans (remains_of_assembles assembles child isChild)⟩

/-- What remains of a part is put together from the trees of its own parts. -/
theorem remains_of_evaluates (owned : context.catalog.Owned) {part whole : Expression}
    (evaluates : context.Evaluates part whole) {tree : Tree}
    (bound : bind context whole = .ok tree) :
    ∃ parts partTree, Assembles context part parts partTree ∧ partTree.Remains tree := by
  obtain ⟨partTree, boundPart, remains⟩ := exists_of_evaluates owned evaluates bound
  obtain ⟨parts, _, assembles⟩ := exists_assembles owned boundPart
  exact ⟨parts, partTree, assembles, remains⟩

/-! ## What provides for a named type -/

/-- The type whose import record provides for a type that a part of a text names: the named
type itself, or before a dot the type that declares the static member or method, which may
be a base type of the named one. An array type has the record of its innermost element. -/
inductive Context.ProvidedBy (context : Context) (named : TypeId) :
    Expression → TypeId → Prop where
  | create (type : TypeName) (arguments : List Expression) (span : Span) :
      ProvidedBy context named (.create type arguments span) named
  | createArray (element : TypeName) (items : List Expression) (span : Span) :
      ProvidedBy context named (.createArray element items span) named
  | typeOf (type : TypeName) (span : Span) : ProvidedBy context named (.typeOf type span) named
  | typeIs (operand : Expression) (type : TypeName) (span : Span) :
      ProvidedBy context named (.typeIs operand type span) named
  | typeAs (operand : Expression) (type : TypeName) (span : Span) :
      ProvidedBy context named (.typeAs operand type span) named
  | member {name : String} {member : Member} (target : Expression) (span : Span)
      (found : context.catalog.findMember? named name = some member)
      (isStatic : member.isStatic = true) (inherited : context.catalog.DeclaresMember named member) :
      ProvidedBy context named (.member target name span)
        (context.catalog.innermost member.declaringType)
  | method {name : String} {method : Method} (target : Expression) (arguments : List Expression)
      (span : Span) (found : method ∈ context.catalog.findMethods named name)
      (isStatic : method.isStatic = true) (inherited : context.catalog.DeclaresMethod named method) :
      ProvidedBy context named (.methodCall target name arguments span)
        (context.catalog.innermost method.declaringType)

theorem Context.isNominal_of_uniqueType? (built : context.catalog.Built) {name : String}
    {type : TypeId} (unique : context.uniqueType? name = some type) :
    context.catalog.IsNominal type := by
  obtain found | ⟨_, found⟩ := Context.findType?_of_uniqueType? unique
  · exact built.regular.isNominal_of_findType? found
  · exact built.regular.isNominal_of_findType? found

/-- A part that names a type contributes what provides for the type, and directly. -/
theorem exists_provider (built : context.catalog.Built) {part : Expression}
    {parts : List Tree} {tree : Tree} (assembles : Assembles context part parts tree)
    {named : TypeId} (isNamed : context.namedBy? part = some named) :
    tree.isNull = false ∧ ∃ provider contributed, context.ProvidedBy named part provider ∧
      tree.Contributes context.catalog contributed true ∧
      context.catalog.StandsFor contributed provider := by
  have itself {name : String} (unique : context.uniqueType? name = some named) :
      context.catalog.StandsFor named named :=
    .itself (Context.isNominal_of_uniqueType? built unique).element?_eq_none
  have declared (type : TypeId) :=
    Closure.standsFor_innermost built.ordered type
  have same {written : TypeName} {type : TypeId} (resolved : context.resolve written = .ok type)
      (unique : context.uniqueType? written.name = some named) : type = named := by
    rw [(Context.resolve_eq_ok_iff.mp resolved).1] at unique
    exact Option.some.inj unique
  cases assembles with
  | staticMember span isType found isStatic =>
      rw [Context.namedBy?, isType] at isNamed
      cases isNamed
      refine ⟨rfl, _, _, .member _ _ found isStatic ?_, .inl (.staticMember _ _), declared _⟩
      exact declaresMember_of_findMember? built.owned found
  | staticCall span isType found isStatic fitting =>
      rw [Context.namedBy?, isType] at isNamed
      cases isNamed
      refine ⟨rfl, _, _, .method _ _ _ found isStatic ?_, .inl (.staticMethod _ _ _), declared _⟩
      exact declaresMethod_of_mem_findMethods built.owned found
  | member span isValue found =>
      rw [Context.namedBy?, isValue] at isNamed
      cases isNamed
  | call span isValue found fitting =>
      rw [Context.namedBy?, isValue] at isNamed
      cases isNamed
  | create span resolved own fitting =>
      obtain rfl := same resolved isNamed
      refine ⟨rfl, _, _, .create _ _ _, .inl (.create _), ?_⟩
      rw [Creation.namedType_of_own own]
      exact itself isNamed
  | createArray span resolved isArray fitting =>
      obtain rfl := same resolved isNamed
      have isElement := (built.reached.interned.array _ _ _ isArray).element?
      exact ⟨rfl, _, _, .createArray _ _ _, .inr (.elements _ _ isElement), itself isNamed⟩
  | typeOf span resolved =>
      obtain rfl := same resolved isNamed
      exact ⟨rfl, _, _, .typeOf _ _, .inl (.typeConstant _ _), itself isNamed⟩
  | typeIs span resolved =>
      obtain rfl := same resolved isNamed
      exact ⟨rfl, _, _, .typeIs _ _ _, .inl (.typeIs _ _ _), itself isNamed⟩
  | typeAs span resolved =>
      obtain rfl := same resolved isNamed
      exact ⟨rfl, _, _, .typeAs _ _ _, .inl (.convert _ _ _), itself isNamed⟩
  | _ => cases isNamed

end Binding

/-! ## Imports -/

theorem ImportSettings.record_mem_ofTypes {catalog : Catalog} {types : List TypeId}
    {type : TypeId} {record : ImportRecord} (inside : type ∈ types)
    (isRecord : recordOf? catalog type = some record) :
    record ∈ (ImportSettings.ofTypes catalog types).records :=
  mem_distinct.mpr (List.mem_filterMap.mpr ⟨type, inside, isRecord⟩)

/-- Types of the same place are provided for by one record. -/
example : ImportSettings.ofTypes Sales.catalog [Sales.order, Sales.coreOrder, Sales.entity] =
    ⟨[⟨"Contoso.Sales", some "Contoso.Sales"⟩, ⟨"Contoso.Core", some "Contoso.Core"⟩]⟩ := by
  decide +kernel

/-- What some node contributes directly is collected, whatever assembly defines it. -/
theorem Tree.mem_typeReferences_of_contributes {catalog : Catalog} (ordered : catalog.Ordered)
    (defaults : DefaultAssemblies) {node tree : Tree} (occurs : node.Occurs tree)
    {contributed type : TypeId} (contributes : node.Contributes catalog contributed true)
    (stands : catalog.StandsFor contributed type) : type ∈ tree.typeReferences catalog defaults := by
  refine (Closure.mem_addAnchors_iff ordered defaults (tree.anchors catalog) type).mpr
    ⟨type, true, ?_, .inl ⟨rfl, .inl rfl⟩⟩
  exact (Tree.mem_anchors_iff ordered).mpr ⟨node, contributed, occurs, contributes, stands⟩

namespace Recompiler

open Binding

/-- **What a text names is provided for.** Of a recompilation that succeeds in a catalog that
the operations build, such as that of a loaded schema, the imports hold the record of what
provides for each type that an evaluated part of the text names, unless the assembly of the
provider is dynamic. -/
theorem provider_imported {recompiler : Recompiler} (surface : recompiler.IsSurface)
    (built : recompiler.catalog.Built) {request : Request} {type : TypeId} {node : Activity}
    {imports : ImportSettings}
    (done : (recompiler.recompile request).1 = .ok (.compiled type node imports)) :
    ∃ expression, SurfaceCompiler.read request.session = .ok expression ∧
      ∀ part named, (recompiler.context request).Evaluates part expression →
        (recompiler.context request).namedBy? part = some named →
          ∃ provider, (recompiler.context request).ProvidedBy named part provider ∧
            ∀ record, ImportSettings.recordOf? recompiler.catalog provider = some record →
              record ∈ imports.records := by
  obtain ⟨_, compiled, compiles, _, _, _, rfl, _⟩ :=
    recompile_eq_compiled_iff.mp (Prod.ext done rfl)
  obtain ⟨expression, tree, isRead, bound, _, retargeted⟩ :=
    exists_bound_of_compile surface compiles
  refine ⟨expression, isRead, fun part named evaluates isNamed => ?_⟩
  have inContext : (recompiler.context request).catalog.Built := built
  obtain ⟨parts, partTree, assembles, remains⟩ :=
    remains_of_evaluates inContext.owned evaluates bound
  obtain ⟨notNull, provider, contributed, provided, contributes, stands⟩ :=
    exists_provider inContext assembles isNamed
  refine ⟨provider, provided, fun record isRecord => ?_⟩
  have inBody : partTree.Remains compiled.body := by
    rcases retargeted with same | ⟨target, _, converts⟩
    · exact same ▸ remains
    · exact remains.trans (Tree.remains_of_convertsTo converts)
  have occurs : partTree.Occurs compiled.body := inBody.resolve_right (by rw [notNull]; nofun)
  exact ImportSettings.record_mem_ofTypes
    (Tree.mem_typeReferences_of_contributes built.ordered _ occurs contributes stands) isRecord

end Recompiler

namespace Sales

open Binding Surface

/-- The request to compile the count of all entities, as it is reached through an order. -/
def count : Request :=
  { text := "Contoso.Sales.Order.Count", language := SurfaceCompiler.language }

/-- What stands before the last dot. -/
def orderPath : Expression :=
  .member (.member (.identifier "Contoso" ⟨0, 7⟩) "Sales" ⟨0, 13⟩) "Order" ⟨0, 19⟩

/-- What the text is read as. -/
def countRead : Expression :=
  .member orderPath "Count" ⟨0, 25⟩

/-- The static property, which orders inherit. -/
def entityCount : Member :=
  { name := "Count", declaringType := entity, type := CoreType.int32, kind := .property false
    isStatic := true }

def countCompiled : Compiled :=
  { parameters := [], body := .staticAccess entityCount CoreType.int32
    returnType := CoreType.int32 }

def countNode : Activity :=
  { mode := .value, resultType := CoreType.int32, language := SurfaceCompiler.language
    text := "Contoso.Sales.Order.Count" }

def countContext : Context := recompiler.context count

theorem receiver_order : countContext.receiverType? orderPath = some order := by decide +kernel

theorem found_count : countContext.catalog.findMember? order "Count" = some entityCount := by
  decide +kernel

theorem read_count : SurfaceCompiler.read count.session = .ok countRead := by with_unfolding_all rfl

theorem bind_count : bind countContext countRead = .ok countCompiled.body :=
  bind_eq_ok_iff.mpr (.member (.type receiver_order (by decide +kernel))
    (bindMember_eq_ok_iff.mpr ⟨entityCount, found_count, rfl, rfl⟩))

/-- All that is imported is the namespace of entities. -/
theorem recompile_count : (recompiler.recompile count).1 =
    .ok (.compiled CoreType.int32 countNode ⟨[⟨"Contoso.Core", some "Contoso.Core"⟩]⟩) := by
  have compiles : recompiler.compile count = .ok countCompiled :=
    (Recompiler.compile_eq_ok_iff isSurface_recompiler rfl).mpr
      ⟨countRead, read_count, compile_of_bind bind_count⟩
  have imports : ImportSettings.ofTypes catalog
      (countCompiled.body.typeReferences catalog .builtin) =
        ⟨[⟨"Contoso.Core", some "Contoso.Core"⟩]⟩ := by decide +kernel
  exact imports ▸ Recompiler.recompile_ofCompiler compiles rfl rfl rfl (by decide +kernel)
    (by decide +kernel)

end Sales

/-- The count of entities as a static member of orders: the imports provide for the entities,
which declare it, and have no record of the orders, which the text names. -/
theorem order_not_imported :
    Sales.countContext.namedBy? Sales.countRead = some Sales.order ∧
      Sales.countContext.ProvidedBy Sales.order Sales.countRead Sales.entity ∧
      ∃ node imports, (Sales.recompiler.recompile Sales.count).1 =
          .ok (.compiled CoreType.int32 node imports) ∧
        ⟨"Contoso.Core", some "Contoso.Core"⟩ ∈ imports.records ∧
        ⟨"Contoso.Sales", some "Contoso.Sales"⟩ ∉ imports.records := by
  obtain ⟨expression, isRead, provides⟩ := Recompiler.provider_imported
    Sales.isSurface_recompiler Sales.built_catalog Sales.recompile_count
  obtain rfl : expression = Sales.countRead := by
    rw [Sales.read_count] at isRead
    exact (Except.ok.inj isRead).symm
  have isNamed : Sales.countContext.namedBy? Sales.countRead = some Sales.order :=
    Sales.receiver_order
  obtain ⟨provider, provided, recorded⟩ := provides _ _ .root isNamed
  obtain rfl : provider = Sales.entity := by
    cases provided with
    | member _ _ found isStatic inherited =>
        obtain rfl := Option.some.inj (found.symm.trans Sales.found_count)
        exact Closure.innermost_eq_self (by decide +kernel)
  exact ⟨isNamed, provided, _, _, Sales.recompile_count, recorded _ (by decide +kernel),
    by decide⟩

end ExprImports
