import ExprImports.Proofs.Recompilation.Stages

/-!
# Compiling a text again with its imports

The namespaces of the imports come back as hints when a saved text is compiled again. They
are not looked at but for the names of types, so the outcome is the same if every name that
the text looks up still stands for what it stood for (`replay_eq`). The factory that the
first compilation left behind is the one that would be made again.

A further namespace may offer a second type for a short name. Then the name is ambiguous,
and the text does not compile any more with its own imports (`replay_fails`).
-/

set_option autoImplicit false

namespace ExprImports

/-! ## Other namespaces -/

namespace Binding

open Surface

/-- The context with other namespaces. -/
def Context.searching (context : Context) (namespaces : List String) : Context :=
  { context with namespaces }

/-- With the other namespaces every evaluated part of the expression names what it names
without them. -/
def Context.KeepsNames (context : Context) (namespaces : List String) (expression : Expression) :
    Prop :=
  ∀ part, context.Evaluates part expression →
    (context.searching namespaces).namedBy? part = context.namedBy? part

variable {context : Context} {namespaces : List String}

theorem Context.KeepsNames.here {expression : Expression}
    (keeps : context.KeepsNames namespaces expression) :
    (context.searching namespaces).namedBy? expression = context.namedBy? expression :=
  keeps expression .root

theorem Context.KeepsNames.part {whole part : Expression}
    (keeps : context.KeepsNames namespaces whole) (isPart : part ∈ context.valueParts whole) :
    context.KeepsNames namespaces part :=
  fun inner inside => keeps inner (.inPart isPart inside)

theorem resolve_searching {named : TypeName} {type : TypeId}
    (same : (context.searching namespaces).uniqueType? named.name = context.uniqueType? named.name)
    (done : context.resolve named = .ok type) :
    (context.searching namespaces).resolve named = .ok type := by
  obtain ⟨unique, visible⟩ := Context.resolve_eq_ok_iff.mp done
  exact Context.resolve_eq_ok_iff.mpr ⟨same.trans unique, visible⟩

/-- What stands before a dot is found again if it is evaluated and bound again. -/
theorem bindsReceiver_searching {target : Expression} {receiver : Receiver}
    (same : (context.searching namespaces).receiverType? target = context.receiverType? target)
    (before : BindsReceiver context target receiver)
    (again : ∀ part ∈ context.receiverParts target, ∀ tree : Tree,
      bind context part = .ok tree → bind (context.searching namespaces) part = .ok tree) :
    BindsReceiver (context.searching namespaces) target receiver := by
  cases before with
  | type isType visible => exact .type (same.trans isType) visible
  | value isValue bound =>
      exact .value (same.trans isValue)
        (again target (Context.mem_receiverParts_self isValue) _ bound)

theorem boundAll_searching {expressions : List Expression} {trees : List Tree}
    (bound : BoundAll context expressions trees)
    (again : ∀ part ∈ expressions, ∀ tree : Tree,
      bind context part = .ok tree → bind (context.searching namespaces) part = .ok tree) :
    BoundAll (context.searching namespaces) expressions trees := by
  induction bound with
  | nil => exact .nil
  | cons bound _ ih =>
      obtain ⟨here, later⟩ := List.forall_mem_cons.mp again
      exact .cons (here _ bound) (ih later)

theorem boundItems_searching {element : TypeId} {items : List Expression} {trees : List Tree}
    (bound : BoundItems context element items trees)
    (again : ∀ part ∈ items, ∀ tree : Tree,
      bind context part = .ok tree → bind (context.searching namespaces) part = .ok tree) :
    BoundItems (context.searching namespaces) element items trees := by
  induction bound with
  | nil => exact .nil
  | cons isBound _ ih =>
      obtain ⟨here, later⟩ := List.forall_mem_cons.mp again
      obtain ⟨source, bound, coerced⟩ := isBound
      exact .cons ⟨source, here _ bound, coerced⟩ (ih later)

/-- **Names decide.** A text is bound to the same tree with other namespaces if all that it
names stays what it is. The induction follows the parts that are evaluated. -/
theorem bind_searching {expression : Expression} {tree : Tree}
    (keeps : context.KeepsNames namespaces expression)
    (done : bind context expression = .ok tree) :
    bind (context.searching namespaces) expression = .ok tree := by
  revert keeps
  refine binds_induction (motive := fun expression tree =>
    context.KeepsNames namespaces expression →
      bind (context.searching namespaces) expression = .ok tree)
    (fun {expression tree} binds ih keeps => ?_) done
  have here := keeps.here
  have again (part : Expression) (isPart : part ∈ context.valueParts expression) (below : Tree)
      (bound : bind context part = .ok below) :
      bind (context.searching namespaces) part = .ok below :=
    ih part isPart below bound (keeps.part isPart)
  refine bind_eq_ok_iff.mpr ?_
  cases binds with
  | literal value span => exact .literal value span
  | identifier known => exact .identifier known
  | member before made => exact .member (bindsReceiver_searching here before again) made
  | methodCall before bound made =>
      refine .methodCall (bindsReceiver_searching here before fun part isPart => ?_)
        (boundAll_searching bound fun part isPart => ?_) made
      · exact again part (List.mem_append_left _ isPart)
      · exact again part (List.mem_append_right _ isPart)
  | index before bound made =>
      refine .index (again _ List.mem_cons_self _ before)
        (boundAll_searching bound fun part isPart => ?_) made
      exact again part (List.mem_cons_of_mem _ isPart)
  | create resolved bound made =>
      exact .create (resolve_searching here resolved) (boundAll_searching bound again) made
  | createArray resolved isArray bound =>
      exact .createArray (resolve_searching here resolved) isArray
        (boundItems_searching bound again)
  | typeOf resolved => exact .typeOf (resolve_searching here resolved)
  | typeIs bound resolved =>
      exact .typeIs (again _ List.mem_cons_self _ bound) (resolve_searching here resolved)
  | typeAs bound resolved reference =>
      exact .typeAs (again _ List.mem_cons_self _ bound) (resolve_searching here resolved)
        reference
  | unary bound made => exact .unary (again _ List.mem_cons_self _ bound) made
  | binary boundLeft boundRight made =>
      exact .binary (again _ List.mem_cons_self _ boundLeft)
        (again _ (List.mem_cons_of_mem _ List.mem_cons_self) _ boundRight) made
  | conditional boundTest isTruth boundTrue boundFalse made =>
      exact .conditional (again _ List.mem_cons_self _ boundTest) isTruth
        (again _ (List.mem_cons_of_mem _ List.mem_cons_self) _ boundTrue)
        (again _ (List.mem_cons_of_mem _ (List.mem_cons_of_mem _ List.mem_cons_self)) _ boundFalse)
        made
  | assign boundTarget boundValue fits =>
      exact .assign (again _ List.mem_cons_self _ boundTarget)
        (again _ (List.mem_cons_of_mem _ List.mem_cons_self) _ boundValue) fits

/-! ## More namespaces -/

/-- A name under which two types are found stands for none. -/
theorem Context.uniqueType?_eq_none {name : String} {first second : TypeId}
    (different : first ≠ second) (one : first ∈ context.candidates name)
    (other : second ∈ context.candidates name) : context.uniqueType? name = none := by
  unfold Context.uniqueType?
  split
  · rename_i single
    rw [single, List.mem_singleton] at one other
    exact absurd (one.trans other.symm) different
  · rfl

section More

variable (more : context.namespaces ⊆ namespaces)
include more

/-- Nothing that a name may stand for is lost. -/
theorem candidates_searching (name : String) :
    context.candidates name ⊆ (context.searching namespaces).candidates name := by
  cases found : context.catalog.findType? (expandAlias name) with
  | some type =>
      have same : (context.searching namespaces).catalog.findType? (expandAlias name) =
          some type := found
      rw [Context.candidates, Context.candidates, found, same]
      exact List.Subset.refl _
  | none =>
      intro type inside
      obtain ⟨place, isSearched, offered⟩ := (Context.mem_candidates_iff found).mp inside
      have same : (context.searching namespaces).catalog.findType? (expandAlias name) = none :=
        found
      exact (Context.mem_candidates_iff same).mpr ⟨place, isSearched.imp_right (more ·), offered⟩

/-- A name that stands for a type stands for the same one or becomes ambiguous. -/
theorem uniqueType?_searching {name : String} {type : TypeId}
    (unique : context.uniqueType? name = some type) :
    (context.searching namespaces).uniqueType? name = some type ∨
      (context.searching namespaces).uniqueType? name = none := by
  have offered := candidates_searching more name (Context.mem_candidates_of_uniqueType? unique)
  unfold Context.uniqueType?
  split
  · rename_i single
    rw [single] at offered
    exact .inl (congrArg some (List.mem_singleton.mp offered).symm)
  · exact .inr rfl

theorem receiverType?_searching {target : Expression} {type : TypeId}
    (isType : context.receiverType? target = some type) :
    (context.searching namespaces).receiverType? target = some type ∨
      (context.searching namespaces).receiverType? target = none := by
  unfold Context.receiverType? at isType
  split at isType
  · rename_i root path isRoot isPath
    split at isType
    · cases isType
    · rename_i free
      have free : ¬ ((context.searching namespaces).environment.lookup root).isSome = true := free
      simp only [Context.receiverType?, isRoot, isPath, if_neg free]
      exact uniqueType?_searching more isType
  · cases isType

/-- **A type that is named before is named again, unless its name has become ambiguous.** -/
theorem namedBy?_searching {part : Expression} {type : TypeId}
    (isNamed : context.namedBy? part = some type) :
    (context.searching namespaces).namedBy? part = some type ∨
      (context.searching namespaces).namedBy? part = none := by
  cases part with
  | member | methodCall =>
      rw [Context.namedBy?] at isNamed ⊢
      exact receiverType?_searching more isNamed
  | create | createArray | typeOf | typeIs | typeAs =>
      rw [Context.namedBy?] at isNamed ⊢
      exact uniqueType?_searching more isNamed
  | _ => cases isNamed

end More

end Binding

/-! ## The imports as hints -/

/-- The hints with the namespaces of all import records. -/
def ImportHints.withImports (hints : ImportHints) (imports : ImportSettings) : ImportHints :=
  (imports.records.filterMap (·.namespaceName)).foldl addNamespace hints

/-- Names of namespaces are added without the blanks around them, and blank ones are not. -/
theorem ImportHints.foldl_addNamespace_eq (entries : List String) (hints : ImportHints) :
    entries.foldl addNamespace hints =
      { hints with
        namespaces := ((entries.map Text.trim).filter (· ≠ "")).foldl insertNew
          hints.namespaces } := by
  induction entries generalizing hints with
  | nil => rfl
  | cons entry rest ih =>
      rw [List.foldl_cons, ih, addNamespace]
      by_cases isBlank : Text.trim entry = ""
      · simp [isBlank]
      · simp [isBlank]

/-- Further namespaces change neither the assemblies nor the namespaces that are there. -/
theorem ImportHints.foldl_addNamespace_keeps (hints : ImportHints) (names : List String) :
    (names.foldl addNamespace hints).assemblies = hints.assemblies ∧
      hints.namespaces ⊆ (names.foldl addNamespace hints).namespaces := by
  rw [foldl_addNamespace_eq]
  exact ⟨rfl, fun name known => mem_foldl_insertNew.mpr (.inl known)⟩

/-- A namespace that is already a hint stays where it is, and a blank one is none. -/
example : ["Contoso.Core", " ", "Contoso.Sales"].foldl ImportHints.addNamespace
    { namespaces := ["Contoso.Sales"] } = { namespaces := ["Contoso.Sales", "Contoso.Core"] } := by
  decide +kernel

/-- The same request with the namespaces of the imports as further hints. -/
def Request.replay (request : Request) (imports : ImportSettings) : Request :=
  { request with hints := request.hints.withImports imports }

/-! ## The factory that is left behind -/

/-- The factory of a type is found again in the registry that remembers it. -/
theorem FactoryRegistry.resolve_again (registry : FactoryRegistry) (catalog : Catalog)
    (type : TypeId) :
    ((registry.resolve catalog type).2.resolve catalog type).1 =
      (registry.resolve catalog type).1 := by
  cases isOrigin : registry.origin catalog type with
  | made factory =>
      have remembered : ({ registry with cached := (type, factory) :: registry.cached } :
          FactoryRegistry).origin catalog type = .cached factory := by
        unfold origin at isOrigin ⊢
        split at isOrigin
        · cases isOrigin
        · rename_i known
          split at isOrigin
          · cases isOrigin
          · rename_i unregistered
            rw [if_neg known]
            dsimp only
            rw [unregistered, List.lookup_cons_self]
      simp only [resolve, isOrigin, remembered]
  | _ => simp only [resolve, isOrigin]

theorem FactoryRegistry.materialize_again (registry : FactoryRegistry) (catalog : Catalog)
    (type : TypeId) (mode : Mode) (text : String) :
    ((registry.materialize catalog type mode text).2.materialize catalog type mode text).1 =
      (registry.materialize catalog type mode text).1 :=
  congrArg (fun found => found.bind fun factory =>
    (factory.build mode text).bind (checkNode catalog type mode))
      (registry.resolve_again catalog type)

/-! ## Compiling again -/

namespace Recompiler

open Binding

theorem context_hints {recompiler : Recompiler} {request : Request} {hints : ImportHints}
    (sameAssemblies : hints.assemblies = request.hints.assemblies) :
    recompiler.context { request with hints } =
      (recompiler.context request).searching hints.namespaces := by
  simp only [context, SurfaceCompiler.context, Request.session, sameAssemblies, Context.searching]

theorem compile_hints {recompiler : Recompiler} (surface : recompiler.IsSurface)
    {request : Request} (inferred : request.target = none) {hints : ImportHints}
    (sameAssemblies : hints.assemblies = request.hints.assemblies)
    {expression : Surface.Expression}
    (isRead : SurfaceCompiler.read request.session = .ok expression)
    (keeps : (recompiler.context request).KeepsNames hints.namespaces expression)
    {compiled : Compiled}
    (done : Binding.compile (recompiler.context request) expression = .ok compiled) :
    recompiler.compile { request with hints } = .ok compiled := by
  have inferredAgain : ({ request with hints } : Request).target = none := inferred
  refine (compile_eq_ok_iff surface inferredAgain).mpr ⟨expression, isRead, ?_⟩
  obtain ⟨tree, bound, done⟩ := exists_of_bind_eq_ok done
  cases done
  rw [context_hints sameAssemblies]
  exact compile_of_bind (bind_searching keeps bound)

/-- Whether an expression can be assigned to does not depend on hints. -/
theorem locationFault?_hints {recompiler : Recompiler} {request : Request} {hints : ImportHints}
    {compiled : Compiled} (standing : recompiler.locationFault? request compiled = none) :
    recompiler.locationFault? { request with hints } compiled = none := by
  unfold locationFault? at standing
  split at standing
  · cases standing
  · rename_i standsThere
    unfold locationFault?
    split
    · rename_i obstacle toBeAssigned notLocation
      exact absurd notLocation (standsThere obstacle toBeAssigned)
    · rfl

/-- **A text compiles again with its own imports.** A part that names a type names the same
type with them, unless its name has become ambiguous. If every part names what it named
before, then the outcome is the same, with the factories that there were before as well as
with those that are left behind. -/
theorem replay_eq {recompiler : Recompiler} (surface : recompiler.IsSurface)
    {request : Request} (inferred : request.target = none) {type : TypeId} {node : Activity}
    {imports : ImportSettings} {left : FactoryRegistry}
    (done : recompiler.recompile request = (.ok (.compiled type node imports), left)) :
    ∃ expression, SurfaceCompiler.read request.session = .ok expression ∧
      (∀ part named, (recompiler.context request).namedBy? part = some named →
        (recompiler.context (request.replay imports)).namedBy? part = some named ∨
          (recompiler.context (request.replay imports)).namedBy? part = none) ∧
      ((∀ part, (recompiler.context request).Evaluates part expression →
          (recompiler.context (request.replay imports)).namedBy? part =
            (recompiler.context request).namedBy? part) →
        (recompiler.recompile (request.replay imports)).1 = .ok (.compiled type node imports) ∧
        ({ recompiler with factories := left }.recompile (request.replay imports)).1 =
          .ok (.compiled type node imports)) := by
  obtain ⟨sameLanguage, compiled, compiles, typed, hits, standing, isImports, made⟩ :=
    recompile_eq_compiled_iff.mp done
  obtain ⟨expression, isRead, binds⟩ := (compile_eq_ok_iff surface inferred).mp compiles
  obtain ⟨sameAssemblies, more⟩ := request.hints.foldl_addNamespace_keeps
    (imports.records.filterMap (·.namespaceName))
  have searching : recompiler.context (request.replay imports) =
      (recompiler.context request).searching (request.hints.withImports imports).namespaces :=
    context_hints sameAssemblies
  rw [searching]
  refine ⟨expression, isRead, fun part named => namedBy?_searching more, fun keeps => ?_⟩
  have again : recompiler.compile (request.replay imports) = .ok compiled :=
    compile_hints surface inferred sameAssemblies isRead keeps binds
  have standingAgain : recompiler.locationFault? (request.replay imports) compiled = none :=
    locationFault?_hints standing
  have remembered := recompiler.factories.materialize_again recompiler.catalog type
    request.mode request.text
  rw [made] at remembered
  have first : recompiler.recompile (request.replay imports) =
      (.ok (.compiled type node imports), left) :=
    recompile_eq_compiled_iff.mpr
      ⟨sameLanguage, compiled, again, typed, hits, standingAgain, isImports, made⟩
  have second : ({ recompiler with factories := left } : Recompiler).recompile
      (request.replay imports) = (.ok (.compiled type node imports),
        (left.materialize recompiler.catalog type request.mode request.text).2) :=
    recompile_eq_compiled_iff.mpr
      ⟨sameLanguage, compiled, again, typed, hits, standingAgain, isImports,
        Prod.ext remembered rfl⟩
  exact ⟨congrArg Prod.fst first, congrArg Prod.fst second⟩

end Recompiler

namespace Sales

open Binding Surface

/-- The request for the type of orders, by whatever name. -/
def typeOfOrder (text : String) (namespaces : List String) : Request :=
  { text, language := SurfaceCompiler.language, hints := { namespaces } }

/-- The type of orders as a value. -/
def orderCompiled : Compiled :=
  { parameters := [], body := .constant (.type order) CoreType.type, returnType := CoreType.type }

/-- The imports of the type of orders, and of entities above it. -/
def orderImports : ImportSettings :=
  ⟨[⟨"Contoso.Sales", some "Contoso.Sales"⟩, ⟨"Contoso.Core", some "Contoso.Core"⟩]⟩

def orderNode (text : String) : Activity :=
  { mode := .value, resultType := CoreType.type, language := SurfaceCompiler.language, text }

/-- A text that is read as the type of orders under some name compiles. -/
theorem recompile_typeOfOrder {text : String} {namespaces : List String} {named : TypeName}
    {span : Span}
    (isRead : SurfaceCompiler.read (typeOfOrder text namespaces).session =
      .ok (.typeOf named span))
    (resolved : (recompiler.context (typeOfOrder text namespaces)).resolve named = .ok order) :
    (recompiler.recompile (typeOfOrder text namespaces)).1 =
      .ok (.compiled CoreType.type (orderNode text) orderImports) := by
  have bound : bind (recompiler.context (typeOfOrder text namespaces)) (.typeOf named span) =
      .ok orderCompiled.body := by
    rw [Binding.bind, resolved]
    rfl
  have compiles : recompiler.compile (typeOfOrder text namespaces) = .ok orderCompiled :=
    (Recompiler.compile_eq_ok_iff isSurface_recompiler rfl).mpr
      ⟨_, isRead, compile_of_bind bound⟩
  have imports : ImportSettings.ofTypes catalog
      (orderCompiled.body.typeReferences catalog .builtin) = orderImports := by decide +kernel
  exact imports ▸ Recompiler.recompile_ofCompiler compiles rfl rfl rfl (by decide +kernel)
    (by decide +kernel)

def fullName : TypeName := ⟨"Contoso.Sales.Order", ⟨7, 19⟩⟩

def byFullName : Request := typeOfOrder "typeof(Contoso.Sales.Order)" []

theorem read_byFullName : SurfaceCompiler.read byFullName.session =
    .ok (.typeOf fullName ⟨0, 27⟩) := by with_unfolding_all rfl

theorem recompile_byFullName : (recompiler.recompile byFullName).1 =
    .ok (.compiled CoreType.type (orderNode byFullName.text) orderImports) :=
  recompile_typeOfOrder read_byFullName
    (Context.resolve_eq_ok_iff.mpr ⟨by decide +kernel, by decide +kernel⟩)

def shortName : TypeName := ⟨"Order", ⟨7, 5⟩⟩

def byShortName : Request := typeOfOrder "typeof(Order)" ["Contoso.Sales"]

theorem read_byShortName (hints : ImportHints) :
    SurfaceCompiler.read ({ byShortName with hints } : Request).session =
      .ok (.typeOf shortName ⟨0, 13⟩) := by
  have sameText : SurfaceCompiler.read ({ byShortName with hints } : Request).session =
      SurfaceCompiler.read byShortName.session := rfl
  rw [sameText]
  with_unfolding_all rfl

theorem recompile_byShortName : (recompiler.recompile byShortName).1 =
    .ok (.compiled CoreType.type (orderNode byShortName.text) orderImports) :=
  recompile_typeOfOrder (read_byShortName _)
    (Context.resolve_eq_ok_iff.mpr ⟨by decide +kernel, by decide +kernel⟩)

end Sales

/-- A full name keeps its meaning, so the text compiles again. -/
theorem byFullName_again :
    (Sales.recompiler.recompile (Sales.byFullName.replay Sales.orderImports)).1 =
      .ok (.compiled CoreType.type (Sales.orderNode Sales.byFullName.text) Sales.orderImports) := by
  obtain ⟨expression, isRead, _, again⟩ := Recompiler.replay_eq Sales.isSurface_recompiler rfl
    (Prod.ext Sales.recompile_byFullName rfl)
  obtain rfl := Except.ok.inj (isRead.symm.trans Sales.read_byFullName)
  refine (again fun part evaluates => ?_).1
  have named : (Sales.recompiler.context Sales.byFullName).namedBy?
      (.typeOf Sales.fullName ⟨0, 27⟩) = some Sales.order := by decide +kernel
  have namedAgain : (Sales.recompiler.context (Sales.byFullName.replay Sales.orderImports)).namedBy?
      (.typeOf Sales.fullName ⟨0, 27⟩) = some Sales.order := by decide +kernel
  cases evaluates with
  | root => exact namedAgain.trans named.symm
  | inPart isPart _ => exact absurd isPart List.not_mem_nil

namespace Sales

open Binding Surface

/-- With the imports of the text there are two types `Order`. -/
theorem order_ambiguous :
    (recompiler.context (byShortName.replay orderImports)).uniqueType? shortName.name = none := by
  have short : catalog.findType? (expandAlias "Order") = none := by decide +kernel
  have hinted : (byShortName.replay orderImports).hints.namespaces =
      ["Contoso.Sales", "Contoso.Core"] := by decide +kernel
  have offered {place : String} (isHint : place ∈ ["Contoso.Sales", "Contoso.Core"])
      {type : TypeId}
      (found : catalog.findType? (place ++ "." ++ expandAlias "Order") = some type) :
      type ∈ (recompiler.context (byShortName.replay orderImports)).candidates "Order" := by
    refine (Context.mem_candidates_iff short).mpr ⟨place, .inr ?_, found⟩
    rw [← hinted] at isHint
    exact isHint
  have different : order ≠ coreOrder := by decide
  exact Context.uniqueType?_eq_none different
    (offered List.mem_cons_self (by decide +kernel))
    (offered (List.mem_cons_of_mem _ List.mem_cons_self) (by decide +kernel))

end Sales

/-- The short name of a type compiles, and with its own imports it does not. -/
theorem replay_fails :
    (Sales.recompiler.recompile Sales.byShortName).1 =
      .ok (.compiled CoreType.type (Sales.orderNode Sales.byShortName.text) Sales.orderImports) ∧
    ∀ type node imports,
      (Sales.recompiler.recompile (Sales.byShortName.replay Sales.orderImports)).1 ≠
        .ok (.compiled type node imports) := by
  refine ⟨Sales.recompile_byShortName, fun type node imports done => ?_⟩
  obtain ⟨_, compiled, compiles, _⟩ := Recompiler.recompile_eq_compiled_iff.mp (Prod.ext done rfl)
  obtain ⟨expression, tree, isRead, bound, _⟩ :=
    Recompiler.exists_bound_of_compile Sales.isSurface_recompiler compiles
  obtain rfl := Except.ok.inj (isRead.symm.trans (Sales.read_byShortName _))
  obtain ⟨_, _, assembles⟩ := Binding.exists_assembles Sales.built_catalog.owned bound
  cases assembles with
  | typeOf _ resolved =>
      have unique := (Binding.Context.resolve_eq_ok_iff.mp resolved).1
      rw [Sales.order_ambiguous] at unique
      cases unique

end ExprImports
