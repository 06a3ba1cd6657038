import ExprImports.Proofs.Binding.Faults
import ExprImports.Proofs.Catalog.Names
import ExprImports.Proofs.Closure.Coverage
import ExprImports.Proofs.Recompilation.Modes
import ExprImports.Proofs.Surface.Words

/-!
# No text ends a recompilation

A recompilation without a target ends with an error only if the type of the text is not known
or is open, so that it has no text factory. A type comes into a tree from a variable, from a
member or method, from the element of an array, or from a name. If the catalog and the
environment offer no such type otherwise, then no name does, because no name that can be
written stands for an open definition or for anything made of one
(`hasShape_of_uniqueType?`). So the outcome is a node or a diagnostic, whatever the text is
(`exists_outcome`).

**Declared parameters.** A type can also be declared as a parameter, outside of any
definition, and then it has a name like any other type. A text that converts null to it has
no text factory (`asParameter_unavailable`), so such names are excluded
(`Binding.Context.NamesNoParameter`). Over a built catalog there are none.
-/

set_option autoImplicit false

namespace ExprImports

/-! ## Types that have text factories -/

/-- The type is known, and no generic parameter occurs in it. If it is an array, the same holds
of its elements. -/
inductive Catalog.Usable (catalog : Catalog) : TypeId → Prop where
  | intro {type : TypeId} (known : catalog.has type = true) (closed : catalog.isOpen type = false)
      (elements : ∀ element, catalog.element? type = some element → Usable catalog element) :
      Usable catalog type

namespace Catalog

variable {catalog : Catalog} {type : TypeId}

theorem Usable.known (usable : catalog.Usable type) : catalog.has type = true := by
  cases usable
  assumption

theorem Usable.closed (usable : catalog.Usable type) : catalog.isOpen type = false := by
  cases usable
  assumption

theorem Usable.element {element : TypeId} (usable : catalog.Usable type)
    (isElement : catalog.element? type = some element) : catalog.Usable element := by
  cases usable with
  | intro _ _ elements => exact elements element isElement

theorem IsPlain.usable (plain : catalog.IsPlain type) : catalog.Usable type := by
  refine .intro plain.has plain.isOpen_eq_false fun element isElement => ?_
  rw [plain.element?_eq_none] at isElement
  cases isElement

/-- The check for usable types, on array types and their older elements. -/
def isUsable (catalog : Catalog) (type : TypeId) : Bool :=
  catalog.has type && !catalog.isOpen type &&
    match catalog.element? type with
    | none => true
    | some element => if element.height < type.height then isUsable catalog element else false
termination_by type.height

theorem usable_of_isUsable (check : catalog.isUsable type = true) : catalog.Usable type := by
  induction measure : type.height using Nat.strongRecOn generalizing type with
  | _ height ih =>
      rw [isUsable, Bool.and_eq_true, Bool.and_eq_true, Bool.not_eq_true'] at check
      obtain ⟨⟨known, closed⟩, elements⟩ := check
      refine .intro known closed fun element isElement => ?_
      rw [isElement] at elements
      dsimp only at elements
      split at elements
      · rename_i older
        exact ih element.height (measure ▸ older) elements rfl
      · cases elements

/-- All types that are there from the start are usable. -/
example : Catalog.initial.typeIds.all Catalog.initial.isUsable = true := by decide +kernel

/-- An array of usable elements is usable. -/
theorem Usable.array {element : TypeId} (usable : catalog.Usable element)
    (isElement : catalog.element? type = some element) : catalog.Usable type := by
  obtain ⟨entry, rank, found, isKind⟩ := exists_of_element? isElement
  refine .intro (by rw [has, found, Option.isSome_some]) ?_ fun other isOther => ?_
  · rw [isOpen, found]
    simp only [isKind, usable.closed, ite_self]
  · rw [isElement] at isOther
    cases isOther
    exact usable

end Catalog

namespace Binding

open Surface

variable {context : Context}

/-- The types of all variables, members and results are usable. -/
structure Context.OffersUsable (context : Context) : Prop where
  variableType : ∀ name type, context.environment.lookup name = some type →
    context.catalog.Usable type
  memberType : ∀ type, ∀ member ∈ context.catalog.members type, context.catalog.Usable member.type
  resultType : ∀ type, ∀ method ∈ context.catalog.methods type,
    context.catalog.Usable method.returnType

/-- It is enough to check the bindings of the environment and the types of the catalog. -/
theorem Context.offersUsable_of_all
    (bindings : ∀ bound ∈ context.environment.bindings, context.catalog.isUsable bound.2 = true)
    (members : ∀ type ∈ context.catalog.typeIds, ∀ member ∈ context.catalog.members type,
      context.catalog.isUsable member.type = true)
    (methods : ∀ type ∈ context.catalog.typeIds, ∀ method ∈ context.catalog.methods type,
      context.catalog.isUsable method.returnType = true) : context.OffersUsable := by
  have isListed {type : TypeId} {entry : TypeEntry}
      (found : context.catalog.find? type = some entry) : type ∈ context.catalog.typeIds := by
    cases type with
    | null => cases found
    | entry position =>
        have inside : position + 1 ≤ context.catalog.types.size := Catalog.admits_of_find? found
        exact List.mem_map.mpr ⟨position, List.mem_range.mpr inside, rfl⟩
  refine ⟨fun name type bound => ?_, fun type member inside => ?_, fun type method inside => ?_⟩
  · exact Catalog.usable_of_isUsable (bindings (name, type) (Catalog.mem_of_lookup bound))
  · obtain ⟨entry, found, _⟩ := Catalog.exists_find?_of_mem_getD inside
    exact Catalog.usable_of_isUsable (members type (isListed found) member inside)
  · obtain ⟨entry, found, _⟩ := Catalog.exists_find?_of_mem_getD inside
    exact Catalog.usable_of_isUsable (methods type (isListed found) method inside)

/-! ## What a name can stand for -/

theorem isUnmarked_of_isDotted {name : String} (dotted : IsDotted name) : IsUnmarked name := by
  intro mark isMark inside
  have part := dotted mark inside
  simp only [marks, List.mem_cons, List.not_mem_nil, or_false] at isMark
  rcases isMark with rfl | rfl | rfl <;> exact absurd part (by decide)

theorem isUnmarked_expandAlias {name : String} (dotted : IsDotted name) :
    IsUnmarked (expandAlias name) := by
  unfold expandAlias
  cases found : aliases.lookup name with
  | none => exact isUnmarked_of_isDotted dotted
  | some full =>
      have all : aliases.all (fun known => IsUnmarked known.2) = true := by decide +kernel
      exact of_decide_eq_true (List.all_eq_true.mp all (name, full) (Catalog.mem_of_lookup found))

/-- No name that can be written stands for a type that was declared as a parameter. -/
def Context.NamesNoParameter (context : Context) : Prop :=
  ∀ (named : TypeName) (type : TypeId), IsDotted named.name →
    context.resolve named = .ok type → ¬ context.catalog.HasShape type .parameter .plain

/-- **No name that can be written stands for an array or a generic type**, whatever namespaces
are hinted. -/
theorem hasShape_of_uniqueType? (reached : context.catalog.Reached) {name : String}
    {type : TypeId} (dotted : IsDotted name) (unique : context.uniqueType? name = some type) :
    ∃ kind, context.catalog.HasShape type kind .plain ∧ kind.isArray = false := by
  have unmarked := isUnmarked_expandAlias dotted
  obtain found | ⟨place, found⟩ := Context.findType?_of_uniqueType? unique
  · exact reached.hasShape_of_findType? (not_isMarked unmarked) found
  · exact reached.hasShape_of_findType? (not_isMarked_qualified place unmarked) found

theorem isPlain_of_resolve (reached : context.catalog.Reached)
    (noParameter : context.NamesNoParameter) {named : TypeName} {type : TypeId}
    (dotted : IsDotted named.name) (resolved : context.resolve named = .ok type) :
    context.catalog.IsPlain type := by
  obtain ⟨kind, shape, noArray⟩ :=
    hasShape_of_uniqueType? reached dotted (Context.resolve_eq_ok_iff.mp resolved).1
  cases kind with
  | nominal kind => exact Catalog.isPlain_of_hasShape shape
  | array element rank => cases noArray
  | parameter => exact absurd shape (noParameter named type dotted resolved)

/-- Over a built catalog no name stands for a parameter. -/
theorem Context.namesNoParameter (built : context.catalog.Built) : context.NamesNoParameter := by
  intro named type dotted resolved isParameter
  have unmarked := isUnmarked_expandAlias dotted
  have plain : context.catalog.IsPlain type := by
    obtain found | ⟨place, found⟩ :=
      findType?_of_uniqueType? (resolve_eq_ok_iff.mp resolved).1
    · exact built.isPlain_of_findType? (not_isMarked unmarked) found
    · exact built.isPlain_of_findType? (not_isMarked_qualified place unmarked) found
  obtain ⟨entry, kind, isEntry, nominal, _⟩ := plain
  obtain ⟨isKind, _⟩ := isParameter.unique ⟨entry, isEntry, rfl, rfl⟩
  cases isKind.trans nominal

/-! ## The types of trees -/

section Trees

variable (reached : context.catalog.Reached)
include reached

theorem usable_of_isCore {type : TypeId} (core : type.isCore = true) :
    context.catalog.Usable type :=
  (reached.isPlain_of_isCore core).usable

section Names

variable (noParameter : context.NamesNoParameter)
include noParameter

theorem usable_of_resolve {named : TypeName} {type : TypeId} (dotted : IsDotted named.name)
    (resolved : context.resolve named = .ok type) : context.catalog.Usable type :=
  (isPlain_of_resolve reached noParameter dotted resolved).usable

theorem usable_of_findArray? {named : TypeName} {element array : TypeId}
    (dotted : IsDotted named.name) (resolved : context.resolve named = .ok element)
    (isArray : context.catalog.findArray? element 1 = some array) :
    context.catalog.Usable array :=
  (usable_of_resolve reached noParameter dotted resolved).array
    (reached.interned.array _ _ _ isArray).element?

end Names

section Offered

variable (offers : context.OffersUsable)
include offers

theorem usable_of_findMember? {type : TypeId} {name : String} {member : Member}
    (found : context.catalog.findMember? type name = some member) :
    context.catalog.Usable member.type :=
  offers.memberType _ member (declaresMember_of_findMember? reached.owned found).2

theorem usable_of_mem_findMethods {type : TypeId} {name : String} {method : Method}
    (found : method ∈ context.catalog.findMethods type name) :
    context.catalog.Usable method.returnType :=
  offers.resultType _ method (declaresMethod_of_mem_findMethods reached.owned found).2

/-- A method that is called without a receiver is declared, or it concatenates strings. -/
theorem usable_of_obeys {method : Method} {arguments : List Tree}
    (obeys : Obeys context (.staticCall method arguments method.returnType)) :
    context.catalog.Usable method.returnType := by
  cases obeys with
  | staticCall _ declared _ => exact offers.resultType _ method declared.2
  | concatenation _ _ => exact usable_of_isCore reached rfl

end Offered

variable (noParameter : context.NamesNoParameter) (offers : context.OffersUsable)
include noParameter offers

/-- **The type of a node is usable if the types below it are.** -/
theorem usable_of_assembles {expression : Expression} {parts : List Tree} {tree : Tree}
    (names : expression.NamesDotted) (obeys : Obeys context tree)
    (assembles : Assembles context expression parts tree)
    (usable : ∀ part ∈ parts, context.catalog.Usable part.type) :
    context.catalog.Usable tree.type := by
  cases assembles with
  | literal value span => exact usable_of_isCore reached (Closure.isCore_literalTree value)
  | identifier span bound => exact offers.variableType _ _ bound
  | member span isValue found => exact usable_of_findMember? reached offers found
  | staticMember span isType found isStatic => exact usable_of_findMember? reached offers found
  | call span isValue found fitting => exact usable_of_mem_findMethods reached offers found
  | staticCall span isType found isStatic fitting =>
      exact usable_of_mem_findMethods reached offers found
  | element span isArray fitting => exact (usable _ List.mem_cons_self).element isArray
  | indexer span found fitting => exact usable_of_mem_findMethods reached offers found
  | create span resolved own fitting =>
      exact usable_of_resolve reached noParameter (names.own List.mem_cons_self) resolved
  | createArray span resolved isArray fitting =>
      have dotted := names.own List.mem_cons_self
      exact usable_of_findArray? reached noParameter dotted resolved isArray
  | typeOf span resolved => exact usable_of_isCore reached rfl
  | typeIs span resolved => exact usable_of_isCore reached rfl
  | typeAs span resolved =>
      have dotted := names.own (List.mem_cons_of_mem _ List.mem_cons_self)
      exact usable_of_resolve reached noParameter dotted resolved
  | unary op span =>
      have operand := usable _ List.mem_cons_self
      exact operand
  | concatenation span fitting => exact usable_of_obeys reached offers obeys
  | binary op span widensFirst widensSecond isResult =>
      obtain numeric | rfl := isResult
      · exact usable_of_isCore reached (Closure.isCore_of_isNumeric numeric)
      · exact usable_of_isCore reached rfl
  | conditional span convertsTruth isBranch convertsFirst convertsSecond =>
      have first := usable _ (List.mem_cons_of_mem _ List.mem_cons_self)
      have second := usable _ (List.mem_cons_of_mem _ (List.mem_cons_of_mem _ List.mem_cons_self))
      obtain rfl | rfl := isBranch
      · exact first
      · exact second
  | assign span converts =>
      have target := usable _ List.mem_cons_self
      exact target

/-- **Every expression has a usable type**, if the names of types in it are dotted words. The
induction follows the parts that are evaluated. -/
theorem usable_of_bind {expression : Expression} {tree : Tree} (names : expression.NamesDotted)
    (done : bind context expression = .ok tree) : context.catalog.Usable tree.type := by
  induction size : sizeOf expression using Nat.strongRecOn generalizing expression tree with
  | _ bound ih =>
      obtain ⟨parts, boundParts, assembles⟩ := exists_assembles reached.owned done
      have obeys := (sound_of_bind reached done tree .root).1
      refine usable_of_assembles reached noParameter offers names obeys assembles
        fun part isPart => ?_
      obtain ⟨written, isWritten, boundPart⟩ := exists_of_mem_bound boundParts isPart
      have smaller := size ▸ Context.sizeOf_lt_of_mem_valueParts isWritten
      exact ih _ smaller (names.part (mem_parts_of_mem_valueParts isWritten)) boundPart rfl

end Trees

end Binding

/-! ## Recompiling -/

namespace Recompiler

open Binding Surface

theorem namesDotted_of_read {session : Session} {expression : Expression}
    (isRead : SurfaceCompiler.read session = .ok expression) : expression.NamesDotted := by
  unfold SurfaceCompiler.read at isRead
  split at isRead
  · cases isRead
  · rename_i tokens cut
    exact namesDotted_of_parse cut (mapError_eq_ok_iff.mp isRead)

section Surface

variable {recompiler : Recompiler} (surface : recompiler.IsSurface) {request : Request}
  (inferred : request.target = none)
include surface inferred

/-- Without a target the compiler has no fault of its own. -/
theorem exists_source_of_compile {fault : CompilerFault}
    (failed : recompiler.compile request = .error fault) :
    ∃ diagnostic, fault = .source diagnostic := by
  rw [compile, inferred, surface] at failed
  obtain ⟨diagnostic, _, rfl⟩ := exists_of_mapError_eq_error failed
  exact ⟨diagnostic, rfl⟩

theorem usable_of_compile (reached : recompiler.catalog.Reached)
    (noParameter : (recompiler.context request).NamesNoParameter)
    (offers : (recompiler.context request).OffersUsable) {compiled : Compiled}
    (compiles : recompiler.compile request = .ok compiled) :
    recompiler.catalog.Usable compiled.returnType := by
  obtain ⟨expression, isRead, done⟩ := (compile_eq_ok_iff surface inferred).mp compiles
  obtain ⟨tree, bound, done⟩ := exists_of_bind_eq_ok done
  cases done
  exact usable_of_bind reached noParameter offers (namesDotted_of_read isRead) bound

end Surface

/-- A text without a target gives an outcome, whichever text factories are remembered. -/
theorem exists_outcome_of_isText {recompiler : Recompiler} (surface : recompiler.IsSurface)
    {language : String} (isText : recompiler.factories.IsText recompiler.catalog language)
    (reached : recompiler.catalog.Reached) {request : Request}
    (sameLanguage : request.language = recompiler.compiler.language)
    (inferred : request.target = none)
    (noParameter : (recompiler.context request).NamesNoParameter)
    (offers : (recompiler.context request).OffersUsable) :
    ∃ outcome, (recompiler.recompile request).1 = .ok outcome := by
  cases compiles : recompiler.compile request with
  | error fault =>
      obtain ⟨diagnostic, rfl⟩ := exists_source_of_compile surface inferred compiles
      have reports := compile_eq_error_iff.mp compiles
      exact ⟨_, congrArg Prod.fst (recompile_of_source sameLanguage reports)⟩
  | ok compiled =>
      have hits : request.target.getD compiled.returnType = compiled.returnType := by
        rw [inferred, Option.getD_none]
      cases standing : recompiler.locationFault? request compiled with
      | some diagnostic =>
          exact ⟨_, congrArg Prod.fst (recompile_of_locationFault sameLanguage
            (compile_eq_yielded_iff.mp compiles) (getD_target_eq_iff.mp hits) standing)⟩
      | none =>
          have usable := usable_of_compile surface inferred reached noParameter offers compiles
          obtain ⟨node, done⟩ := (exists_recompiled_iff isText).mpr
            ⟨⟨sameLanguage, usable.known, usable.closed⟩, compiled, compiles, rfl, hits,
              locationFault?_eq_none_iff.mp standing, rfl⟩
          exact ⟨_, done⟩

/-- **No text ends a recompilation with an error.** A recompiler that started with text
factories gives a node or a diagnostic for every text without a target, under all hints and in
both modes, if variables, members and results have usable types and no name that a text can
write stands for a type that was declared as a parameter. This holds whatever was recompiled
before. -/
theorem exists_outcome {recompiler : Recompiler} (surface : recompiler.IsSurface)
    {language : String} (fresh : recompiler.factories = .text language)
    (reached : recompiler.catalog.Reached) (earlier : List Request) {request : Request}
    (sameLanguage : request.language = recompiler.compiler.language)
    (inferred : request.target = none)
    (noParameter : (recompiler.context request).NamesNoParameter)
    (offers : (recompiler.context request).OffersUsable) :
    ∃ outcome, ((recompiler.after earlier).recompile request).1 = .ok outcome := by
  have isText : recompiler.factories.IsText recompiler.catalog language :=
    fresh ▸ FactoryRegistry.isText_text recompiler.catalog language
  obtain ⟨left, used, isText⟩ := isText_after isText earlier
  have surfaceAfter : { recompiler with factories := left }.IsSurface := surface
  rw [used]
  exact exists_outcome_of_isText surfaceAfter isText reached sameLanguage inferred noParameter
    offers

end Recompiler

namespace Sales

/-- The open class `Contoso.Core.Box`. -/
def box : TypeId := .entry 19

/-- Boxes of orders. -/
def orderBox : TypeId := .entry 21

/-- The array type of boxes of orders. -/
def orderBoxes : TypeId := .entry 22

/-- The catalog with boxes of orders, which entities have in a static property. -/
def boxCatalog : Catalog :=
  let defined := (catalog.define
    { name := "Box", namespaceName := "Contoso.Core", assembly := .entry 1, kind := .classType
      base := some CoreType.object, parameters := ["T"] }).2
  let instantiated := ((defined.instantiate? box [order]).getD (.null, defined)).2
  let collected := (instantiated.arrayOf orderBox 1).2
  collected.addMember entity "Boxes" orderBoxes (.property false) true

theorem built_boxCatalog : boxCatalog.Built := by
  unfold boxCatalog
  extract_lets defined instantiated collected
  have isDefined : defined.Built := .define built_catalog _ (by decide +kernel)
  have isInstantiated : instantiated.Built := by
    unfold instantiated
    cases made : defined.instantiate? box [order] with
    | none => exact isDefined
    | some found => exact .instantiate isDefined (by decide +kernel) made
  exact .addMember (.arrayOf isInstantiated (by decide +kernel) 1) _ _ _ _ _

def boxRecompiler : Recompiler :=
  .ofCompiler (SurfaceCompiler.compiler boxCatalog) boxCatalog .builtin

/-- The first box as something to be assigned to. -/
def firstBox : Request :=
  { text := "Entity.Boxes[0]", language := SurfaceCompiler.language
    hints := { namespaces := ["Contoso.Core"] }, mode := .reference }

end Sales

/-- There is an open type in the catalog, but no value of it. -/
theorem exists_outcome_firstBox :
    Sales.boxCatalog.Reached ∧
      (Sales.boxRecompiler.context Sales.firstBox).NamesNoParameter ∧
      Sales.boxCatalog.isOpen Sales.box = true ∧
      (Sales.boxRecompiler.context Sales.firstBox).OffersUsable ∧
      ∃ outcome, (Sales.boxRecompiler.recompile Sales.firstBox).1 = .ok outcome := by
  have offers : (Sales.boxRecompiler.context Sales.firstBox).OffersUsable :=
    Binding.Context.offersUsable_of_all (List.forall_mem_nil _) (by decide +kernel)
      (by decide +kernel)
  have reached := Sales.built_boxCatalog.reached
  have noParameter : (Sales.boxRecompiler.context Sales.firstBox).NamesNoParameter :=
    Binding.Context.namesNoParameter Sales.built_boxCatalog
  exact ⟨reached, noParameter, by decide +kernel, offers,
    Recompiler.exists_outcome (Recompiler.isSurface_ofCompiler _ _) rfl reached [] rfl rfl
      noParameter offers⟩

namespace Sales

open Binding Surface

/-- The type `Contoso.Core.T`, declared as a parameter. -/
def parameter : TypeId := .entry 19

def parameterCatalog : Catalog :=
  (catalog.defineAs .parameter
    { name := "T", namespaceName := "Contoso.Core", assembly := .entry 1, kind := .classType
      base := some CoreType.object }).2

def parameterRecompiler : Recompiler :=
  .ofCompiler (SurfaceCompiler.compiler parameterCatalog) parameterCatalog .builtin

def asParameter : Request :=
  { text := "null as Contoso.Core.T", language := SurfaceCompiler.language }

/-- What the text is read as. -/
def asParameterRead : Expression :=
  .typeAs (.literal .null ⟨0, 4⟩) ⟨"Contoso.Core.T", ⟨8, 14⟩⟩ ⟨0, 22⟩

theorem bind_asParameter : bind (parameterRecompiler.context asParameter) asParameterRead =
    .ok (.convert .typeAs (.constant .null CoreType.object) parameter) :=
  bind_eq_ok_iff.mpr (.typeAs rfl
    (Context.resolve_eq_ok_iff.mpr ⟨by decide +kernel, by decide +kernel⟩) (by decide +kernel))

theorem compile_asParameter : parameterRecompiler.compile asParameter =
    .ok ⟨[], .convert .typeAs (.constant .null CoreType.object) parameter, parameter⟩ := by
  have isRead : SurfaceCompiler.read asParameter.session = .ok asParameterRead := by
    with_unfolding_all rfl
  exact (Recompiler.compile_eq_ok_iff (Recompiler.isSurface_ofCompiler _ _) rfl).mpr
    ⟨asParameterRead, isRead, compile_of_bind bind_asParameter⟩

end Sales

/-- Variables, members and results have usable types, and yet a text ends the recompilation with
an error, because it names a type that was declared as a parameter. -/
theorem asParameter_unavailable :
    Sales.parameterCatalog.Reached ∧
      (Sales.parameterRecompiler.context Sales.asParameter).OffersUsable ∧
      (Sales.parameterRecompiler.recompile Sales.asParameter).1 =
        .error (.factoryUnavailable "Contoso.Core.T") := by
  refine ⟨Sales.built_catalog.reached.tail (.define .parameter _ (by decide +kernel)),
    Binding.Context.offersUsable_of_all (List.forall_mem_nil _) (by decide +kernel)
      (by decide +kernel), ?_⟩
  have yielded := Recompiler.compile_eq_yielded_iff.mp Sales.compile_asParameter
  exact Recompiler.recompile_of_materialize_error rfl yielded nofun rfl (by decide +kernel)

end ExprImports
