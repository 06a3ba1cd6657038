import ExprImports.Proofs.Binding.Meaning
import ExprImports.Proofs.Outcomes
import Mathlib.Data.List.Forall2

/-!
# How each form of expression is bound

An expression is bound by steps that depend on its form: what stands before a dot is
found, parts that are evaluated are bound from left to right, type names are resolved,
and a node is made. Binding succeeds exactly if all of these steps do (`Binds`,
`bind_eq_ok_iff`). So what the steps for each form keep holds of whatever is bound
(`binds_induction`).

**Nodes.** Members, methods, indexes and constructors are chosen by steps of their own.
What such a step chooses is said once for each of them.
-/

set_option autoImplicit false

namespace ExprImports

/-! ## Lists that are related item by item -/

section Pairs

variable {α β : Type} {relation : α → β → Prop} {first : List α} {second : List β}

theorem exists_of_mem_right (related : List.Forall₂ relation first second) :
    ∀ right ∈ second, ∃ left ∈ first, relation left right := by
  induction related with
  | nil => exact List.forall_mem_nil _
  | cons pair _ ih =>
      refine List.forall_mem_cons.mpr ⟨⟨_, List.mem_cons_self, pair⟩, fun right isRight => ?_⟩
      obtain ⟨left, isLeft, related⟩ := ih right isRight
      exact ⟨left, List.mem_cons_of_mem _ isLeft, related⟩

theorem exists_of_mem_left (related : List.Forall₂ relation first second) :
    ∀ left ∈ first, ∃ right ∈ second, relation left right :=
  exists_of_mem_right related.flip

end Pairs

namespace Binding

open Surface

variable {context : Context} {span : Span} {tree : Tree}

/-! ## Several expressions -/

/-- The trees are those of the expressions. -/
def BoundAll (context : Context) : List Expression → List Tree → Prop :=
  List.Forall₂ fun expression tree => bind context expression = .ok tree

theorem bindAll_eq_ok_iff {expressions : List Expression} {trees : List Tree} :
    bindAll context expressions = .ok trees ↔ BoundAll context expressions trees := by
  constructor
  · intro done
    induction expressions generalizing trees with
    | nil =>
        rw [bindAll] at done
        cases done
        exact .nil
    | cons expression rest ih =>
        rw [bindAll] at done
        obtain ⟨first, bound, done⟩ := exists_of_bind_eq_ok done
        obtain ⟨others, boundRest, done⟩ := exists_of_bind_eq_ok done
        cases done
        exact .cons bound (ih boundRest)
  · intro bound
    induction bound with
    | nil => rw [bindAll]
    | cons bound _ ih =>
        rw [bindAll, bound, ih]
        rfl

theorem exists_of_mem_bound {expressions : List Expression} {trees : List Tree} {part : Tree}
    (bound : BoundAll context expressions trees) (isPart : part ∈ trees) :
    ∃ written ∈ expressions, bind context written = .ok part :=
  exists_of_mem_right bound part isPart

theorem exists_of_mem_written {expressions : List Expression} {trees : List Tree}
    {written : Expression} (bound : BoundAll context expressions trees)
    (isWritten : written ∈ expressions) : ∃ part ∈ trees, bind context written = .ok part :=
  exists_of_mem_left bound written isWritten

/-- Every argument keeps its place beside the tree that it is bound to. -/
theorem map_fst_zip_spans {arguments : List Expression} {trees : List Tree}
    (bound : BoundAll context arguments trees) :
    (trees.zip (arguments.map (·.span))).map (·.1) = trees := by
  refine List.map_fst_zip (Nat.le_of_eq ?_)
  rw [List.length_map, bound.length_eq]

/-- The trees of the elements of an array, each bound and then converted. -/
def BoundItems (context : Context) (element : TypeId) : List Expression → List Tree → Prop :=
  List.Forall₂ fun item converted => ∃ tree, bind context item = .ok tree ∧
    coerce context.catalog tree element item.span = .ok converted

theorem bindItems_eq_ok_iff {element : TypeId} {items : List Expression} {trees : List Tree} :
    bindItems context element items = .ok trees ↔ BoundItems context element items trees := by
  constructor
  · intro done
    induction items generalizing trees with
    | nil =>
        rw [bindItems] at done
        cases done
        exact .nil
    | cons item rest ih =>
        rw [bindItems] at done
        obtain ⟨first, bound, done⟩ := exists_of_bind_eq_ok done
        obtain ⟨converted, coerced, done⟩ := exists_of_bind_eq_ok done
        obtain ⟨others, boundRest, done⟩ := exists_of_bind_eq_ok done
        cases done
        exact .cons ⟨first, bound, coerced⟩ (ih boundRest)
  · intro bound
    induction bound with
    | nil => rw [bindItems]
    | cons isBound _ ih =>
        obtain ⟨first, bound, coerced⟩ := isBound
        rw [bindItems, bound, ih]
        simp only [Bind.bind, Except.bind, coerced]
        rfl

theorem BoundItems.exists_boundAll {element : TypeId} {items : List Expression}
    {trees : List Tree} (bound : BoundItems context element items trees) :
    ∃ sources, BoundAll context items sources := by
  induction bound with
  | nil => exact ⟨[], .nil⟩
  | cons isBound _ ih =>
      obtain ⟨first, bound, _⟩ := isBound
      obtain ⟨others, boundRest⟩ := ih
      exact ⟨first :: others, .cons bound boundRest⟩

/-! ## Before a dot -/

/-- What stands before a dot names a type that can be seen, or else it is bound. -/
inductive BindsReceiver (context : Context) (target : Expression) : Receiver → Prop where
  | type {type : TypeId} (isType : context.receiverType? target = some type)
      (visible : context.missingAssembly? type = none) :
      BindsReceiver context target (.type type)
  | value {tree : Tree} (isValue : context.receiverType? target = none)
      (bound : bind context target = .ok tree) : BindsReceiver context target (.value tree)

theorem receiverOf_eq_ok_iff {target : Expression} {receiver : Receiver} :
    receiverOf context target (fun _ => bind context target) = .ok receiver ↔
      BindsReceiver context target receiver := by
  unfold receiverOf
  cases isType : context.receiverType? target with
  | some type =>
      constructor
      · intro done
        obtain ⟨found, isVisible, rfl⟩ := exists_of_map_eq_ok done
        obtain ⟨rfl, visible⟩ := Context.visible_eq_ok_iff.mp isVisible
        exact .type isType visible
      · intro before
        cases before with
        | type found visible =>
            obtain rfl := Option.some.inj (isType.symm.trans found)
            dsimp only
            rw [Context.visible_eq_ok_iff.mpr ⟨rfl, visible⟩]
            rfl
        | value isValue => cases isType.symm.trans isValue
  | none =>
      constructor
      · intro done
        obtain ⟨tree, bound, rfl⟩ := exists_of_map_eq_ok done
        exact .value isType bound
      · intro before
        cases before with
        | type found => cases isType.symm.trans found
        | value isValue bound =>
            dsimp only
            rw [bound]
            rfl

/-- Before a dot a tree is bound exactly where no type is named. -/
theorem BindsReceiver.exists_boundAll {target : Expression} {receiver : Receiver}
    (before : BindsReceiver context target receiver) :
    ∃ trees, BoundAll context (context.receiverParts target) trees := by
  cases before with
  | type isType => exact ⟨[], by rw [Context.receiverParts, isType]; exact .nil⟩
  | @value tree isValue bound =>
      exact ⟨[tree], by rw [Context.receiverParts, isValue]; exact .cons bound .nil⟩

/-! ## Whole expressions -/

/-- The steps by which an expression is bound to a tree, for each form. -/
inductive Binds (context : Context) : Expression → Tree → Prop where
  | literal (value : Constant) (span : Span) :
      Binds context (.literal value span) (literalTree value)
  | identifier {name : String} {span : Span} {type : TypeId}
      (known : context.environment.lookup name = some type) :
      Binds context (.identifier name span) (.parameter ⟨name, type⟩)
  | member {target : Expression} {name : String} {span : Span} {receiver : Receiver}
      {tree : Tree} (before : BindsReceiver context target receiver)
      (made : bindMember context receiver name span = .ok tree) :
      Binds context (.member target name span) tree
  | methodCall {target : Expression} {name : String} {arguments : List Expression} {span : Span}
      {receiver : Receiver} {trees : List Tree} {tree : Tree}
      (before : BindsReceiver context target receiver)
      (bound : BoundAll context arguments trees)
      (made : bindCall context receiver name trees span = .ok tree) :
      Binds context (.methodCall target name arguments span) tree
  | index {target : Expression} {arguments : List Expression} {span : Span} {indexed : Tree}
      {trees : List Tree} {tree : Tree} (before : bind context target = .ok indexed)
      (bound : BoundAll context arguments trees)
      (made : bindIndex context indexed (trees.zip (arguments.map (·.span))) span = .ok tree) :
      Binds context (.index target arguments span) tree
  | create {named : TypeName} {arguments : List Expression} {span : Span} {type : TypeId}
      {trees : List Tree} {tree : Tree} (resolved : context.resolve named = .ok type)
      (bound : BoundAll context arguments trees)
      (made : bindCreation context type trees span = .ok tree) :
      Binds context (.create named arguments span) tree
  | createArray {named : TypeName} {items : List Expression} {span : Span}
      {element array : TypeId} {trees : List Tree} (resolved : context.resolve named = .ok element)
      (isArray : context.catalog.findArray? element 1 = some array)
      (bound : BoundItems context element items trees) :
      Binds context (.createArray named items span) (.newArray .elements trees array)
  | typeOf {named : TypeName} {span : Span} {type : TypeId}
      (resolved : context.resolve named = .ok type) :
      Binds context (.typeOf named span) (.constant (.type type) CoreType.type)
  | typeIs {operand : Expression} {named : TypeName} {span : Span} {tree : Tree} {type : TypeId}
      (bound : bind context operand = .ok tree) (resolved : context.resolve named = .ok type) :
      Binds context (.typeIs operand named span) (.typeIs tree type CoreType.boolean)
  | typeAs {operand : Expression} {named : TypeName} {span : Span} {tree : Tree} {type : TypeId}
      (bound : bind context operand = .ok tree) (resolved : context.resolve named = .ok type)
      (reference : context.catalog.isValueType type = false) :
      Binds context (.typeAs operand named span) (.convert .typeAs tree type)
  | unary {operator : UnaryOperator} {operand : Expression} {span : Span} {below tree : Tree}
      (bound : bind context operand = .ok below)
      (made : bindUnary operator below span = .ok tree) :
      Binds context (.unary operator operand span) tree
  | binary {operator : BinaryOperator} {left right : Expression} {span : Span}
      {first second tree : Tree} (boundLeft : bind context left = .ok first)
      (boundRight : bind context right = .ok second)
      (made : bindBinary context operator first second span = .ok tree) :
      Binds context (.binary operator left right span) tree
  | conditional {test ifTrue ifFalse : Expression} {span : Span}
      {truth converted first second tree : Tree} (boundTest : bind context test = .ok truth)
      (isTruth : coerce context.catalog truth CoreType.boolean test.span = .ok converted)
      (boundTrue : bind context ifTrue = .ok first) (boundFalse : bind context ifFalse = .ok second)
      (made : bindConditional context converted first second span = .ok tree) :
      Binds context (.conditional test ifTrue ifFalse span) tree
  | assign {target value : Expression} {span : Span} {place given converted : Tree}
      (boundTarget : bind context target = .ok place) (boundValue : bind context value = .ok given)
      (fits : coerce context.catalog given place.type value.span = .ok converted) :
      Binds context (.assign target value span) (.assign place converted place.type)

theorem binds_of_bind {expression : Expression} (done : bind context expression = .ok tree) :
    Binds context expression tree := by
  cases expression with
  | literal value span =>
      rw [bind] at done
      cases done
      exact .literal value span
  | identifier name span =>
      rw [bind, bindIdentifier] at done
      split at done
      · rename_i type known
        cases done
        exact .identifier known
      · split at done <;> cases done
  | member target name span =>
      rw [bind] at done
      obtain ⟨receiver, before, made⟩ := exists_of_bind_eq_ok done
      exact .member (receiverOf_eq_ok_iff.mp before) made
  | methodCall target name arguments span =>
      rw [bind] at done
      obtain ⟨receiver, before, done⟩ := exists_of_bind_eq_ok done
      obtain ⟨trees, bound, made⟩ := exists_of_bind_eq_ok done
      exact .methodCall (receiverOf_eq_ok_iff.mp before) (bindAll_eq_ok_iff.mp bound) made
  | index target arguments span =>
      rw [bind] at done
      obtain ⟨indexed, before, done⟩ := exists_of_bind_eq_ok done
      obtain ⟨trees, bound, made⟩ := exists_of_bind_eq_ok done
      exact .index before (bindAll_eq_ok_iff.mp bound) made
  | create type arguments span =>
      rw [bind] at done
      obtain ⟨created, resolved, done⟩ := exists_of_bind_eq_ok done
      obtain ⟨trees, bound, made⟩ := exists_of_bind_eq_ok done
      exact .create resolved (bindAll_eq_ok_iff.mp bound) made
  | createArray element items span =>
      rw [bind] at done
      obtain ⟨type, resolved, done⟩ := exists_of_bind_eq_ok done
      obtain ⟨array, found, done⟩ := exists_of_bind_eq_ok done
      obtain ⟨trees, bound, done⟩ := exists_of_bind_eq_ok done
      cases done
      refine .createArray resolved ?_ (bindItems_eq_ok_iff.mp bound)
      unfold arrayType at found
      split at found
      · rename_i isArray
        cases found
        exact isArray
      · cases found
  | typeOf type span =>
      rw [bind] at done
      obtain ⟨found, resolved, done⟩ := exists_of_bind_eq_ok done
      cases done
      exact .typeOf resolved
  | typeIs operand type span =>
      rw [bind] at done
      obtain ⟨tested, bound, done⟩ := exists_of_bind_eq_ok done
      obtain ⟨found, resolved, done⟩ := exists_of_bind_eq_ok done
      cases done
      exact .typeIs bound resolved
  | typeAs operand type span =>
      rw [bind] at done
      obtain ⟨below, bound, done⟩ := exists_of_bind_eq_ok done
      obtain ⟨found, resolved, done⟩ := exists_of_bind_eq_ok done
      unfold bindAs at done
      split at done
      · cases done
      · rename_i reference
        cases done
        exact .typeAs bound resolved (Bool.eq_false_iff.mpr reference)
  | unary operator operand span =>
      rw [bind] at done
      obtain ⟨below, bound, made⟩ := exists_of_bind_eq_ok done
      exact .unary bound made
  | binary operator left right span =>
      rw [bind] at done
      obtain ⟨first, boundLeft, done⟩ := exists_of_bind_eq_ok done
      obtain ⟨second, boundRight, made⟩ := exists_of_bind_eq_ok done
      exact .binary boundLeft boundRight made
  | conditional test ifTrue ifFalse span =>
      rw [bind] at done
      obtain ⟨truth, boundTest, done⟩ := exists_of_bind_eq_ok done
      obtain ⟨converted, isTruth, done⟩ := exists_of_bind_eq_ok done
      obtain ⟨first, boundTrue, done⟩ := exists_of_bind_eq_ok done
      obtain ⟨second, boundFalse, made⟩ := exists_of_bind_eq_ok done
      exact .conditional boundTest isTruth boundTrue boundFalse made
  | assign target value span =>
      rw [bind] at done
      obtain ⟨place, boundTarget, done⟩ := exists_of_bind_eq_ok done
      obtain ⟨given, boundValue, done⟩ := exists_of_bind_eq_ok done
      obtain ⟨converted, fits, done⟩ := exists_of_bind_eq_ok done
      cases done
      exact .assign boundTarget boundValue fits

/-- **Binding succeeds exactly by the steps for the form of the expression.** -/
theorem bind_eq_ok_iff {expression : Expression} :
    bind context expression = .ok tree ↔ Binds context expression tree := by
  refine ⟨binds_of_bind, fun binds => ?_⟩
  cases binds with
  | literal value span => rw [bind]
  | identifier known => rw [bind, bindIdentifier, known]
  | member before made =>
      rw [bind, receiverOf_eq_ok_iff.mpr before]
      exact made
  | methodCall before bound made =>
      rw [bind, receiverOf_eq_ok_iff.mpr before, bindAll_eq_ok_iff.mpr bound]
      exact made
  | index before bound made =>
      rw [bind, before, bindAll_eq_ok_iff.mpr bound]
      exact made
  | create resolved bound made =>
      rw [bind, resolved, bindAll_eq_ok_iff.mpr bound]
      exact made
  | createArray resolved isArray bound =>
      rw [bind, resolved]
      simp only [Bind.bind, Except.bind, arrayType, isArray, bindItems_eq_ok_iff.mpr bound]
      rfl
  | typeOf resolved =>
      rw [bind, resolved]
      rfl
  | typeIs bound resolved =>
      rw [bind, bound, resolved]
      rfl
  | typeAs bound resolved reference =>
      rw [bind, bound, resolved]
      simp only [Bind.bind, Except.bind, bindAs, reference, Bool.false_eq_true, if_false]
  | unary bound made =>
      rw [bind, bound]
      exact made
  | binary boundLeft boundRight made =>
      rw [bind, boundLeft, boundRight]
      exact made
  | conditional boundTest isTruth boundTrue boundFalse made =>
      rw [bind, boundTest, boundTrue, boundFalse]
      simp only [Bind.bind, Except.bind, isTruth]
      exact made
  | assign boundTarget boundValue fits =>
      rw [bind, boundTarget, boundValue]
      simp only [Bind.bind, Except.bind, fits]
      rfl

/-- The parts that are evaluated are bound. -/
theorem Binds.exists_boundAll {expression : Expression} (binds : Binds context expression tree) :
    ∃ trees, BoundAll context (context.valueParts expression) trees := by
  cases binds with
  | literal | identifier | typeOf => exact ⟨[], .nil⟩
  | member before => exact before.exists_boundAll
  | methodCall before bound =>
      obtain ⟨first, boundFirst⟩ := before.exists_boundAll
      exact ⟨_, List.rel_append boundFirst bound⟩
  | index before bound => exact ⟨_, .cons before bound⟩
  | create _ bound => exact ⟨_, bound⟩
  | createArray _ _ bound => exact bound.exists_boundAll
  | typeIs bound | typeAs bound | unary bound => exact ⟨_, .cons bound .nil⟩
  | binary boundLeft boundRight => exact ⟨_, .cons boundLeft (.cons boundRight .nil)⟩
  | conditional boundTest _ boundTrue boundFalse =>
      exact ⟨_, .cons boundTest (.cons boundTrue (.cons boundFalse .nil))⟩
  | assign boundTarget boundValue => exact ⟨_, .cons boundTarget (.cons boundValue .nil)⟩

/-- What holds of an expression and its tree if it holds of the parts that are evaluated and
theirs, holds of all that is bound. -/
theorem binds_induction {motive : Expression → Tree → Prop}
    (step : ∀ {expression : Expression} {tree : Tree}, Binds context expression tree →
      (∀ part ∈ context.valueParts expression, ∀ below : Tree,
        bind context part = .ok below → motive part below) → motive expression tree)
    {expression : Expression} (done : bind context expression = .ok tree) :
    motive expression tree := by
  induction size : sizeOf expression using Nat.strongRecOn generalizing expression tree with
  | _ bound ih =>
      refine step (binds_of_bind done) fun part isPart below boundPart => ?_
      exact ih _ (size ▸ Context.sizeOf_lt_of_mem_valueParts isPart) boundPart rfl

/-! ## Single nodes -/

theorem bindMember_eq_ok_iff {receiver : Receiver} {name : String} :
    bindMember context receiver name span = .ok tree ↔
      ∃ member, context.catalog.findMember? receiver.lookupType name = some member ∧
        member.isStatic = receiver.isStatic ∧ receiver.access member = tree := by
  unfold bindMember
  cases context.catalog.findMember? receiver.lookupType name with
  | none => simp [fail]
  | some member =>
    by_cases same : member.isStatic = receiver.isStatic
    · simp [same]
    · simp [same, fail]

theorem firstApplicable?_spec {catalog : Catalog} {arguments converted : List Tree}
    {methods : List Method} {method : Method}
    (found : firstApplicable? catalog arguments methods = some (method, converted)) :
    method ∈ methods ∧ catalog.convertAll? arguments method.parameters = some converted := by
  obtain ⟨candidate, inside, here⟩ := List.exists_of_findSome?_eq_some found
  obtain ⟨trees, done, same⟩ := Option.map_eq_some_iff.mp here
  cases same
  exact ⟨inside, done⟩

theorem bindCall_eq_ok_iff {receiver : Receiver} {name : String} {arguments : List Tree} :
    bindCall context receiver name arguments span = .ok tree ↔
      ∃ method converted, firstApplicable? context.catalog arguments
        ((context.catalog.findMethods receiver.lookupType name).filter fun method =>
          method.isStatic = receiver.isStatic) = some (method, converted) ∧
            receiver.call method converted = tree := by
  unfold bindCall
  dsimp only
  generalize context.catalog.findMethods receiver.lookupType name = methods
  cases methods with
  | nil => simp [fail, firstApplicable?]
  | cons first rest =>
      rw [List.isEmpty_cons, if_neg Bool.false_ne_true]
      split
      · rename_i method converted chosen
        simp [chosen]
      · rename_i none
        simp [fail, none]

/-- A method of the receiver is called that is static exactly if a type stands before the dot,
and that takes the arguments. -/
theorem exists_of_bindCall {receiver : Receiver} {name : String} {arguments : List Tree}
    (done : bindCall context receiver name arguments span = .ok tree) :
    ∃ method ∈ context.catalog.findMethods receiver.lookupType name,
      method.isStatic = receiver.isStatic ∧ ∃ converted,
        context.catalog.convertAll? arguments method.parameters = some converted ∧
          receiver.call method converted = tree := by
  obtain ⟨method, converted, chosen, made⟩ := bindCall_eq_ok_iff.mp done
  obtain ⟨candidate, fitting⟩ := firstApplicable?_spec chosen
  obtain ⟨inside, fits⟩ := List.mem_filter.mp candidate
  exact ⟨method, inside, of_decide_eq_true fits, converted, fitting, made⟩

/-- An element of an array is read, or the first indexed property of the type. -/
theorem cases_of_bindIndex {target : Tree} {arguments : List (Tree × Span)}
    (done : bindIndex context target arguments span = .ok tree) :
    (∃ element, context.catalog.element? target.type = some element ∧ ∃ indexes,
      coerceEach context.catalog CoreType.int32 arguments = .ok indexes ∧
        .arrayIndex target indexes element = tree) ∨
    (context.catalog.element? target.type = none ∧ ∃ indexer,
      context.catalog.findIndexer? target.type = some indexer ∧ ∃ converted,
        context.catalog.convertAll? (arguments.map (·.1)) indexer.parameters = some converted ∧
          .callOf (some target) indexer converted = tree) := by
  simp only [bindIndex] at done
  split at done
  · rename_i element isArray
    obtain ⟨indexes, coerced, done⟩ := exists_of_bind_eq_ok done
    exact .inl ⟨element, isArray, indexes, coerced, Except.ok.inj done⟩
  · rename_i noArray
    split at done
    · cases done
    · rename_i indexer found
      split at done
      · rename_i converted fitting
        exact .inr ⟨noArray, indexer, found, converted, fitting, Except.ok.inj done⟩
      · cases done

/-- An object is made by a constructor that takes the arguments, or without a constructor and
without arguments if the type declares none. -/
theorem cases_of_bindCreation {type : TypeId} {arguments : List Tree}
    (done : bindCreation context type arguments span = .ok tree) :
    canBeCreated context.catalog type = true ∧
      ((∃ constructor ∈ context.catalog.constructors type, ∃ converted,
        context.catalog.convertAll? arguments constructor.parameters = some converted ∧
          .create (.of (some constructor) converted type) = tree) ∨
      (context.catalog.constructors type = [] ∧ arguments = [] ∧
        .create (.of (if context.catalog.isValueType type then none else some ⟨type, []⟩)
          [] type) = tree)) := by
  simp only [bindCreation] at done
  split at done
  · cases done
  · rename_i creatable
    rw [Bool.not_eq_true, Bool.not_eq_false'] at creatable
    refine ⟨creatable, ?_⟩
    split at done
    · rename_i constructor converted applicable
      obtain ⟨candidate, declared, here⟩ := List.exists_of_findSome?_eq_some applicable
      obtain ⟨trees, fitting, same⟩ := Option.map_eq_some_iff.mp here
      cases same
      exact .inl ⟨constructor, declared, converted, fitting, Except.ok.inj done⟩
    · split at done
      · rename_i none
        rw [Bool.and_eq_true, List.isEmpty_iff, List.isEmpty_iff] at none
        exact .inr ⟨none.1, none.2, Except.ok.inj done⟩
      · cases done

end Binding

end ExprImports
