import ExprImports.Proofs.Binding.Soundness

/-!
# How the tree of an expression is put together

Binding succeeds in one way for each form of expression: the parts that are evaluated
are bound, each of their trees is taken as it is or converted to the type of its place,
and one node is put above them (`Assembles`, `exists_assembles`). So what holds of a
node if it holds of the trees of the parts holds of every tree that is bound
(`bound_induction`).

**Conversions.** A converted tree is the tree itself, a null of the type asked for, or
a conversion above the tree (`Tree.ConvertsTo`).
-/

set_option autoImplicit false

namespace ExprImports

/-! ## Conversions -/

/-- What the conversion of a tree to a type makes of it. -/
inductive Tree.ConvertsTo (tree : Tree) (target : TypeId) : Tree → Prop where
  | same : ConvertsTo tree target tree
  | null (isNull : tree.isNull = true) : ConvertsTo tree target (.constant .null target)
  | convert : ConvertsTo tree target (.convert .convert tree target)

/-- What widening to a type that is at least as wide makes of a tree. -/
inductive Tree.WidensTo (tree : Tree) : Tree → Prop where
  | same : WidensTo tree tree
  | convert (target : TypeId) : WidensTo tree (.convert .convert tree target)

/-- What the conversion of several trees, each to one of the types, makes of them: the results stand
in the order of the trees. -/
def AllConvert (trees : List Tree) (targets : List TypeId) (converted : List Tree) : Prop :=
  List.Forall₂ (fun tree result => ∃ target ∈ targets, tree.ConvertsTo target result) trees converted

theorem allConvert_nil (targets : List TypeId) : AllConvert [] targets [] :=
  .nil

theorem AllConvert.cons {tree result : Tree} {trees converted : List Tree} {target : TypeId}
    {here targets : List TypeId} (inside : target ∈ here) (further : targets ⊆ here)
    (first : tree.ConvertsTo target result) (rest : AllConvert trees targets converted) :
    AllConvert (tree :: trees) here (result :: converted) := by
  refine List.Forall₂.cons ⟨target, inside, first⟩ (List.Forall₂.imp ?_ rest)
  rintro source made ⟨type, isType, converts⟩
  exact ⟨type, further isType, converts⟩

theorem AllConvert.sources {trees converted : List Tree} {targets : List TypeId}
    (fitting : AllConvert trees targets converted) :
    ∀ result ∈ converted, ∃ tree ∈ trees, ∃ target ∈ targets, tree.ConvertsTo target result :=
  exists_of_mem_right fitting

section Conversions

variable {catalog : Catalog}

theorem convertsTo_of_convert? {tree converted : Tree} {target : TypeId}
    (done : tree.convert? catalog target = some converted) : tree.ConvertsTo target converted := by
  unfold Tree.convert? at done
  split at done
  · cases done
    exact .same
  · split at done
    · rename_i null
      cases done
      rw [Bool.and_eq_true] at null
      exact .null null.1
    · split at done
      · cases done
        exact .convert
      · cases done

theorem allConvert_of_convertAll? {arguments converted : List Tree} {parameters : List TypeId}
    (done : catalog.convertAll? arguments parameters = some converted) :
    AllConvert arguments parameters converted := by
  induction arguments generalizing parameters converted with
  | nil =>
      cases parameters with
      | nil =>
          cases done
          exact allConvert_nil []
      | cons parameter parameters => cases done
  | cons argument arguments ih =>
      cases parameters with
      | nil => cases done
      | cons parameter parameters =>
          rw [Catalog.convertAll?] at done
          split at done
          · cases done
          · rename_i first found
            obtain ⟨others, rest, rfl⟩ := Option.map_eq_some_iff.mp done
            exact (ih rest).cons List.mem_cons_self (List.subset_cons_self _ _)
              (convertsTo_of_convert? found)

theorem widensTo_widen (tree : Tree) (target : TypeId) : tree.WidensTo (tree.widen target) := by
  unfold Tree.widen
  split
  · exact .same
  · exact .convert target

end Conversions

namespace Binding

open Surface

section Coercions

variable {catalog : Catalog}

theorem convertsTo_of_coerce {tree converted : Tree} {target : TypeId} {span : Span}
    (done : coerce catalog tree target span = .ok converted) : tree.ConvertsTo target converted :=
  convertsTo_of_convert? (coerce_eq_ok_iff.mp done)

theorem allConvert_of_coerceEach {trees : List (Tree × Span)} {converted : List Tree}
    {target : TypeId} (done : coerceEach catalog target trees = .ok converted) :
    AllConvert (trees.map (·.1)) [target] converted := by
  induction trees generalizing converted with
  | nil =>
      cases done
      exact allConvert_nil _
  | cons pair rest ih =>
      obtain ⟨first, found, done⟩ := exists_of_bind_eq_ok done
      obtain ⟨others, further, done⟩ := exists_of_bind_eq_ok done
      cases done
      exact (ih further).cons List.mem_cons_self (List.Subset.refl _) (convertsTo_of_coerce found)

end Coercions

/-! ## One node -/

variable {context : Context}

/-- The tree of an expression, put together from the trees of the parts that are
evaluated. -/
inductive Assembles (context : Context) : Expression → List Tree → Tree → Prop where
  | literal (value : Constant) (span : Span) :
      Assembles context (.literal value span) [] (literalTree value)
  | identifier {name : String} {type : TypeId} (span : Span)
      (bound : context.environment.lookup name = some type) :
      Assembles context (.identifier name span) [] (.parameter ⟨name, type⟩)
  | member {target : Expression} {tree : Tree} {name : String} {member : Member} (span : Span)
      (isValue : context.receiverType? target = none)
      (found : context.catalog.findMember? tree.type name = some member) :
      Assembles context (.member target name span) [tree] (.memberAccess tree member member.type)
  | staticMember {target : Expression} {type : TypeId} {name : String} {member : Member}
      (span : Span) (isType : context.receiverType? target = some type)
      (found : context.catalog.findMember? type name = some member)
      (isStatic : member.isStatic = true) :
      Assembles context (.member target name span) [] (.staticAccess member member.type)
  | call {target : Expression} {tree : Tree} {name : String} {arguments : List Expression}
      {trees converted : List Tree} {method : Method} (span : Span)
      (isValue : context.receiverType? target = none)
      (found : method ∈ context.catalog.findMethods tree.type name)
      (fitting : AllConvert trees method.parameters converted) :
      Assembles context (.methodCall target name arguments span) (tree :: trees)
        (.call tree method converted method.returnType)
  | staticCall {target : Expression} {type : TypeId} {name : String}
      {arguments : List Expression} {trees converted : List Tree} {method : Method} (span : Span)
      (isType : context.receiverType? target = some type)
      (found : method ∈ context.catalog.findMethods type name) (isStatic : method.isStatic = true)
      (fitting : AllConvert trees method.parameters converted) :
      Assembles context (.methodCall target name arguments span) trees
        (.staticCall method converted method.returnType)
  | element {target : Expression} {tree : Tree} {arguments : List Expression}
      {trees converted : List Tree} {element : TypeId} (span : Span)
      (isArray : context.catalog.element? tree.type = some element)
      (fitting : AllConvert trees [CoreType.int32] converted) :
      Assembles context (.index target arguments span) (tree :: trees)
        (.arrayIndex tree converted element)
  | indexer {target : Expression} {tree : Tree} {arguments : List Expression}
      {trees converted : List Tree} {indexer : Method} (span : Span)
      (found : indexer ∈ context.catalog.findMethods tree.type Catalog.indexerName)
      (fitting : AllConvert trees indexer.parameters converted) :
      Assembles context (.index target arguments span) (tree :: trees)
        (.call tree indexer converted indexer.returnType)
  | create {named : TypeName} {arguments : List Expression} {type : TypeId}
      {constructor : Option Constructor} {trees converted : List Tree} {parameters : List TypeId}
      (span : Span) (resolved : context.resolve named = .ok type)
      (own : ∀ made ∈ constructor, made.declaringType = type)
      (fitting : AllConvert trees parameters converted) :
      Assembles context (.create named arguments span) trees
        (.create (.of constructor converted type))
  | createArray {named : TypeName} {items : List Expression} {element array : TypeId}
      {trees converted : List Tree} (span : Span) (resolved : context.resolve named = .ok element)
      (isArray : context.catalog.findArray? element 1 = some array)
      (fitting : AllConvert trees [element] converted) :
      Assembles context (.createArray named items span) trees
        (.newArray .elements converted array)
  | typeOf {named : TypeName} {type : TypeId} (span : Span)
      (resolved : context.resolve named = .ok type) :
      Assembles context (.typeOf named span) [] (.constant (.type type) CoreType.type)
  | typeIs {operand : Expression} {named : TypeName} {tree : Tree} {type : TypeId} (span : Span)
      (resolved : context.resolve named = .ok type) :
      Assembles context (.typeIs operand named span) [tree] (.typeIs tree type CoreType.boolean)
  | typeAs {operand : Expression} {named : TypeName} {tree : Tree} {type : TypeId} (span : Span)
      (resolved : context.resolve named = .ok type) :
      Assembles context (.typeAs operand named span) [tree] (.convert .typeAs tree type)
  | unary {operator : UnaryOperator} {operand : Expression} {tree : Tree} (op : UnaryOp)
      (span : Span) :
      Assembles context (.unary operator operand span) [tree] (.unary op tree tree.type)
  | concatenation {left right : Expression} {first second : Tree} {method : Method} (span : Span)
      (fitting : AllConvert [first, second] method.parameters [first, second]) :
      Assembles context (.binary .add left right span) [first, second]
        (.staticCall method [first, second] method.returnType)
  | binary {operator : BinaryOperator} {left right : Expression}
      {first second widerFirst widerSecond : Tree} {type : TypeId} (op : BinaryOp) (span : Span)
      (widensFirst : first.WidensTo widerFirst) (widensSecond : second.WidensTo widerSecond)
      (isResult : type.isNumeric = true ∨ type = CoreType.boolean) :
      Assembles context (.binary operator left right span) [first, second]
        (.binary op widerFirst widerSecond type)
  | conditional {test ifTrue ifFalse : Expression} {truth first second convertedTruth
      convertedFirst convertedSecond : Tree} {type : TypeId} (span : Span)
      (convertsTruth : truth.ConvertsTo CoreType.boolean convertedTruth)
      (isBranch : type = first.type ∨ type = second.type)
      (convertsFirst : first.ConvertsTo type convertedFirst)
      (convertsSecond : second.ConvertsTo type convertedSecond) :
      Assembles context (.conditional test ifTrue ifFalse span) [truth, first, second]
        (.conditional convertedTruth convertedFirst convertedSecond type)
  | assign {target value : Expression} {place given converted : Tree} (span : Span)
      (converts : given.ConvertsTo place.type converted) :
      Assembles context (.assign target value span) [place, given]
        (.assign place converted place.type)

/-! ## What each way of binding puts together -/

theorem assembles_of_numericOperation {operator : BinaryOperator} {left right : Expression}
    {first second tree : Tree} {resultType : TypeId → TypeId} {span place : Span}
    (isResult : ∀ common : TypeId, common.isNumeric = true →
      (resultType common).isNumeric = true ∨ resultType common = CoreType.boolean)
    (done : numericOperation operator first second resultType place = .ok tree) :
    Assembles context (.binary operator left right span) [first, second] tree := by
  unfold numericOperation at done
  split at done
  · rename_i common found
    cases done
    exact .binary _ span (widensTo_widen first common) (widensTo_widen second common)
      (isResult common (commonNumeric?_spec found).1)
  · cases done

theorem assembles_of_concatenation {left right : Expression} {first second tree : Tree}
    {span place : Span} (isFirst : first.type = CoreType.string)
    (isSecond : second.type = CoreType.string)
    (done : concatenation context first second place = .ok tree) :
    Assembles context (.binary .add left right span) [first, second] tree := by
  unfold concatenation at done
  dsimp only at done
  split at done
  · rename_i method found
    cases done
    have isConcat := List.find?_some found
    rw [Bool.and_eq_true, decide_eq_true_eq] at isConcat
    have fitting : context.catalog.convertAll? [first, second] method.parameters =
        some [first, second] := by
      rw [isConcat.2]
      simp only [Catalog.convertAll?, Tree.convert?, isFirst, isSecond, if_true, Option.map_some]
    exact .concatenation span (allConvert_of_convertAll? fitting)
  · cases done

/-- A comparison for equality, whose operands are widened only if they are numbers. -/
theorem assembles_of_equality {operator : BinaryOperator} {left right : Expression}
    {first second tree : Tree} {span place : Span}
    (isEquality : operator = .equal ∨ operator = .notEqual)
    (done : bindBinary context operator first second place = .ok tree) :
    Assembles context (.binary operator left right span) [first, second] tree := by
  rcases isEquality with rfl | rfl <;>
  · simp only [bindBinary] at done
    split at done
    · rename_i common found
      cases done
      exact .binary _ span (widensTo_widen first common) (widensTo_widen second common) (.inr rfl)
    · split at done
      · cases done
        exact .binary _ span .same .same (.inr rfl)
      · cases done

theorem assembles_of_logical {operator : BinaryOperator} {left right : Expression}
    {first second tree : Tree} {span place : Span}
    (isLogical : operator = .and ∨ operator = .or)
    (done : bindBinary context operator first second place = .ok tree) :
    Assembles context (.binary operator left right span) [first, second] tree := by
  rcases isLogical with rfl | rfl <;>
  · simp only [bindBinary] at done
    split at done
    · cases done
      exact .binary _ span .same .same (.inr rfl)
    · cases done

theorem assembles_of_bindBinary {operator : BinaryOperator} {left right : Expression}
    {first second tree : Tree} {span : Span}
    (done : bindBinary context operator first second span = .ok tree) :
    Assembles context (.binary operator left right span) [first, second] tree := by
  have number (common : TypeId) (numeric : common.isNumeric = true) :
      (id common).isNumeric = true ∨ id common = CoreType.boolean := .inl numeric
  have truth (common : TypeId) (_ : common.isNumeric = true) :
      CoreType.boolean.isNumeric = true ∨ CoreType.boolean = CoreType.boolean := .inr rfl
  cases operator with
  | add =>
      rw [bindBinary] at done
      split at done
      · rename_i strings
        rw [Bool.and_eq_true, decide_eq_true_eq, decide_eq_true_eq] at strings
        exact assembles_of_concatenation strings.1 strings.2 done
      · exact assembles_of_numericOperation number done
  | subtract => exact assembles_of_numericOperation number done
  | multiply => exact assembles_of_numericOperation number done
  | divide => exact assembles_of_numericOperation number done
  | remainder => exact assembles_of_numericOperation number done
  | less => exact assembles_of_numericOperation truth done
  | lessEqual => exact assembles_of_numericOperation truth done
  | greater => exact assembles_of_numericOperation truth done
  | greaterEqual => exact assembles_of_numericOperation truth done
  | equal => exact assembles_of_equality (.inl rfl) done
  | notEqual => exact assembles_of_equality (.inr rfl) done
  | and => exact assembles_of_logical (.inl rfl) done
  | or => exact assembles_of_logical (.inr rfl) done

theorem assembles_of_bindCreation (owned : context.catalog.Owned) {named : TypeName}
    {arguments : List Expression} {type : TypeId} {trees : List Tree} {tree : Tree}
    {span : Span} (resolved : context.resolve named = .ok type)
    (done : bindCreation context type trees span = .ok tree) :
    Assembles context (.create named arguments span) trees tree := by
  obtain ⟨_, ⟨constructor, declared, converted, fitting, rfl⟩ | ⟨_, rfl, rfl⟩⟩ :=
    cases_of_bindCreation done
  · refine .create span resolved ?_ (allConvert_of_convertAll? fitting)
    rintro made ⟨⟩
    exact owned.declaringType_of_mem_constructors declared
  · refine .create span resolved ?_ (allConvert_nil [])
    intro made isImplied
    split at isImplied <;> cases isImplied
    rfl

/-- The common type of the branches is that of one of them. -/
theorem eq_of_branchType? {catalog : Catalog} {ifTrue ifFalse : Tree} {type : TypeId}
    (found : branchType? catalog ifTrue ifFalse = some type) :
    type = ifTrue.type ∨ type = ifFalse.type := by
  unfold branchType? at found
  dsimp only at found
  repeat' split at found
  all_goals first
    | exact .inl (Option.some.inj found).symm
    | exact .inr (Option.some.inj found).symm
    | cases found

theorem allConvert_of_boundItems {element : TypeId} {items : List Expression}
    {trees : List Tree} (bound : BoundItems context element items trees) :
    ∃ sources, BoundAll context items sources ∧ AllConvert sources [element] trees := by
  induction bound with
  | nil => exact ⟨[], .nil, allConvert_nil _⟩
  | cons isBound _ ih =>
      obtain ⟨first, bound, coerced⟩ := isBound
      obtain ⟨others, boundRest, fitting⟩ := ih
      exact ⟨first :: others, .cons bound boundRest,
        fitting.cons List.mem_cons_self (List.Subset.refl _) (convertsTo_of_coerce coerced)⟩

/-! ## Expressions -/

/-- The value before the dot, if there is one, is the first part of a call. -/
theorem exists_assembles_call {target : Expression} {name : String}
    {arguments : List Expression} {span : Span} {receiver : Receiver} {trees : List Tree}
    {tree : Tree} (before : BindsReceiver context target receiver)
    (bound : BoundAll context arguments trees)
    (made : bindCall context receiver name trees span = .ok tree) :
    ∃ parts, BoundAll context (context.valueParts (.methodCall target name arguments span)) parts ∧
      Assembles context (.methodCall target name arguments span) parts tree := by
  obtain ⟨method, inside, fits, converted, fitting, rfl⟩ := exists_of_bindCall made
  have fitting := allConvert_of_convertAll? fitting
  rw [Context.valueParts, Context.receiverParts]
  cases before with
  | type isType =>
      rw [isType]
      exact ⟨trees, bound, .staticCall span isType inside fits fitting⟩
  | @value below isValue boundTarget =>
      rw [isValue]
      exact ⟨below :: trees, .cons boundTarget bound, .call span isValue inside fitting⟩

theorem exists_assembles_member {target : Expression} {name : String} {span : Span}
    {receiver : Receiver} {tree : Tree} (before : BindsReceiver context target receiver)
    (made : bindMember context receiver name span = .ok tree) :
    ∃ parts, BoundAll context (context.valueParts (.member target name span)) parts ∧
      Assembles context (.member target name span) parts tree := by
  obtain ⟨member, found, fits, rfl⟩ := bindMember_eq_ok_iff.mp made
  rw [Context.valueParts, Context.receiverParts]
  cases before with
  | type isType =>
      rw [isType]
      exact ⟨[], .nil, .staticMember span isType found fits⟩
  | @value below isValue bound =>
      rw [isValue]
      exact ⟨[below], .cons bound .nil, .member span isValue found⟩

theorem assembles_of_bindIndex {target : Expression} {arguments : List Expression} {span : Span}
    {indexed : Tree} {trees : List Tree} {tree : Tree} (bound : BoundAll context arguments trees)
    (made : bindIndex context indexed (trees.zip (arguments.map (·.span))) span = .ok tree) :
    Assembles context (.index target arguments span) (indexed :: trees) tree := by
  have sources := map_fst_zip_spans bound
  obtain ⟨element, isArray, indexes, coerced, rfl⟩ | ⟨_, indexer, found, converted, fitting, rfl⟩ :=
    cases_of_bindIndex made
  · exact .element span isArray (sources ▸ allConvert_of_coerceEach coerced)
  · rw [sources] at fitting
    exact .indexer span (List.mem_of_find?_eq_some found) (allConvert_of_convertAll? fitting)

theorem assembles_of_bindUnary {operator : UnaryOperator} {operand : Expression} {span : Span}
    {below tree : Tree} (made : bindUnary operator below span = .ok tree) :
    Assembles context (.unary operator operand span) [below] tree := by
  unfold bindUnary at made
  cases operator <;>
  · dsimp only at made
    split at made
    · cases made
      exact .unary _ span
    · cases made

theorem assembles_of_bindConditional {test ifTrue ifFalse : Expression} {span : Span}
    {truth converted first second tree : Tree}
    (isTruth : coerce context.catalog truth CoreType.boolean test.span = .ok converted)
    (made : bindConditional context converted first second span = .ok tree) :
    Assembles context (.conditional test ifTrue ifFalse span) [truth, first, second] tree := by
  unfold bindConditional at made
  split at made
  · cases made
  · rename_i type common
    obtain ⟨convertedFirst, coercedFirst, made⟩ := exists_of_bind_eq_ok made
    obtain ⟨convertedSecond, coercedSecond, made⟩ := exists_of_bind_eq_ok made
    cases made
    exact .conditional span (convertsTo_of_coerce isTruth) (eq_of_branchType? common)
      (convertsTo_of_coerce coercedFirst) (convertsTo_of_coerce coercedSecond)

/-- **What is bound is put together from the trees of its parts.** -/
theorem exists_assembles (owned : context.catalog.Owned) {expression : Expression} {tree : Tree}
    (done : bind context expression = .ok tree) :
    ∃ parts, BoundAll context (context.valueParts expression) parts ∧
      Assembles context expression parts tree := by
  cases binds_of_bind done with
  | literal value span => exact ⟨[], .nil, .literal value span⟩
  | @identifier _ span _ known => exact ⟨[], .nil, .identifier span known⟩
  | member before made => exact exists_assembles_member before made
  | methodCall before bound made => exact exists_assembles_call before bound made
  | index before bound made => exact ⟨_, .cons before bound, assembles_of_bindIndex bound made⟩
  | create resolved bound made =>
      exact ⟨_, bound, assembles_of_bindCreation owned resolved made⟩
  | @createArray _ _ span _ _ _ resolved isArray bound =>
      obtain ⟨sources, boundAll, fitting⟩ := allConvert_of_boundItems bound
      exact ⟨sources, boundAll, .createArray span resolved isArray fitting⟩
  | @typeOf _ span _ resolved => exact ⟨[], .nil, .typeOf span resolved⟩
  | @typeIs _ _ span _ _ bound resolved => exact ⟨_, .cons bound .nil, .typeIs span resolved⟩
  | @typeAs _ _ span _ _ bound resolved => exact ⟨_, .cons bound .nil, .typeAs span resolved⟩
  | unary bound made => exact ⟨_, .cons bound .nil, assembles_of_bindUnary made⟩
  | binary boundLeft boundRight made =>
      exact ⟨_, .cons boundLeft (.cons boundRight .nil), assembles_of_bindBinary made⟩
  | conditional boundTest isTruth boundTrue boundFalse made =>
      exact ⟨_, .cons boundTest (.cons boundTrue (.cons boundFalse .nil)),
        assembles_of_bindConditional isTruth made⟩
  | @assign _ _ span _ _ _ boundTarget boundValue fits =>
      exact ⟨_, .cons boundTarget (.cons boundValue .nil),
        .assign span (convertsTo_of_coerce fits)⟩

/-- What holds of a tree if it holds of the trees that it is put together from, holds of
every tree that is bound. -/
theorem bound_induction (owned : context.catalog.Owned) {motive : Tree → Prop}
    (step : ∀ {expression : Expression} {parts : List Tree} {tree : Tree},
      Assembles context expression parts tree → (∀ part ∈ parts, motive part) → motive tree)
    {expression : Expression} {tree : Tree} (done : bind context expression = .ok tree) :
    motive tree := by
  induction size : sizeOf expression using Nat.strongRecOn generalizing expression tree with
  | _ bound ih =>
      obtain ⟨parts, boundParts, assembles⟩ := exists_assembles owned done
      refine step assembles fun part isPart => ?_
      obtain ⟨written, isWritten, boundPart⟩ := exists_of_mem_bound boundParts isPart
      exact ih _ (size ▸ Context.sizeOf_lt_of_mem_valueParts isWritten) boundPart rfl

end Binding

end ExprImports
