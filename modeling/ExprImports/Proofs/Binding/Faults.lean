import ExprImports.Proofs.Binding.Forms
import ExprImports.Proofs.Surface.Spelling

/-!
# Where expressions are at fault

An expression fails to be bound at a part that is evaluated, or else at a step of its own
(`Fails`), so whatever fails does so at a step of an expression that occurs in it
(`exists_fails_of_bind`).

**Places.** Every fault concerns an expression or a name of a type that occurs in the bound
expression, and is reported at the stretch which that part was read from
(`exists_part_of_compile_error`). No stretch is made up on the way: what is wrong with a node
is reported at the node, at a type name in it, or at a part before a dot or between
delimiters.

**Array types.** The steps are looked at one by one only once, so what a step can report is
said along with its place: that an array type is missing is found out only where an array is
created (`blames_of_compile_error`).
-/

set_option autoImplicit false

namespace ExprImports

open Surface

/-- What occurs in a part occurs in the whole. -/
theorem Surface.Part.Occurs.trans {part inner whole : Part} (first : part.Occurs inner)
    (second : inner.Occurs whole) : part.Occurs whole := by
  induction second with
  | root => exact first
  | inPart isPart _ ih => exact .inPart isPart ih

namespace Binding

variable {context : Context} {fault : Fault}

/-- What is evaluated is a part of the expression. -/
theorem mem_parts_of_mem_valueParts {whole part : Expression}
    (isPart : part ∈ context.valueParts whole) : Part.expression part ∈ whole.parts := by
  have receiver {target : Expression} (isReceiver : part ∈ context.receiverParts target) :
      part = target := Context.mem_receiverParts isReceiver
  cases whole <;> simp only [Context.valueParts, Expression.parts, List.mem_append,
    List.mem_cons, List.mem_map, Part.expression.injEq, exists_eq_right] at isPart ⊢ <;> grind

theorem mem_cons_arguments {part : Part} {arguments : List Expression} {argument : Expression}
    (isArgument : argument ∈ arguments) :
    Part.expression argument ∈ part :: arguments.map .expression :=
  List.mem_cons_of_mem _ (List.mem_map_of_mem isArgument)

/-! ## Steps that fail -/

/-- The steps at which an expression fails by itself, after the parts that the step needs have
been bound. -/
inductive Fails (context : Context) (fault : Fault) : Expression → Prop where
  | receiver {whole target : Expression} {type : TypeId}
      (isPart : .expression target ∈ whole.parts)
      (failed : context.visible type target.span = .error fault) : Fails context fault whole
  | resolve {whole : Expression} {named : TypeName} (isPart : .type named ∈ whole.parts)
      (failed : context.resolve named = .error fault) : Fails context fault whole
  | coerce {whole inner : Expression} {tree : Tree} {target : TypeId}
      (isPart : .expression inner ∈ whole.parts)
      (failed : coerce context.catalog tree target inner.span = .error fault) :
      Fails context fault whole
  | typeAs {whole : Expression} {named : TypeName} {tree : Tree} {type : TypeId}
      (isPart : .type named ∈ whole.parts)
      (failed : bindAs context tree type named.span = .error fault) : Fails context fault whole
  | identifier {name : String} {span : Span}
      (failed : bindIdentifier context name span = .error fault) :
      Fails context fault (.identifier name span)
  | member {target : Expression} {name : String} {span : Span} {receiver : Receiver}
      (failed : bindMember context receiver name span = .error fault) :
      Fails context fault (.member target name span)
  | methodCall {target : Expression} {name : String} {arguments : List Expression} {span : Span}
      {receiver : Receiver} {trees : List Tree}
      (failed : bindCall context receiver name trees span = .error fault) :
      Fails context fault (.methodCall target name arguments span)
  | index {target : Expression} {arguments : List Expression} {span : Span} {indexed : Tree}
      {places : List (Tree × Span)} (noArray : context.catalog.element? indexed.type = none)
      (failed : bindIndex context indexed places span = .error fault) :
      Fails context fault (.index target arguments span)
  | create {named : TypeName} {arguments : List Expression} {span : Span} {type : TypeId}
      {trees : List Tree} (failed : bindCreation context type trees span = .error fault) :
      Fails context fault (.create named arguments span)
  | createArray {named : TypeName} {items : List Expression} {span : Span} {element : TypeId}
      (resolved : context.resolve named = .ok element)
      (failed : arrayType context element span = .error fault) :
      Fails context fault (.createArray named items span)
  | unary {operator : UnaryOperator} {operand : Expression} {span : Span} {below : Tree}
      (failed : bindUnary operator below span = .error fault) :
      Fails context fault (.unary operator operand span)
  | binary {operator : BinaryOperator} {left right : Expression} {span : Span}
      {first second : Tree}
      (failed : bindBinary context operator first second span = .error fault) :
      Fails context fault (.binary operator left right span)
  | conditional {test ifTrue ifFalse : Expression} {span : Span} {truth first second : Tree}
      (failed : bindConditional context truth first second span = .error fault) :
      Fails context fault (.conditional test ifTrue ifFalse span)

theorem exists_of_bindAll_eq_error {expressions : List Expression}
    (failed : bindAll context expressions = .error fault) :
    ∃ expression ∈ expressions, bind context expression = .error fault := by
  induction expressions with
  | nil =>
      rw [bindAll] at failed
      cases failed
  | cons expression rest ih =>
      rw [bindAll] at failed
      obtain first | ⟨tree, _, failed⟩ := cases_of_bind_eq_error failed
      · exact ⟨expression, List.mem_cons_self, first⟩
      obtain inRest | ⟨others, _, failed⟩ := cases_of_bind_eq_error failed
      · obtain ⟨other, isOther, failed⟩ := ih inRest
        exact ⟨other, List.mem_cons_of_mem _ isOther, failed⟩
      · cases failed

theorem exists_of_bindItems_eq_error {element : TypeId} {items : List Expression}
    (failed : bindItems context element items = .error fault) :
    ∃ item ∈ items, bind context item = .error fault ∨
      ∃ tree, coerce context.catalog tree element item.span = .error fault := by
  induction items with
  | nil =>
      rw [bindItems] at failed
      cases failed
  | cons item rest ih =>
      rw [bindItems] at failed
      obtain first | ⟨tree, _, failed⟩ := cases_of_bind_eq_error failed
      · exact ⟨item, List.mem_cons_self, .inl first⟩
      obtain first | ⟨converted, _, failed⟩ := cases_of_bind_eq_error failed
      · exact ⟨item, List.mem_cons_self, .inr ⟨tree, first⟩⟩
      obtain inRest | ⟨others, _, failed⟩ := cases_of_bind_eq_error failed
      · obtain ⟨other, isOther, failed⟩ := ih inRest
        exact ⟨other, List.mem_cons_of_mem _ isOther, failed⟩
      · cases failed

theorem exists_of_coerceEach_eq_error {catalog : Catalog} {target : TypeId}
    {arguments : List (Tree × Span)} (failed : coerceEach catalog target arguments = .error fault) :
    ∃ argument ∈ arguments, coerce catalog argument.1 target argument.2 = .error fault := by
  induction arguments with
  | nil => cases failed
  | cons argument rest ih =>
      rw [coerceEach] at failed
      obtain first | ⟨converted, _, failed⟩ := cases_of_bind_eq_error failed
      · exact ⟨argument, List.mem_cons_self, first⟩
      obtain inRest | ⟨others, _, failed⟩ := cases_of_bind_eq_error failed
      · obtain ⟨other, isOther, failed⟩ := ih inRest
        exact ⟨other, List.mem_cons_of_mem _ isOther, failed⟩
      · cases failed

/-- The value of a part before a dot is bound only if it names no type. -/
theorem cases_of_receiverOf_eq_error {target : Expression}
    (failed : receiverOf context target (fun _ => bind context target) = .error fault) :
    (∃ type, context.visible type target.span = .error fault) ∨
      ∃ part ∈ context.receiverParts target, bind context part = .error fault := by
  unfold receiverOf at failed
  split at failed
  next type isType => exact .inl ⟨type, map_eq_error_iff.mp failed⟩
  next noType =>
    exact .inr ⟨target, Context.mem_receiverParts_self noType, map_eq_error_iff.mp failed⟩

/-- **A part that is evaluated fails, or else a step of the expression itself.** -/
theorem cases_of_bind_error {whole : Expression} (failed : bind context whole = .error fault) :
    (∃ part ∈ context.valueParts whole, bind context part = .error fault) ∨
      Fails context fault whole := by
  cases whole with
  | literal value span =>
      rw [bind] at failed
      cases failed
  | identifier name span =>
      rw [bind] at failed
      exact .inr (.identifier failed)
  | member target name span =>
      rw [bind] at failed
      obtain before | ⟨receiver, _, failed⟩ := cases_of_bind_eq_error failed
      · obtain ⟨type, failed⟩ | below := cases_of_receiverOf_eq_error before
        · exact .inr (.receiver List.mem_cons_self failed)
        · exact .inl below
      · exact .inr (.member failed)
  | methodCall target name arguments span =>
      rw [bind] at failed
      obtain before | ⟨receiver, _, failed⟩ := cases_of_bind_eq_error failed
      · obtain ⟨type, failed⟩ | ⟨part, isPart, failed⟩ := cases_of_receiverOf_eq_error before
        · exact .inr (.receiver List.mem_cons_self failed)
        · exact .inl ⟨part, List.mem_append_left _ isPart, failed⟩
      obtain given | ⟨trees, _, failed⟩ := cases_of_bind_eq_error failed
      · obtain ⟨argument, isArgument, failed⟩ := exists_of_bindAll_eq_error given
        exact .inl ⟨argument, List.mem_append_right _ isArgument, failed⟩
      · exact .inr (.methodCall failed)
  | index target arguments span =>
      rw [bind] at failed
      obtain before | ⟨indexed, _, failed⟩ := cases_of_bind_eq_error failed
      · exact .inl ⟨target, List.mem_cons_self, before⟩
      obtain given | ⟨trees, _, failed⟩ := cases_of_bind_eq_error failed
      · obtain ⟨argument, isArgument, failed⟩ := exists_of_bindAll_eq_error given
        exact .inl ⟨argument, List.mem_cons_of_mem _ isArgument, failed⟩
      cases isArray : context.catalog.element? indexed.type with
      | none => exact .inr (.index isArray failed)
      | some element =>
          -- An index is converted at the stretch of the expression that it is bound from.
          simp only [bindIndex, isArray] at failed
          obtain failed | ⟨indexes, _, failed⟩ := cases_of_bind_eq_error failed
          · obtain ⟨pair, isPair, failed⟩ := exists_of_coerceEach_eq_error failed
            obtain ⟨argument, isArgument, sameSpan⟩ :=
              List.mem_map.mp (List.of_mem_zip isPair).2
            rw [← sameSpan] at failed
            exact .inr (.coerce (mem_cons_arguments isArgument) failed)
          · cases failed
  | create named arguments span =>
      rw [bind] at failed
      obtain unresolved | ⟨type, _, failed⟩ := cases_of_bind_eq_error failed
      · exact .inr (.resolve List.mem_cons_self unresolved)
      obtain given | ⟨trees, _, failed⟩ := cases_of_bind_eq_error failed
      · exact .inl (exists_of_bindAll_eq_error given)
      · exact .inr (.create failed)
  | createArray named items span =>
      rw [bind] at failed
      obtain unresolved | ⟨element, resolved, failed⟩ := cases_of_bind_eq_error failed
      · exact .inr (.resolve List.mem_cons_self unresolved)
      obtain missing | ⟨array, _, failed⟩ := cases_of_bind_eq_error failed
      · exact .inr (.createArray resolved missing)
      obtain given | ⟨trees, _, failed⟩ := cases_of_bind_eq_error failed
      · obtain ⟨item, isItem, failed | ⟨tree, failed⟩⟩ := exists_of_bindItems_eq_error given
        · exact .inl ⟨item, isItem, failed⟩
        · exact .inr (.coerce (mem_cons_arguments isItem) failed)
      · cases failed
  | typeOf named span =>
      rw [bind] at failed
      obtain unresolved | ⟨type, _, failed⟩ := cases_of_bind_eq_error failed
      · exact .inr (.resolve List.mem_cons_self unresolved)
      · cases failed
  | typeIs operand named span =>
      rw [bind] at failed
      obtain below | ⟨tree, _, failed⟩ := cases_of_bind_eq_error failed
      · exact .inl ⟨operand, List.mem_cons_self, below⟩
      obtain unresolved | ⟨type, _, failed⟩ := cases_of_bind_eq_error failed
      · exact .inr (.resolve (List.mem_cons_of_mem _ List.mem_cons_self) unresolved)
      · cases failed
  | typeAs operand named span =>
      rw [bind] at failed
      obtain below | ⟨tree, _, failed⟩ := cases_of_bind_eq_error failed
      · exact .inl ⟨operand, List.mem_cons_self, below⟩
      obtain unresolved | ⟨type, _, failed⟩ := cases_of_bind_eq_error failed
      · exact .inr (.resolve (List.mem_cons_of_mem _ List.mem_cons_self) unresolved)
      · exact .inr (.typeAs (List.mem_cons_of_mem _ List.mem_cons_self) failed)
  | unary operator operand span =>
      rw [bind] at failed
      obtain below | ⟨tree, _, failed⟩ := cases_of_bind_eq_error failed
      · exact .inl ⟨operand, List.mem_cons_self, below⟩
      · exact .inr (.unary failed)
  | binary operator left right span =>
      rw [bind] at failed
      obtain onLeft | ⟨first, _, failed⟩ := cases_of_bind_eq_error failed
      · exact .inl ⟨left, List.mem_cons_self, onLeft⟩
      obtain onRight | ⟨second, _, failed⟩ := cases_of_bind_eq_error failed
      · exact .inl ⟨right, List.mem_cons_of_mem _ List.mem_cons_self, onRight⟩
      · exact .inr (.binary failed)
  | conditional test ifTrue ifFalse span =>
      rw [bind] at failed
      obtain onTest | ⟨truth, _, failed⟩ := cases_of_bind_eq_error failed
      · exact .inl ⟨test, List.mem_cons_self, onTest⟩
      obtain noTruth | ⟨converted, _, failed⟩ := cases_of_bind_eq_error failed
      · exact .inr (.coerce List.mem_cons_self noTruth)
      obtain onTrue | ⟨first, _, failed⟩ := cases_of_bind_eq_error failed
      · exact .inl ⟨ifTrue, List.mem_cons_of_mem _ List.mem_cons_self, onTrue⟩
      obtain onFalse | ⟨second, _, failed⟩ := cases_of_bind_eq_error failed
      · have isLast := List.mem_cons_of_mem ifTrue (List.mem_singleton_self ifFalse)
        exact .inl ⟨ifFalse, List.mem_cons_of_mem _ isLast, onFalse⟩
      · exact .inr (.conditional failed)
  | assign target value span =>
      rw [bind] at failed
      obtain onTarget | ⟨place, _, failed⟩ := cases_of_bind_eq_error failed
      · exact .inl ⟨target, List.mem_cons_self, onTarget⟩
      obtain onValue | ⟨given, _, failed⟩ := cases_of_bind_eq_error failed
      · exact .inl ⟨value, List.mem_cons_of_mem _ List.mem_cons_self, onValue⟩
      obtain unfit | ⟨converted, _, failed⟩ := cases_of_bind_eq_error failed
      · exact .inr (.coerce (List.mem_cons_of_mem _ List.mem_cons_self) unfit)
      · cases failed

/-- **Whatever fails does so at a step of an expression that occurs in the whole.** -/
theorem exists_fails_of_bind {whole : Expression} (failed : bind context whole = .error fault) :
    ∃ inner, (Part.expression inner).Occurs (.expression whole) ∧ Fails context fault inner := by
  induction size : sizeOf whole using Nat.strongRecOn generalizing whole with
  | _ bound ih =>
      obtain ⟨part, isPart, below⟩ | fails := cases_of_bind_error failed
      · have smaller := size ▸ Context.sizeOf_lt_of_mem_valueParts isPart
        obtain ⟨inner, occurs, fails⟩ := ih _ smaller below rfl
        exact ⟨inner, .inPart (mem_parts_of_mem_valueParts isPart) occurs, fails⟩
      · exact ⟨whole, .root, fails⟩

/-! ## Single nodes -/

/-- Whether an array type is missing. -/
def Cause.isArrayUnavailable : Cause → Bool
  | .arrayUnavailable _ => true
  | _ => false

/-- Whatever is wrong is wrong at this stretch, and it is not that an array type is missing. -/
inductive FaultsAt {α : Type} (span : Span) : Result α → Prop
  | ok {value : α} : FaultsAt span (.ok value)
  | error {cause : Cause} (isOther : cause.isArrayUnavailable = false) :
      FaultsAt span (.error ⟨cause, span⟩)

namespace FaultsAt

variable {α β : Type} {span : Span}

theorem fail {cause : Cause} (isOther : cause.isArrayUnavailable = false) :
    FaultsAt span (Binding.fail span cause : Result α) :=
  .error isOther

theorem bind {first : Result α} {next : α → Result β} (here : FaultsAt span first)
    (further : ∀ value, FaultsAt span (next value)) : FaultsAt span (first >>= next) := by
  cases here with
  | ok => exact further _
  | error isOther => exact .error isOther

end FaultsAt

section Nodes

variable (context : Context) (span : Span)

theorem faultsAt_visible (type : TypeId) : FaultsAt span (context.visible type span) := by
  unfold Context.visible
  split
  · exact .ok
  · exact .fail rfl

theorem faultsAt_resolve (type : TypeName) : FaultsAt type.span (context.resolve type) := by
  unfold Context.resolve
  split
  · exact .fail rfl
  · exact faultsAt_visible context type.span _
  · exact .fail rfl

theorem faultsAt_coerce (catalog : Catalog) (tree : Tree) (target : TypeId) :
    FaultsAt span (coerce catalog tree target span) := by
  unfold coerce
  split
  · exact .ok
  · exact .fail rfl

theorem faultsAt_bindIdentifier (name : String) :
    FaultsAt span (bindIdentifier context name span) := by
  unfold bindIdentifier
  split
  · exact .ok
  · split <;> exact .fail rfl

theorem faultsAt_bindMember (receiver : Receiver) (name : String) :
    FaultsAt span (bindMember context receiver name span) := by
  unfold bindMember
  split
  · split
    · exact .ok
    · exact .fail rfl
  · exact .fail rfl

theorem faultsAt_bindCall (receiver : Receiver) (name : String) (arguments : List Tree) :
    FaultsAt span (bindCall context receiver name arguments span) := by
  unfold bindCall
  dsimp only
  split
  · exact .fail rfl
  · split
    · exact .ok
    · exact .fail rfl

/-- An indexer is called, or there is none that fits. -/
theorem faultsAt_bindIndex {target : Tree} (arguments : List (Tree × Span))
    (noArray : context.catalog.element? target.type = none) :
    FaultsAt span (bindIndex context target arguments span) := by
  simp only [bindIndex, noArray]
  split
  · exact .fail rfl
  · split
    · exact .ok
    · exact .fail rfl

theorem faultsAt_bindCreation (type : TypeId) (arguments : List Tree) :
    FaultsAt span (bindCreation context type arguments span) := by
  unfold bindCreation
  dsimp only
  split
  · exact .fail rfl
  · split
    · exact .ok
    · split
      · exact .ok
      · exact .fail rfl

theorem faultsAt_bindAs (operand : Tree) (type : TypeId) :
    FaultsAt span (bindAs context operand type span) := by
  unfold bindAs
  split
  · exact .fail rfl
  · exact .ok

theorem faultsAt_bindUnary (operator : UnaryOperator) (operand : Tree) :
    FaultsAt span (bindUnary operator operand span) := by
  cases operator <;>
  · unfold bindUnary
    dsimp only
    split
    · exact .ok
    · exact .fail rfl

theorem faultsAt_numericOperation (operator : BinaryOperator) (left right : Tree)
    (resultType : TypeId → TypeId) :
    FaultsAt span (numericOperation operator left right resultType span) := by
  unfold numericOperation
  split
  · exact .ok
  · exact .fail rfl

theorem faultsAt_concatenation (left right : Tree) :
    FaultsAt span (concatenation context left right span) := by
  unfold concatenation
  dsimp only
  split
  · exact .ok
  · exact .fail rfl

theorem faultsAt_bindBinary (operator : BinaryOperator) (left right : Tree) :
    FaultsAt span (bindBinary context operator left right span) := by
  cases operator with
  | add =>
    unfold bindBinary
    dsimp only
    split
    · exact faultsAt_concatenation context span left right
    · exact faultsAt_numericOperation span _ left right _
  | subtract | multiply | divide | remainder | less | lessEqual | greater | greaterEqual =>
    exact faultsAt_numericOperation span _ left right _
  | equal | notEqual =>
    unfold bindBinary
    dsimp only
    split
    · exact .ok
    · split
      · exact .ok
      · exact .fail rfl
  | and | or =>
    unfold bindBinary
    dsimp only
    split
    · exact .ok
    · exact .fail rfl

theorem faultsAt_bindConditional (test ifTrue ifFalse : Tree) :
    FaultsAt span (bindConditional context test ifTrue ifFalse span) := by
  unfold bindConditional
  split
  · exact .fail rfl
  · refine (faultsAt_coerce span context.catalog ifTrue _).bind ?_
    intro first
    refine (faultsAt_coerce span context.catalog ifFalse _).bind ?_
    intro second
    exact .ok

end Nodes

/-! ## Whole expressions -/

/-- What is wrong with an expression: something other than a missing array type, at a part that
occurs in it, or the array type of a type whose name occurs in it before the elements of a new
array. -/
inductive Blames (context : Context) (whole : Expression) : Fault → Prop where
  | part {cause : Cause} {part : Part} (occurs : part.Occurs (.expression whole))
      (isOther : cause.isArrayUnavailable = false) : Blames context whole ⟨cause, part.span⟩
  | array {named : TypeName} {items : List Expression} {span : Span} {element : TypeId}
      (occurs : (Part.expression (.createArray named items span)).Occurs (.expression whole))
      (resolved : context.resolve named = .ok element)
      (absent : context.catalog.findArray? element 1 = none) :
      Blames context whole ⟨.arrayUnavailable element, span⟩

theorem FaultsAt.blames {α : Type} {whole : Expression} {result : Result α} {part : Part}
    (here : FaultsAt part.span result) (occurs : part.Occurs (.expression whole))
    (failed : result = .error fault) : Blames context whole fault := by
  cases here with
  | ok => cases failed
  | error isOther =>
      cases failed
      exact .part occurs isOther

/-- A step fails at the expression itself or at a part directly below it. -/
theorem Fails.blames {whole inner : Expression} (fails : Fails context fault inner)
    (occurs : (Part.expression inner).Occurs (.expression whole)) : Blames context whole fault := by
  have below {part : Part} (isPart : part ∈ inner.parts) : part.Occurs (.expression whole) :=
    Part.Occurs.trans (.inPart isPart .root) occurs
  cases fails with
  | receiver isPart failed => exact (faultsAt_visible context _ _).blames (below isPart) failed
  | resolve isPart failed => exact (faultsAt_resolve context _).blames (below isPart) failed
  | coerce isPart failed => exact (faultsAt_coerce _ _ _ _).blames (below isPart) failed
  | identifier failed => exact (faultsAt_bindIdentifier context _ _).blames occurs failed
  | member failed => exact (faultsAt_bindMember context _ _ _).blames occurs failed
  | methodCall failed => exact (faultsAt_bindCall context _ _ _ _).blames occurs failed
  | index noArray failed => exact (faultsAt_bindIndex context _ _ noArray).blames occurs failed
  | create failed => exact (faultsAt_bindCreation context _ _ _).blames occurs failed
  | createArray resolved failed =>
      unfold arrayType at failed
      split at failed
      · cases failed
      next absent =>
        cases failed
        exact .array occurs resolved absent
  | typeAs isPart failed => exact (faultsAt_bindAs context _ _ _).blames (below isPart) failed
  | unary failed => exact (faultsAt_bindUnary _ _ _).blames occurs failed
  | binary failed => exact (faultsAt_bindBinary context _ _ _ _).blames occurs failed
  | conditional failed => exact (faultsAt_bindConditional context _ _ _ _).blames occurs failed

/-- **Whatever is wrong with an expression is wrong with a part that occurs in it.** An array
type is found missing only where an array is created. -/
theorem blames_of_compile_error {expression : Expression}
    (failed : compile context expression = .error fault) : Blames context expression fault := by
  obtain failed | ⟨body, _, failed⟩ := cases_of_bind_eq_error failed
  · obtain ⟨inner, occurs, fails⟩ := exists_fails_of_bind failed
    exact fails.blames occurs
  · cases failed

/-- An expression that does not compile is at fault at one of its parts. -/
theorem exists_part_of_compile_error {expression : Expression}
    (failed : compile context expression = .error fault) :
    ∃ part : Part, part.Occurs (.expression expression) ∧ part.span = fault.span := by
  cases blames_of_compile_error failed with
  | part occurs => exact ⟨_, occurs, rfl⟩
  | array occurs => exact ⟨_, occurs, rfl⟩

end Binding

end ExprImports
