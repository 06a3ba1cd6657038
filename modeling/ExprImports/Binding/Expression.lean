import ExprImports.Binding.Context
import ExprImports.Binding.Conversion
import ExprImports.Catalog.Initial

/-!
# The meaning of expressions

Binding turns an expression as it is written into a typed tree. The parts of an
expression are bound from left to right, and the first fault found is reported.
-/

set_option autoImplicit false

namespace ExprImports.Binding

open Surface

/-! ## The meaning of single nodes, given that of their parts -/

/-- Whether 32 bits hold an integer, its sign included. -/
def fitsInt32 (value : Int) : Bool :=
  -0x80000000 ≤ value && value ≤ 0x7FFFFFFF

/-- The tree of a literal. An integer has the narrowest type that holds it. -/
def literalTree : Constant → Tree
  | .null => .constant .null CoreType.object
  | .boolean value => .constant (.literal (.boolean value) CoreType.boolean) CoreType.boolean
  | .integer value =>
    let type := if fitsInt32 value then CoreType.int32 else CoreType.int64
    .constant (.literal (.integer value) type) type
  | .floating value => .constant (.literal (.floating value) CoreType.double) CoreType.double
  | .text value => .constant (.literal (.text value) CoreType.string) CoreType.string

/-- A variable of the environment. Types and unknown names are no values. -/
def bindIdentifier (context : Context) (name : String) (span : Span) : Result Tree :=
  match context.environment.lookup name with
  | some type => .ok (.parameter ⟨name, type⟩)
  | none =>
    if (context.uniqueType? name).isSome then fail span (.typeUsedAsValue name)
    else fail span (.unknownName name)

/-- What stands before a dot: a value, or a type whose static members are meant. -/
inductive Receiver where
  | value (tree : Tree)
  | type (type : TypeId)

namespace Receiver

/-- The type in which members are looked up. -/
def lookupType : Receiver → TypeId
  | .value tree => tree.type
  | .type named => named

/-- Whether static members are meant. -/
def isStatic : Receiver → Bool
  | .value _ => false
  | .type _ => true

/-- The tree of the value, if it is one. -/
def tree? : Receiver → Option Tree
  | .value tree => some tree
  | .type _ => none

/-- The access to a member. -/
def access (member : Member) (receiver : Receiver) : Tree :=
  .access receiver.tree? member

/-- The call of a method. -/
def call (method : Method) (arguments : List Tree) (receiver : Receiver) : Tree :=
  .callOf receiver.tree? method arguments

end Receiver

/-- What a part before a dot stands for: the type that it names, or else its value. -/
def receiverOf (context : Context) (target : Expression) (value : Unit → Result Tree) :
    Result Receiver :=
  match context.receiverType? target with
  | some type => (context.visible type target.span).map .type
  | none => (value ()).map .value

/-- A field or property of the receiver. The first one with the name must be static
exactly if a type stands before the dot. -/
def bindMember (context : Context) (receiver : Receiver) (name : String) (span : Span) :
    Result Tree :=
  match context.catalog.findMember? receiver.lookupType name with
  | some member =>
    if member.isStatic = receiver.isStatic then .ok (receiver.access member)
    else fail span (.unknownMember receiver.lookupType name)
  | none => fail span (.unknownMember receiver.lookupType name)

/-- The first of the methods whose parameters the arguments can be converted to,
and the converted arguments. -/
def firstApplicable? (catalog : Catalog) (arguments : List Tree) (methods : List Method) :
    Option (Method × List Tree) :=
  methods.findSome? fun method =>
    (catalog.convertAll? arguments method.parameters).map (method, ·)

/-- A call of a method of the receiver. -/
def bindCall (context : Context) (receiver : Receiver) (name : String) (arguments : List Tree)
    (span : Span) : Result Tree :=
  let type := receiver.lookupType
  let methods := context.catalog.findMethods type name
  if methods.isEmpty then fail span (.unknownMember type name)
  else
    let candidates := methods.filter fun method => method.isStatic = receiver.isStatic
    match firstApplicable? context.catalog arguments candidates with
    | some (method, converted) => .ok (receiver.call method converted)
    | none => fail span (.noOverload type name arguments.length)

/-- An element of an array, or what the first indexed property of the type reads. -/
def bindIndex (context : Context) (target : Tree) (arguments : List (Tree × Span))
    (span : Span) : Result Tree :=
  let catalog := context.catalog
  match catalog.element? target.type with
  | some element => do
    let indexes ← coerceEach catalog CoreType.int32 arguments
    return .arrayIndex target indexes element
  | none =>
    match catalog.findIndexer? target.type with
    | none => fail span (.notIndexable target.type)
    | some indexer =>
      match catalog.convertAll? (arguments.map (·.1)) indexer.parameters with
      | some converted => .ok (.callOf (some target) indexer converted)
      | none => fail span (.noOverload target.type indexer.name arguments.length)

/-- Whether objects of the type can be created at all: it is neither an interface
nor an open definition. -/
def canBeCreated (catalog : Catalog) (type : TypeId) : Bool :=
  match catalog.find? type with
  | some entry => entry.kind ≠ .nominal .interfaceType && !entry.genericity.isDefinition
  | none => true

/-- The creation of an object by the first constructor that takes the arguments. A
type without constructors can be created without arguments. -/
def bindCreation (context : Context) (type : TypeId) (arguments : List Tree) (span : Span) :
    Result Tree :=
  let catalog := context.catalog
  let refused := fail span (.noConstructor type arguments.length)
  if !canBeCreated catalog type then refused
  else
    let constructors := catalog.constructors type
    let applicable := constructors.findSome? fun constructor =>
      (catalog.convertAll? arguments constructor.parameters).map (constructor, ·)
    match applicable with
    | some (constructor, converted) => .ok (.create (.of (some constructor) converted type))
    | none =>
      if constructors.isEmpty && arguments.isEmpty then
        let implied : Option Constructor :=
          if catalog.isValueType type then none
          else some { declaringType := type, parameters := [] }
        .ok (.create (.of implied [] type))
      else refused

/-- The array type with elements of a type. -/
def arrayType (context : Context) (element : TypeId) (span : Span) : Result TypeId :=
  match context.catalog.findArray? element 1 with
  | some array => .ok array
  | none => fail span (.arrayUnavailable element)

/-- A prefix operator applied to an operand. -/
def bindUnary (operator : UnaryOperator) (operand : Tree) (span : Span) : Result Tree :=
  match operator with
  | .negate =>
    if operand.type.isNumeric then .ok (.unary .negate operand operand.type)
    else fail span (.unaryOperand operator operand.type)
  | .not =>
    if operand.type = CoreType.boolean then .ok (.unary .not operand operand.type)
    else fail span (.unaryOperand operator operand.type)

/-- The operator of a tree that a written operator stands for. -/
def treeOperator : BinaryOperator → BinaryOp
  | .add => .add
  | .subtract => .subtract
  | .multiply => .multiply
  | .divide => .divide
  | .remainder => .modulo
  | .less => .lessThan
  | .lessEqual => .lessThanOrEqual
  | .greater => .greaterThan
  | .greaterEqual => .greaterThanOrEqual
  | .equal => .equal
  | .notEqual => .notEqual
  | .and => .andAlso
  | .or => .orElse

/-- Whether two operands that are not both numbers can be compared for equality. -/
def comparable (catalog : Catalog) (left right : Tree) : Bool :=
  left.type = right.type || (left.isNull && !catalog.isValueType right.type) ||
    (right.isNull && !catalog.isValueType left.type) ||
    catalog.isAssignable left.type right.type || catalog.isAssignable right.type left.type

/-- An operator on two numbers of their common type. -/
def numericOperation (operator : BinaryOperator) (left right : Tree)
    (resultType : TypeId → TypeId) (span : Span) : Result Tree :=
  match left.type.commonNumeric? right.type with
  | some common =>
    .ok (.binary (treeOperator operator) (left.widen common) (right.widen common)
      (resultType common))
  | none => fail span (.binaryOperands operator left.type right.type)

/-- The concatenation of two strings, a call of the static method for it. -/
def concatenation (context : Context) (left right : Tree) (span : Span) : Result Tree :=
  let methods := context.catalog.findMethods CoreType.string Catalog.concatMethod.name
  let isConcat (method : Method) : Bool :=
    method.isStatic && method.parameters = [CoreType.string, CoreType.string]
  match methods.find? isConcat with
  | some method => .ok (.callOf none method [left, right])
  | none => fail span (.binaryOperands .add left.type right.type)

/-- A binary operator applied to two operands. -/
def bindBinary (context : Context) (operator : BinaryOperator) (left right : Tree)
    (span : Span) : Result Tree :=
  match operator with
  | .add =>
    if left.type = CoreType.string && right.type = CoreType.string then
      concatenation context left right span
    else numericOperation .add left right id span
  | .subtract | .multiply | .divide | .remainder => numericOperation operator left right id span
  | .less | .lessEqual | .greater | .greaterEqual =>
    numericOperation operator left right (fun _ => CoreType.boolean) span
  | .equal | .notEqual =>
    match left.type.commonNumeric? right.type with
    | some common =>
      .ok (.binary (treeOperator operator) (left.widen common) (right.widen common)
        CoreType.boolean)
    | none =>
      if comparable context.catalog left right then
        .ok (.binary (treeOperator operator) left right CoreType.boolean)
      else fail span (.binaryOperands operator left.type right.type)
  | .and | .or =>
    if left.type = CoreType.boolean && right.type = CoreType.boolean then
      .ok (.binary (treeOperator operator) left right CoreType.boolean)
    else fail span (.binaryOperands operator left.type right.type)

/-- The common type of the branches of a conditional: the one that the other can be
converted to, that of the second branch if both can. -/
def branchType? (catalog : Catalog) (ifTrue ifFalse : Tree) : Option TypeId :=
  let first := ifTrue.type
  let second := ifFalse.type
  if first = second then some first
  else if ifTrue.isNull && !catalog.isValueType second then some second
  else if ifFalse.isNull && !catalog.isValueType first then some first
  else if catalog.converts first second then some second
  else if catalog.converts second first then some first
  else none

/-- A conditional whose test is already a truth value. -/
def bindConditional (context : Context) (test ifTrue ifFalse : Tree) (span : Span) :
    Result Tree :=
  match branchType? context.catalog ifTrue ifFalse with
  | none => fail span (.conditionalBranches ifTrue.type ifFalse.type)
  | some type => do
    let ifTrue ← coerce context.catalog ifTrue type span
    let ifFalse ← coerce context.catalog ifFalse type span
    return .conditional test ifTrue ifFalse type

/-- A conversion that yields null where it fails, which needs a type that has null. -/
def bindAs (context : Context) (operand : Tree) (type : TypeId) (span : Span) : Result Tree :=
  if context.catalog.isValueType type then fail span (.asValueType type)
  else .ok (.convert .typeAs operand type)

/-! ## The meaning of an expression -/

mutual

/-- The typed tree of an expression. Before a dot, a path that names a type stands
for that type, and anything else for its value. -/
def bind (context : Context) : Expression → Result Tree
  | .literal value _ => .ok (literalTree value)
  | .identifier name span => bindIdentifier context name span
  | .member target name span => do
    let receiver ← receiverOf context target fun _ => bind context target
    bindMember context receiver name span
  | .methodCall target name arguments span => do
    let receiver ← receiverOf context target fun _ => bind context target
    let arguments ← bindAll context arguments
    bindCall context receiver name arguments span
  | .index target arguments span => do
    let bound ← bind context target
    let trees ← bindAll context arguments
    bindIndex context bound (trees.zip (arguments.map (·.span))) span
  | .create type arguments span => do
    let type ← context.resolve type
    let arguments ← bindAll context arguments
    bindCreation context type arguments span
  | .createArray element items span => do
    let element ← context.resolve element
    let array ← arrayType context element span
    let items ← bindItems context element items
    return .newArray .elements items array
  | .typeOf type _ => do
    let type ← context.resolve type
    return .constant (.type type) CoreType.type
  | .typeIs operand type _ => do
    let operand ← bind context operand
    let tested ← context.resolve type
    return .typeIs operand tested CoreType.boolean
  | .typeAs operand type _ => do
    let operand ← bind context operand
    let target ← context.resolve type
    bindAs context operand target type.span
  | .unary operator operand span => do
    let operand ← bind context operand
    bindUnary operator operand span
  | .binary operator left right span => do
    let left ← bind context left
    let right ← bind context right
    bindBinary context operator left right span
  | .conditional test ifTrue ifFalse span => do
    let truth ← bind context test
    let truth ← coerce context.catalog truth CoreType.boolean test.span
    let ifTrue ← bind context ifTrue
    let ifFalse ← bind context ifFalse
    bindConditional context truth ifTrue ifFalse span
  | .assign target value _ => do
    let bound ← bind context target
    let assigned ← bind context value
    let assigned ← coerce context.catalog assigned bound.type value.span
    return .assign bound assigned bound.type

/-- The trees of several expressions. -/
def bindAll (context : Context) : List Expression → Result (List Tree)
  | [] => .ok []
  | expression :: rest => do
    let tree ← bind context expression
    let others ← bindAll context rest
    return tree :: others

/-- The trees of the elements of an array, each converted before the next one is
bound. -/
def bindItems (context : Context) (element : TypeId) : List Expression → Result (List Tree)
  | [] => .ok []
  | item :: rest => do
    let tree ← bind context item
    let converted ← coerce context.catalog tree element item.span
    let others ← bindItems context element rest
    return converted :: others

end

/-! ## The variables of an expression -/

/-- The variables of the environment that an expression mentions, in order of first
mention. -/
def capturedVariables (environment : Environment) (expression : Expression) : List Variable :=
  (distinct expression.identifiers).filterMap fun name =>
    (environment.lookup name).map fun type => { name, type }

/-- The expression compiled: its tree, the variables that it uses and its type. -/
def compile (context : Context) (expression : Expression) : Result Compiled := do
  let body ← bind context expression
  return {
    parameters := capturedVariables context.environment expression
    body
    returnType := body.type }

end ExprImports.Binding
