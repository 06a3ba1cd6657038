import ExprImports.Catalog.Basic
import ExprImports.Number.Binary64

/-!
# Typed expression trees

The tree of a compiled expression: eighteen kinds of node, each with its static
type. Accesses and calls come in two forms, through a receiver and static, that
count as one kind. The type of such a node is its own: the nodes that `Tree.access`
and `Tree.callOf` make have the type of the member and the result type of the method,
but a tree need not be made by them.
-/

set_option autoImplicit false

namespace ExprImports

inductive BinaryOp where
  | add
  | addChecked
  | and
  | andAlso
  | coalesce
  | divide
  | equal
  | exclusiveOr
  | greaterThan
  | greaterThanOrEqual
  | leftShift
  | lessThan
  | lessThanOrEqual
  | modulo
  | multiply
  | multiplyChecked
  | notEqual
  | or
  | orElse
  | power
  | rightShift
  | subtract
  | subtractChecked
  deriving DecidableEq, Inhabited

inductive UnaryOp where
  | arrayLength
  | negate
  | negateChecked
  | not
  | quote
  | unaryPlus
  deriving DecidableEq, Inhabited

/-- A conversion may fail at run time, be checked for overflow, or yield null
where it would fail. -/
inductive ConvertKind where
  | convert
  | convertChecked
  | typeAs
  deriving DecidableEq, Inhabited

/-- The expressions of an array creation are its elements or its bounds. -/
inductive NewArrayKind where
  | elements
  | bounds
  deriving DecidableEq, Inhabited

/-- A value that a program text can hold; any other object is known by its text
only. -/
inductive Literal where
  | boolean (value : Bool)
  | integer (value : Int)
  | floating (value : Binary64)
  | text (value : String)
  | object (display : String)
  deriving DecidableEq, Inhabited

/-- The value of a constant: null, a type, or a literal with its run-time type. -/
inductive ConstantValue where
  | null
  | type (type : TypeId)
  | literal (value : Literal) (runtimeType : TypeId)
  deriving DecidableEq, Inhabited

/-- A variable with its type. -/
structure Variable where
  name : String
  type : TypeId
  deriving DecidableEq, Inhabited

mutual

/-- A node of a compiled expression with everything below it. -/
inductive Tree where
  | binary (op : BinaryOp) (left right : Tree) (type : TypeId)
  | conditional (test ifTrue ifFalse : Tree) (type : TypeId)
  | constant (value : ConstantValue) (type : TypeId)
  | invoke (target : Tree) (arguments : List Tree) (type : TypeId)
  | lambda (parameters : List Variable) (body : Tree) (type : TypeId)
  | listInit (creation : Creation) (initializers : List ElementInit)
  | parameter (bound : Variable)
  | memberAccess (receiver : Tree) (member : Member) (type : TypeId)
  | staticAccess (member : Member) (type : TypeId)
  | memberInit (creation : Creation) (bindings : List MemberBinding)
  | arrayIndex (array : Tree) (indexes : List Tree) (type : TypeId)
  | call (receiver : Tree) (method : Method) (arguments : List Tree) (type : TypeId)
  | staticCall (method : Method) (arguments : List Tree) (type : TypeId)
  | newArray (kind : NewArrayKind) (items : List Tree) (type : TypeId)
  | create (creation : Creation)
  | typeIs (operand : Tree) (tested type : TypeId)
  | convert (kind : ConvertKind) (operand : Tree) (type : TypeId)
  | unary (op : UnaryOp) (operand : Tree) (type : TypeId)
  | block (locals : List Variable) (body : List Tree) (type : TypeId)
  | assign (target value : Tree) (type : TypeId)

/-- The creation of an object. A value type can be created without one of its
constructors. -/
inductive Creation where
  | of (constructor : Option Constructor) (arguments : List Tree) (type : TypeId)

/-- One element of a list initializer: the method that adds it and its arguments. -/
inductive ElementInit where
  | of (addMethod : Method) (arguments : List Tree)

/-- What an initializer does with one member. -/
inductive MemberBinding where
  | assignment (member : Member) (value : Tree)
  | elements (member : Member) (initializers : List ElementInit)
  | nested (member : Member) (bindings : List MemberBinding)

end

namespace Creation

/-- The type of the object created. -/
def type : Creation → TypeId
  | .of _ _ type => type

instance : Inhabited Creation := ⟨.of none [] .null⟩

end Creation

namespace Tree

/-- The static type of a node. -/
def type : Tree → TypeId
  | .binary _ _ _ type => type
  | .conditional _ _ _ type => type
  | .constant _ type => type
  | .invoke _ _ type => type
  | .lambda _ _ type => type
  | .listInit creation _ => creation.type
  | .parameter bound => bound.type
  | .memberAccess _ _ type => type
  | .staticAccess _ type => type
  | .memberInit creation _ => creation.type
  | .arrayIndex _ _ type => type
  | .call _ _ _ type => type
  | .staticCall _ _ type => type
  | .newArray _ _ type => type
  | .create creation => creation.type
  | .typeIs _ _ type => type
  | .convert _ _ type => type
  | .unary _ _ type => type
  | .block _ _ type => type
  | .assign _ _ type => type

/-- The name of the kind of a node. -/
def kindName : Tree → String
  | .binary .. => "binary"
  | .conditional .. => "conditional"
  | .constant .. => "constant"
  | .invoke .. => "invoke"
  | .lambda .. => "lambda"
  | .listInit .. => "list-init"
  | .parameter .. => "parameter"
  | .memberAccess .. => "member-access"
  | .staticAccess .. => "member-access"
  | .memberInit .. => "member-init"
  | .arrayIndex .. => "array-index"
  | .call .. => "call"
  | .staticCall .. => "call"
  | .newArray .. => "new-array"
  | .create .. => "new"
  | .typeIs .. => "type-is"
  | .convert .. => "convert"
  | .unary .. => "unary"
  | .block .. => "block"
  | .assign .. => "assign"

instance : Inhabited Tree := ⟨.constant .null .null⟩

/-- The access to a member, static without a receiver. It has the type of the member. -/
def access (receiver : Option Tree) (member : Member) : Tree :=
  match receiver with
  | some receiver => .memberAccess receiver member member.type
  | none => .staticAccess member member.type

/-- The call of a method, static without a receiver. It has the type that the method
returns. -/
def callOf (receiver : Option Tree) (method : Method) (arguments : List Tree) : Tree :=
  match receiver with
  | some receiver => .call receiver method arguments method.returnType
  | none => .staticCall method arguments method.returnType

end Tree

/-- A compiled expression: the variables it uses, its tree and its type. -/
structure Compiled where
  parameters : List Variable
  body : Tree
  returnType : TypeId
  deriving Inhabited

end ExprImports
