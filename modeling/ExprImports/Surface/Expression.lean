import ExprImports.Span
import ExprImports.Number.Binary64

/-!
# Expressions as they are written

The tree of an expression before its names are looked up. Every node knows the
stretch of the text that it was read from, the parentheses directly around it
included.
-/

set_option autoImplicit false

namespace ExprImports.Surface

/-- The name of a type as it is written, with or without a namespace. -/
structure TypeName where
  name : String
  span : Span
  deriving DecidableEq, Inhabited

inductive BinaryOperator where
  | add
  | subtract
  | multiply
  | divide
  | remainder
  | less
  | lessEqual
  | greater
  | greaterEqual
  | equal
  | notEqual
  | and
  | or
  deriving DecidableEq, Inhabited

inductive UnaryOperator where
  | negate
  | not
  deriving DecidableEq, Inhabited

/-- A value that is written out. -/
inductive Constant where
  | null
  | boolean (value : Bool)
  | integer (value : Int)
  | floating (value : Binary64)
  | text (value : String)
  deriving DecidableEq, Inhabited

/-- An expression as it is written. -/
inductive Expression where
  | literal (value : Constant) (span : Span)
  | identifier (name : String) (span : Span)
  | member (target : Expression) (name : String) (span : Span)
  | methodCall (target : Expression) (name : String) (arguments : List Expression) (span : Span)
  | index (target : Expression) (arguments : List Expression) (span : Span)
  | create (type : TypeName) (arguments : List Expression) (span : Span)
  | createArray (element : TypeName) (items : List Expression) (span : Span)
  | typeOf (type : TypeName) (span : Span)
  | typeIs (operand : Expression) (type : TypeName) (span : Span)
  | typeAs (operand : Expression) (type : TypeName) (span : Span)
  | unary (operator : UnaryOperator) (operand : Expression) (span : Span)
  | binary (operator : BinaryOperator) (left right : Expression) (span : Span)
  | conditional (test ifTrue ifFalse : Expression) (span : Span)
  | assign (target value : Expression) (span : Span)
  deriving Inhabited

namespace Expression

/-- The stretch of the text that an expression was read from. -/
def span : Expression → Span
  | .literal _ span => span
  | .identifier _ span => span
  | .member _ _ span => span
  | .methodCall _ _ _ span => span
  | .index _ _ span => span
  | .create _ _ span => span
  | .createArray _ _ span => span
  | .typeOf _ span => span
  | .typeIs _ _ span => span
  | .typeAs _ _ span => span
  | .unary _ _ span => span
  | .binary _ _ _ span => span
  | .conditional _ _ _ span => span
  | .assign _ _ span => span

/-- The same expression read from another stretch of the text. -/
def withSpan (span : Span) : Expression → Expression
  | .literal value _ => .literal value span
  | .identifier name _ => .identifier name span
  | .member target name _ => .member target name span
  | .methodCall target name arguments _ => .methodCall target name arguments span
  | .index target arguments _ => .index target arguments span
  | .create type arguments _ => .create type arguments span
  | .createArray element items _ => .createArray element items span
  | .typeOf type _ => .typeOf type span
  | .typeIs operand type _ => .typeIs operand type span
  | .typeAs operand type _ => .typeAs operand type span
  | .unary operator operand _ => .unary operator operand span
  | .binary operator left right _ => .binary operator left right span
  | .conditional test ifTrue ifFalse _ => .conditional test ifTrue ifFalse span
  | .assign target value _ => .assign target value span

/-- The dotted path that an expression spells, if it is an identifier followed by
members only. -/
def dottedPath? : Expression → Option String
  | .identifier name _ => some name
  | .member target name _ => target.dottedPath?.map fun path => path ++ "." ++ name
  | _ => none

/-- The identifier with which a dotted path begins. -/
def rootIdentifier? : Expression → Option String
  | .identifier name _ => some name
  | .member target _ _ => target.rootIdentifier?
  | _ => none

end Expression

mutual

/-- The identifiers that stand for values in an expression, from left to right. -/
def Expression.identifiers : Expression → List String
  | .literal _ _ => []
  | .identifier name _ => [name]
  | .member target _ _ => target.identifiers
  | .methodCall target _ arguments _ => target.identifiers ++ allIdentifiers arguments
  | .index target arguments _ => target.identifiers ++ allIdentifiers arguments
  | .create _ arguments _ => allIdentifiers arguments
  | .createArray _ items _ => allIdentifiers items
  | .typeOf _ _ => []
  | .typeIs operand _ _ => operand.identifiers
  | .typeAs operand _ _ => operand.identifiers
  | .unary _ operand _ => operand.identifiers
  | .binary _ left right _ => left.identifiers ++ right.identifiers
  | .conditional test ifTrue ifFalse _ =>
    test.identifiers ++ ifTrue.identifiers ++ ifFalse.identifiers
  | .assign target value _ => target.identifiers ++ value.identifiers

/-- The identifiers that stand for values in several expressions. -/
def allIdentifiers : List Expression → List String
  | [] => []
  | expression :: rest => expression.identifiers ++ allIdentifiers rest

end

end ExprImports.Surface
