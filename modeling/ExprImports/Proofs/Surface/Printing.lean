import ExprImports.Surface.Expression
import ExprImports.Surface.Operator
import ExprImports.Text.Pieces

/-!
# Writing expressions with as few parentheses as possible

Every form of expression has a level, and the higher the level the tighter it binds:

* 0: conditionals and assignments,
* 1 to 6: binary operators and type tests, all of which are grouped to the left,
* 7: prefix operators,
* 8: everything else.

An expression is written in parentheses exactly where a higher level is called for
(`Expression.writtenAt`). What is written is a list of kinds of tokens, since the places
of the tokens do not matter.

**Nesting.** Parentheses, arguments, indexes, elements, branches, assigned values and
the operands of prefix operators each lie one level deeper than what is around them
(`Expression.nesting`).
-/

set_option autoImplicit false

namespace ExprImports.Surface

/-! ## Expressions without their places -/

/-- The place that stands for all places. -/
def nowhere : Span := ⟨0, 0⟩

/-- The name of a type without its place. -/
def TypeName.bare (type : TypeName) : TypeName := ⟨type.name, nowhere⟩

mutual

/-- The expression without the stretches of text that it was read from. -/
def Expression.bare : Expression → Expression
  | .literal value _ => .literal value nowhere
  | .identifier name _ => .identifier name nowhere
  | .member target name _ => .member target.bare name nowhere
  | .methodCall target name arguments _ =>
      .methodCall target.bare name (bareAll arguments) nowhere
  | .index target arguments _ => .index target.bare (bareAll arguments) nowhere
  | .create type arguments _ => .create type.bare (bareAll arguments) nowhere
  | .createArray element items _ => .createArray element.bare (bareAll items) nowhere
  | .typeOf type _ => .typeOf type.bare nowhere
  | .typeIs operand type _ => .typeIs operand.bare type.bare nowhere
  | .typeAs operand type _ => .typeAs operand.bare type.bare nowhere
  | .unary operator operand _ => .unary operator operand.bare nowhere
  | .binary operator left right _ => .binary operator left.bare right.bare nowhere
  | .conditional test ifTrue ifFalse _ =>
      .conditional test.bare ifTrue.bare ifFalse.bare nowhere
  | .assign target value _ => .assign target.bare value.bare nowhere

/-- Several expressions without the stretches of text that they were read from. -/
def bareAll : List Expression → List Expression
  | [] => []
  | expression :: rest => expression.bare :: bareAll rest

end

@[simp] theorem Expression.bare_withSpan (expression : Expression) (span : Span) :
    (expression.withSpan span).bare = expression.bare := by
  cases expression <;> rfl

/-! ## Levels -/

/-- How tightly a binary operator binds: `||` least, then `&&`, equality, order, sums
and products. -/
def BinaryOperator.level : BinaryOperator → Nat
  | .or => 1
  | .and => 2
  | .equal | .notEqual => 3
  | .less | .lessEqual | .greater | .greaterEqual => 4
  | .add | .subtract => 5
  | .multiply | .divide | .remainder => 6

/-- How tightly an expression binds. A type test binds like the operators for order. -/
def Expression.level : Expression → Nat
  | .conditional .. | .assign .. => 0
  | .binary operator .. => operator.level
  | .typeIs .. | .typeAs .. => 4
  | .unary .. => 7
  | _ => 8

theorem BinaryOperator.level_pos (operator : BinaryOperator) : 1 ≤ operator.level := by
  cases operator <;> decide

theorem BinaryOperator.level_le (operator : BinaryOperator) : operator.level ≤ 6 := by
  cases operator <;> decide

theorem Expression.level_le (expression : Expression) : expression.level ≤ 8 := by
  cases expression with
  | binary operator left right span => exact Nat.le_trans operator.level_le (by decide)
  | _ => simp [Expression.level]

/-! ## Written forms -/

/-- A literal as a token. -/
def Constant.written : Constant → TokenKind
  | .null => .keyword .null
  | .boolean true => .keyword .true
  | .boolean false => .keyword .false
  | .integer value => .integer value
  | .floating value => .floating value
  | .text value => .text value

/-- The parts of a dotted name behind the first one. -/
def writtenParts : List (List Char) → List TokenKind
  | [] => []
  | part :: rest => .symbol .dot :: .identifier (String.ofList part) :: writtenParts rest

/-- The name of a type: its parts with dots between them. -/
def TypeName.written (type : TypeName) : List TokenKind :=
  match Text.pieces '.' type.name.toList with
  | [] => []
  | first :: rest => .identifier (String.ofList first) :: writtenParts rest

/-- In parentheses if they are needed. -/
def grouped (needed : Bool) (written : List TokenKind) : List TokenKind :=
  if needed then .symbol .leftParen :: (written ++ [.symbol .rightParen]) else written

mutual

/-- The tokens of an expression, without parentheses around the whole of it. -/
def Expression.written : Expression → List TokenKind
  | .literal value _ => [value.written]
  | .identifier name _ => [.identifier name]
  | .member target name _ =>
      grouped (target.level < 8) target.written ++ [.symbol .dot, .identifier name]
  | .methodCall target name arguments _ =>
      grouped (target.level < 8) target.written ++
        .symbol .dot :: .identifier name :: .symbol .leftParen ::
          (writtenAll arguments ++ [.symbol .rightParen])
  | .index target arguments _ =>
      grouped (target.level < 8) target.written ++
        .symbol .leftBracket :: (writtenAll arguments ++ [.symbol .rightBracket])
  | .create type arguments _ =>
      .keyword .new :: (type.written ++
        .symbol .leftParen :: (writtenAll arguments ++ [.symbol .rightParen]))
  | .createArray element items _ =>
      .keyword .new :: (element.written ++
        .symbol .leftBracket :: .symbol .rightBracket :: .symbol .leftBrace ::
          (writtenAll items ++ [.symbol .rightBrace]))
  | .typeOf type _ =>
      .keyword .typeOf :: .symbol .leftParen :: (type.written ++ [.symbol .rightParen])
  | .typeIs operand type _ =>
      grouped (operand.level < 4) operand.written ++ .keyword .is :: type.written
  | .typeAs operand type _ =>
      grouped (operand.level < 4) operand.written ++ .keyword .as :: type.written
  | .unary operator operand _ =>
      .symbol operator.sign :: grouped (operand.level < 7) operand.written
  | .binary operator left right _ =>
      grouped (left.level < operator.level) left.written ++
        .symbol operator.sign :: grouped (right.level < operator.level + 1) right.written
  | .conditional test ifTrue ifFalse _ =>
      grouped (test.level < 1) test.written ++
        .symbol .question :: (ifTrue.written ++ .symbol .colon :: ifFalse.written)
  | .assign target value _ =>
      grouped (target.level < 1) target.written ++ .symbol .equal :: value.written

/-- Expressions with commas between them. -/
def writtenAll : List Expression → List TokenKind
  | [] => []
  | expression :: rest =>
      expression.written ++ if rest.isEmpty then [] else .symbol .comma :: writtenAll rest

end

section Written

variable (type : TypeName) (span : Span)

theorem Expression.written_create (arguments : List Expression) :
    (Expression.create type arguments span).written =
      .keyword .new :: (type.written ++
        .symbol .leftParen :: (writtenAll arguments ++ [.symbol .rightParen])) := rfl

theorem Expression.written_createArray (items : List Expression) :
    (Expression.createArray type items span).written =
      .keyword .new :: (type.written ++
        .symbol .leftBracket :: .symbol .rightBracket :: .symbol .leftBrace ::
          (writtenAll items ++ [.symbol .rightBrace])) := rfl

theorem Expression.written_typeOf :
    (Expression.typeOf type span).written =
      .keyword .typeOf :: .symbol .leftParen :: (type.written ++ [.symbol .rightParen]) := rfl

theorem Expression.written_conditional (test ifTrue ifFalse : Expression) :
    (Expression.conditional test ifTrue ifFalse span).written =
      grouped (test.level < 1) test.written ++
        .symbol .question :: (ifTrue.written ++ .symbol .colon :: ifFalse.written) := rfl

theorem Expression.written_assign (target value : Expression) :
    (Expression.assign target value span).written =
      grouped (target.level < 1) target.written ++ .symbol .equal :: value.written := rfl

theorem writtenAll_cons (expression : Expression) (rest : List Expression) :
    writtenAll (expression :: rest) =
      expression.written ++
        if rest.isEmpty then [] else .symbol .comma :: writtenAll rest := rfl

end Written

/-- The tokens of an expression where at least the given level is called for. -/
def Expression.writtenAt (level : Nat) (expression : Expression) : List TokenKind :=
  grouped (expression.level < level) expression.written

/-! ## Nesting -/

/-- One level more if there are parentheses. -/
def groupedNesting (needed : Bool) (nesting : Nat) : Nat :=
  if needed then nesting + 1 else nesting

mutual

/-- The number of levels that lie within each other inside an expression as it is
written. -/
def Expression.nesting : Expression → Nat
  | .literal _ _ => 0
  | .identifier _ _ => 0
  | .member target _ _ => groupedNesting (target.level < 8) target.nesting
  | .methodCall target _ arguments _ =>
      max (groupedNesting (target.level < 8) target.nesting) (nestingAll arguments)
  | .index target arguments _ =>
      max (groupedNesting (target.level < 8) target.nesting) (nestingAll arguments)
  | .create _ arguments _ => nestingAll arguments
  | .createArray _ items _ => nestingAll items
  | .typeOf _ _ => 0
  | .typeIs operand _ _ => groupedNesting (operand.level < 4) operand.nesting
  | .typeAs operand _ _ => groupedNesting (operand.level < 4) operand.nesting
  | .unary _ operand _ => groupedNesting (operand.level < 7) operand.nesting + 1
  | .binary operator left right _ =>
      max (groupedNesting (left.level < operator.level) left.nesting)
        (groupedNesting (right.level < operator.level + 1) right.nesting)
  | .conditional test ifTrue ifFalse _ =>
      max (groupedNesting (test.level < 1) test.nesting)
        (max (ifTrue.nesting + 1) (ifFalse.nesting + 1))
  | .assign target value _ =>
      max (groupedNesting (target.level < 1) target.nesting) (value.nesting + 1)

/-- The number of levels of several expressions, each of which lies on a level of its
own. -/
def nestingAll : List Expression → Nat
  | [] => 0
  | expression :: rest => max (expression.nesting + 1) (nestingAll rest)

end

theorem nestingAll_cons (expression : Expression) (rest : List Expression) :
    nestingAll (expression :: rest) = max (expression.nesting + 1) (nestingAll rest) := rfl

/-- The number of levels inside an expression where at least the given level is called
for. -/
def Expression.nestingAt (level : Nat) (expression : Expression) : Nat :=
  groupedNesting (expression.level < level) expression.nesting

end ExprImports.Surface
