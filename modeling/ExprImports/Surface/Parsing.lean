import ExprImports.Surface.Operator

/-!
# From tokens to expressions

A conditional or an assignment extends as far to the right as it can; binary
operators and type tests are grouped to the left by precedence; prefix operators
bind tighter, and member accesses, calls and indexing tightest. The operand of a
prefix operator and every expression that starts after a delimiter lie one level
deeper, and only so many levels may be open at once. The parsers of one level are
built from those of the next deeper one.
-/

set_option autoImplicit false

namespace ExprImports.Surface

/-- Why tokens do not form an expression. -/
inductive ParseFault where
  | unexpectedToken (token : Token)
  | unexpectedEnd (span : Span)
  | expected (token : Token) (symbol : Symbol)
  | expectedIdentifier (token : Token)
  | tooDeep (span : Span)
  deriving DecidableEq, Inhabited

namespace ParseFault

/-- The text of a fault. -/
def message : ParseFault → String
  | .unexpectedToken token => "Unexpected token `" ++ token.kind.display ++ "`"
  | .unexpectedEnd _ => "Unexpected end of expression"
  | .expected token symbol =>
    "Expected `" ++ String.ofList symbol.spelling ++ "` but got `" ++ token.kind.display ++ "`"
  | .expectedIdentifier token =>
    "Expected an identifier but got `" ++ token.kind.display ++ "`"
  | .tooDeep _ => "Expression is nested too deeply"

/-- The stretch of the text that is at fault. -/
def span : ParseFault → Span
  | .unexpectedToken token => token.span
  | .unexpectedEnd span => span
  | .expected token _ => token.span
  | .expectedIdentifier token => token.span
  | .tooDeep span => span

end ParseFault

/-- Reads a value from the front of the tokens and gives those behind it. -/
abbrev Parse (α : Type) := List Token → Except ParseFault (α × List Token)

/-! ## Single tokens -/

/-- The first token. -/
def front : List Token → Token
  | [] => ⟨.endOfText, ⟨0, 0⟩⟩
  | token :: _ => token

/-- The tokens behind the first one. The end of the text is not passed. -/
def advance (tokens : List Token) : List Token :=
  if (front tokens).isEnd then tokens else tokens.tail

/-- The tokens behind a symbol, if that is the first one. -/
def eat? (symbol : Symbol) (tokens : List Token) : Option (List Token) :=
  if (front tokens).kind = .symbol symbol then some (advance tokens) else none

/-- Reads a symbol and gives its place. -/
def expect (symbol : Symbol) : Parse Span := fun tokens =>
  let token := front tokens
  if token.kind = .symbol symbol then .ok (token.span, advance tokens)
  else if token.isEnd then .error (.unexpectedEnd token.span)
  else .error (.expected token symbol)

/-- Reads an identifier and gives its name and place. -/
def expectIdentifier : Parse (String × Span) := fun tokens =>
  let token := front tokens
  match token.kind with
  | .identifier name => .ok ((name, token.span), advance tokens)
  | .endOfText => .error (.unexpectedEnd token.span)
  | _ => .error (.expectedIdentifier token)

/-! ## Lists and repetition -/

/-- Extends a value as long as a step can be made. -/
def extend (step : Expression → List Token → Except ParseFault (Option (Expression × List Token)))
    (value : Expression) (tokens : List Token) : Except ParseFault (Expression × List Token) :=
  match step value tokens with
  | .error fault => .error fault
  | .ok none => .ok (value, tokens)
  | .ok (some (longer, rest)) =>
    if rest.length < tokens.length then extend step longer rest else .ok (longer, rest)
termination_by tokens.length

/-- Reads one or more items with commas between them. -/
def commaSeparated (item : Parse Expression) (tokens : List Token) :
    Except ParseFault (List Expression × List Token) :=
  match item tokens with
  | .error fault => .error fault
  | .ok (first, behind) =>
    match eat? .comma behind with
    | none => .ok ([first], behind)
    | some rest =>
      if rest.length < tokens.length then
        (commaSeparated item rest).map fun (others, rest) => (first :: others, rest)
      else .ok ([first], rest)
termination_by tokens.length

/-- Reads items with commas between them up to a closing symbol, and gives the place
of that symbol. -/
def enclosed (item : Parse Expression) (close : Symbol) : Parse (List Expression × Span) :=
  fun tokens =>
    match eat? close tokens with
    | some rest => .ok (([], (front tokens).span), rest)
    | none => do
      let (items, behind) ← commaSeparated item tokens
      let (span, rest) ← expect close behind
      return ((items, span), rest)

/-! ## Names of types -/

/-- Reads the parts of a dotted name behind the first one. A dot that no identifier
follows does not belong to the name. -/
def typeNameParts (type : TypeName) : List Token → TypeName × List Token
  | ⟨.symbol .dot, _⟩ :: ⟨.identifier part, span⟩ :: rest =>
    typeNameParts ⟨type.name ++ "." ++ part, type.span.cover span⟩ rest
  | tokens => (type, tokens)

/-- Reads the name of a type. -/
def typeName : Parse TypeName := fun tokens => do
  let ((name, span), rest) ← expectIdentifier tokens
  return typeNameParts ⟨name, span⟩ rest

/-! ## One level of expressions -/

/-- The parsers of the next deeper level: for an expression after a delimiter, and
for the operand of a prefix operator. -/
structure Deeper where
  expression : Parse Expression
  operand : Parse Expression

/-- Reads what follows `new`: a constructor call, or the elements of an array. -/
def creation (deeper : Deeper) (start : Span) : Parse Expression := fun tokens => do
  let (type, rest) ← typeName tokens
  match eat? .leftBracket rest with
  | some rest =>
    let (_, rest) ← expect .rightBracket rest
    let (_, rest) ← expect .leftBrace rest
    let ((items, close), rest) ← enclosed deeper.expression .rightBrace rest
    return (.createArray type items (start.cover close), rest)
  | none =>
    let (_, rest) ← expect .leftParen rest
    let ((arguments, close), rest) ← enclosed deeper.expression .rightParen rest
    return (.create type arguments (start.cover close), rest)

/-- Reads a literal, an identifier, a parenthesized expression, a creation or a type
used as a value. -/
def primary (deeper : Deeper) : Parse Expression := fun tokens =>
  let token := front tokens
  let rest := advance tokens
  match token.kind with
  | .integer value => .ok (.literal (.integer value) token.span, rest)
  | .floating value => .ok (.literal (.floating value) token.span, rest)
  | .text value => .ok (.literal (.text value) token.span, rest)
  | .keyword .true => .ok (.literal (.boolean true) token.span, rest)
  | .keyword .false => .ok (.literal (.boolean false) token.span, rest)
  | .keyword .null => .ok (.literal .null token.span, rest)
  | .identifier name => .ok (.identifier name token.span, rest)
  | .symbol .leftParen => do
    let (inner, rest) ← deeper.expression rest
    let (close, rest) ← expect .rightParen rest
    return (inner.withSpan (token.span.cover close), rest)
  | .keyword .new => creation deeper token.span rest
  | .keyword .typeOf => do
    let (_, rest) ← expect .leftParen rest
    let (type, rest) ← typeName rest
    let (close, rest) ← expect .rightParen rest
    return (.typeOf type (token.span.cover close), rest)
  | .endOfText => .error (.unexpectedEnd token.span)
  | _ => .error (.unexpectedToken token)

/-- Extends an expression by one member access, method call or index. -/
def postfixStep (deeper : Deeper) (target : Expression) (tokens : List Token) :
    Except ParseFault (Option (Expression × List Token)) :=
  match eat? .dot tokens with
  | some rest => do
    let ((name, span), rest) ← expectIdentifier rest
    match eat? .leftParen rest with
    | some rest =>
      let ((arguments, close), rest) ← enclosed deeper.expression .rightParen rest
      return some (.methodCall target name arguments (target.span.cover close), rest)
    | none => return some (.member target name (target.span.cover span), rest)
  | none =>
    match eat? .leftBracket tokens with
    | some rest => do
      let ((arguments, close), rest) ← enclosed deeper.expression .rightBracket rest
      return some (.index target arguments (target.span.cover close), rest)
    | none => .ok none

/-- Reads a primary expression with all that follows it directly. -/
def postfixExpression (deeper : Deeper) : Parse Expression := fun tokens => do
  let (target, rest) ← primary deeper tokens
  extend (postfixStep deeper) target rest

/-- Reads an expression without binary operators. -/
def unaryExpression (deeper : Deeper) : Parse Expression := fun tokens =>
  let token := front tokens
  match prefixOperator? token.kind with
  | none => postfixExpression deeper tokens
  | some operator => do
    let (operand, rest) ← deeper.operand (advance tokens)
    return (.unary operator operand (token.span.cover operand.span), rest)

/-- Reads an expression whose binary operators and type tests bind at least as
tightly as the minimum. What follows an operator binds tighter than it. -/
def binaryExpression (deeper : Deeper) (minimum : Nat) : Parse Expression := fun tokens => do
  let (first, rest) ← unaryExpression deeper tokens
  extend (fun left tokens =>
    match (front tokens).kind with
    | .keyword .is =>
      if minimum ≤ typeTestPrecedence then do
        let (type, rest) ← typeName (advance tokens)
        return some (.typeIs left type (left.span.cover type.span), rest)
      else .ok none
    | .keyword .as =>
      if minimum ≤ typeTestPrecedence then do
        let (type, rest) ← typeName (advance tokens)
        return some (.typeAs left type (left.span.cover type.span), rest)
      else .ok none
    | kind =>
      match binaryOperator? kind with
      | none => .ok none
      | some operator =>
        if _tight : minimum ≤ operator.precedence then do
          let (right, rest) ←
            binaryExpression deeper (operator.precedence + 1) (advance tokens)
          return some (.binary operator left right (left.span.cover right.span), rest)
        else .ok none) first rest
termination_by 7 - minimum
decreasing_by
  have bound := operator.precedence_le
  omega

/-- Reads an expression that may be conditional. -/
def conditionalExpression (deeper : Deeper) : Parse Expression := fun tokens => do
  let (test, rest) ← binaryExpression deeper 1 tokens
  match eat? .question rest with
  | none => return (test, rest)
  | some rest =>
    let (ifTrue, rest) ← deeper.expression rest
    let (_, rest) ← expect .colon rest
    let (ifFalse, rest) ← deeper.expression rest
    return (.conditional test ifTrue ifFalse (test.span.cover ifFalse.span), rest)

/-- Reads an expression that may be an assignment. -/
def assignmentExpression (deeper : Deeper) : Parse Expression := fun tokens => do
  let (target, rest) ← conditionalExpression deeper tokens
  match eat? .equal rest with
  | none => return (target, rest)
  | some rest =>
    let (value, rest) ← deeper.expression rest
    return (.assign target value (target.span.cover value.span), rest)

/-! ## All levels -/

/-- Refuses to go deeper. -/
def tooDeep : Parse Expression := fun tokens =>
  .error (.tooDeep (front tokens).span)

/-- The parsers that may open so many levels. -/
def levels : Nat → Deeper
  | 0 => { expression := tooDeep, operand := tooDeep }
  | depth + 1 =>
    let deeper := levels depth
    { expression := assignmentExpression deeper, operand := unaryExpression deeper }

/-- The number of levels that may be open at once. -/
def maxDepth : Nat := 128

/-- The tokens with their end behind them, for lists that do not close with it. -/
def withEnd (tokens : List Token) : List Token :=
  let stop := (tokens.getLast?.map (·.span.stop)).getD 0
  tokens ++ [⟨.endOfText, ⟨stop, 0⟩⟩]

/-- Reads all tokens as one expression that opens at most so many levels. -/
def parseWithin (depth : Nat) (tokens : List Token) : Except ParseFault Expression := do
  let (expression, rest) ← (levels depth).expression (withEnd tokens)
  let next := front rest
  if next.isEnd then return expression else .error (.unexpectedToken next)

/-- Reads all tokens as one expression. -/
def parse (tokens : List Token) : Except ParseFault Expression :=
  parseWithin maxDepth tokens

end ExprImports.Surface
