import ExprImports.Surface.Parsing

/-!
# Counting the levels that are open

The parsers of `ExprImports.Surface` know how many levels they may still open. Here are the same
parsers with a counter instead: opening a level adds one to it, and the level is closed again when
its expression has been read or has turned out to be faulty (`Counting.nested`). The limit is
checked when a level is opened, and there may be none. A list of all levels that were opened is kept
for the theory.

**Termination.** Without a limit the parsers end because a level starts behind the token that led to
it (`Counting.reading`).
-/

set_option autoImplicit false

namespace ExprImports.Surface

/-- A level that was opened: how many levels were open then, itself included, and the place of the
token at which it starts. -/
structure Level where
  number : Nat
  start : Span
  deriving DecidableEq, Inhabited

/-- How many levels are open, and all that have been opened so far. -/
structure Counter where
  current : Nat := 0
  opened : List Level := []
  deriving DecidableEq, Inhabited

namespace Counter

/-- Opens a level. -/
def enter (counter : Counter) (start : Span) : Counter where
  current := counter.current + 1
  opened := counter.opened ++ [⟨counter.current + 1, start⟩]

/-- Closes the innermost level. -/
def leave (counter : Counter) : Counter :=
  { counter with current := counter.current - 1 }

end Counter

/-- A computation with the counter. -/
abbrev Counted := ExceptT ParseFault (StateM Counter)

namespace Counted

variable {α : Type}

/-- What a computation gives, and the counter behind it. -/
def start (computation : Counted α) (counter : Counter) : Except ParseFault α × Counter :=
  StateT.run (ExceptT.run computation) counter

/-- A computation that does not touch the counter. -/
def untouched (outcome : Except ParseFault α) : Counted α :=
  ExceptT.mk (pure outcome)

end Counted

/-- Reads a value from the front of the tokens with the counter at hand. -/
abbrev CountedParse (α : Type) := List Token → Counted (α × List Token)

namespace Counting

open Counted (untouched)

/-! ## Lists and repetition -/

/-- Extends a value as long as a step can be made. -/
def extend (step : Expression → List Token → Counted (Option (Expression × List Token)))
    (value : Expression) (tokens : List Token) : Counted (Expression × List Token) := do
  match ← step value tokens with
  | none => return (value, tokens)
  | some (longer, rest) =>
    if rest.length < tokens.length then extend step longer rest else return (longer, rest)
termination_by tokens.length

/-- Reads one or more items with commas between them. -/
def commaSeparated (item : CountedParse Expression) (tokens : List Token) :
    Counted (List Expression × List Token) := do
  let (first, behind) ← item tokens
  match eat? .comma behind with
  | none => return ([first], behind)
  | some rest =>
    if rest.length < tokens.length then
      let (others, rest) ← commaSeparated item rest
      return (first :: others, rest)
    else return ([first], rest)
termination_by tokens.length

/-- Reads items with commas between them up to a closing symbol. -/
def enclosed (item : CountedParse Expression) (close : Symbol) :
    CountedParse (List Expression × Span) := fun tokens =>
  match eat? close tokens with
  | some rest => return (([], (front tokens).span), rest)
  | none => do
    let (items, behind) ← commaSeparated item tokens
    let (span, rest) ← untouched (expect close behind)
    return ((items, span), rest)

/-! ## One level of expressions -/

/-- The parsers of the next deeper level. -/
structure Deeper where
  expression : CountedParse Expression
  operand : CountedParse Expression

/-- Reads what follows `new`. -/
def creation (deeper : Deeper) (start : Span) : CountedParse Expression := fun tokens => do
  let (type, rest) ← untouched (typeName tokens)
  match eat? .leftBracket rest with
  | some rest =>
    let (_, rest) ← untouched (expect .rightBracket rest)
    let (_, rest) ← untouched (expect .leftBrace rest)
    let ((items, close), rest) ← enclosed deeper.expression .rightBrace rest
    return (.createArray type items (start.cover close), rest)
  | none =>
    let (_, rest) ← untouched (expect .leftParen rest)
    let ((arguments, close), rest) ← enclosed deeper.expression .rightParen rest
    return (.create type arguments (start.cover close), rest)

/-- Reads an expression that nothing extends. -/
def primary (deeper : Deeper) : CountedParse Expression := fun tokens =>
  let token := front tokens
  let rest := advance tokens
  match token.kind with
  | .integer value => return (.literal (.integer value) token.span, rest)
  | .floating value => return (.literal (.floating value) token.span, rest)
  | .text value => return (.literal (.text value) token.span, rest)
  | .keyword .true => return (.literal (.boolean true) token.span, rest)
  | .keyword .false => return (.literal (.boolean false) token.span, rest)
  | .keyword .null => return (.literal .null token.span, rest)
  | .identifier name => return (.identifier name token.span, rest)
  | .symbol .leftParen => do
    let (inner, rest) ← deeper.expression rest
    let (close, rest) ← untouched (expect .rightParen rest)
    return (inner.withSpan (token.span.cover close), rest)
  | .keyword .new => creation deeper token.span rest
  | .keyword .typeOf => do
    let (_, rest) ← untouched (expect .leftParen rest)
    let (type, rest) ← untouched (typeName rest)
    let (close, rest) ← untouched (expect .rightParen rest)
    return (.typeOf type (token.span.cover close), rest)
  | .endOfText => throw (.unexpectedEnd token.span)
  | _ => throw (.unexpectedToken token)

/-- Extends an expression by one member access, method call or index. -/
def postfixStep (deeper : Deeper) (target : Expression) (tokens : List Token) :
    Counted (Option (Expression × List Token)) :=
  match eat? .dot tokens with
  | some rest => do
    let ((name, span), rest) ← untouched (expectIdentifier rest)
    match eat? .leftParen rest with
    | some rest =>
      let ((arguments, close), rest) ← enclosed deeper.expression .rightParen rest
      return some (.methodCall target name arguments (target.span.cover close), rest)
    | none => return some (.member target name (target.span.cover span), rest)
  | none =>
    match eat? .leftBracket tokens with
    | some rest => do
      let ((arguments, close), rest) ← enclosed deeper.expression .rightBracket rest
      return some (.index target arguments (target.span.cover close), rest)
    | none => return none

/-- Reads an expression with all that follows it directly. -/
def postfixExpression (deeper : Deeper) : CountedParse Expression := fun tokens => do
  let (target, rest) ← primary deeper tokens
  extend (postfixStep deeper) target rest

/-- Reads an expression without binary operators. -/
def unaryExpression (deeper : Deeper) : CountedParse Expression := fun tokens =>
  let token := front tokens
  match prefixOperator? token.kind with
  | none => postfixExpression deeper tokens
  | some operator => do
    let (operand, rest) ← deeper.operand (advance tokens)
    return (.unary operator operand (token.span.cover operand.span), rest)

/-- One step behind an operand: a type test, or a binary operator and its right operand. What
follows an operator binds tighter than it. -/
def binaryStep (minimum : Nat)
    (tighter : (higher : Nat) → minimum < higher → higher ≤ 7 → CountedParse Expression)
    (left : Expression) (tokens : List Token) : Counted (Option (Expression × List Token)) :=
  match (front tokens).kind with
  | .keyword .is =>
    if minimum ≤ typeTestPrecedence then do
      let (type, rest) ← untouched (typeName (advance tokens))
      return some (.typeIs left type (left.span.cover type.span), rest)
    else return none
  | .keyword .as =>
    if minimum ≤ typeTestPrecedence then do
      let (type, rest) ← untouched (typeName (advance tokens))
      return some (.typeAs left type (left.span.cover type.span), rest)
    else return none
  | kind =>
    match binaryOperator? kind with
    | none => return none
    | some operator =>
      if tight : minimum ≤ operator.precedence then do
        let (right, rest) ← tighter (operator.precedence + 1) (Nat.lt_succ_of_le tight)
          (Nat.succ_le_succ operator.precedence_le) (advance tokens)
        return some (.binary operator left right (left.span.cover right.span), rest)
      else return none

/-- Reads an expression whose binary operators and type tests bind at least as tightly as the
minimum. -/
def binaryExpression (deeper : Deeper) (minimum : Nat) : CountedParse Expression := fun tokens => do
  let (first, rest) ← unaryExpression deeper tokens
  extend (binaryStep minimum fun higher _ _ => binaryExpression deeper higher) first rest
termination_by 7 - minimum

/-- Reads an expression that may be conditional. -/
def conditionalExpression (deeper : Deeper) : CountedParse Expression := fun tokens => do
  let (test, rest) ← binaryExpression deeper 1 tokens
  match eat? .question rest with
  | none => return (test, rest)
  | some rest =>
    let (ifTrue, rest) ← deeper.expression rest
    let (_, rest) ← untouched (expect .colon rest)
    let (ifFalse, rest) ← deeper.expression rest
    return (.conditional test ifTrue ifFalse (test.span.cover ifFalse.span), rest)

/-- Reads an expression that may be an assignment. -/
def assignmentExpression (deeper : Deeper) : CountedParse Expression := fun tokens => do
  let (target, rest) ← conditionalExpression deeper tokens
  match eat? .equal rest with
  | none => return (target, rest)
  | some rest =>
    let (value, rest) ← deeper.expression rest
    return (.assign target value (target.span.cover value.span), rest)

/-! ## All levels -/

/-- Opens a level for a computation, unless as many are open as may be, and closes it whatever comes
of the computation. -/
def nested {α : Type} (limit : Option Nat) (start : Span) (inside : Counted α) : Counted α :=
  ExceptT.mk fun counter =>
    if limit.any (· ≤ counter.current) then (.error (.tooDeep start), counter)
    else
      let (outcome, later) := inside.start (counter.enter start)
      (outcome, later.leave)

/-- What a level holds: an expression after a delimiter, or the operand of a prefix operator. -/
inductive Opening where
  | expression
  | operand

/-- Reads what a level holds with the parsers of the next deeper one. -/
def Opening.read (deeper : Deeper) : Opening → CountedParse Expression
  | .expression => assignmentExpression deeper
  | .operand => unaryExpression deeper

/-- Reads what a level holds. The levels inside start behind the first token. -/
def reading (limit : Option Nat) (opening : Opening) (tokens : List Token) :
    Counted (Expression × List Token) :=
  let inside (opening : Opening) : CountedParse Expression := fun rest =>
    if rest.length < tokens.length then nested limit (front rest).span (reading limit opening rest)
    else throw (.unexpectedToken (front rest))
  opening.read { expression := inside .expression, operand := inside .operand } tokens
termination_by tokens.length

/-- The parsers of the levels inside a list of tokens of the given length. -/
def inside (limit : Option Nat) (width : Nat) : Deeper :=
  let level (opening : Opening) : CountedParse Expression := fun tokens =>
    if tokens.length < width then nested limit (front tokens).span (reading limit opening tokens)
    else throw (.unexpectedToken (front tokens))
  { expression := level .expression, operand := level .operand }

theorem reading_eq (limit : Option Nat) (opening : Opening) (tokens : List Token) :
    reading limit opening tokens = opening.read (inside limit tokens.length) tokens := by
  rw [reading]
  rfl

/-- Reads all tokens as one expression. -/
def parse (limit : Option Nat) (tokens : List Token) : Counted Expression := do
  let (expression, rest) ←
    nested limit (front (withEnd tokens)).span (reading limit .expression (withEnd tokens))
  let next := front rest
  if next.isEnd then return expression else throw (.unexpectedToken next)

end Counting

/-- The fault or the expression that comes of the tokens without a limit. -/
def unlimited (tokens : List Token) : Except ParseFault Expression :=
  ((Counting.parse none tokens).start {}).1

/-- The levels that are opened without a limit, the first one first. -/
def openedLevels (tokens : List Token) : List Level :=
  ((Counting.parse none tokens).start {}).2.opened

/-- Whatever comes of the computation, as many levels are open behind it as before. -/
def Counted.Restores {α : Type} (computation : Counted α) : Prop :=
  ∀ counter, (computation.start counter).2.current = counter.current

/-- All parsers of a level close the levels that they open. -/
structure Counting.Deeper.Restoring (deeper : Counting.Deeper) : Prop where
  expression : ∀ tokens, (deeper.expression tokens).Restores
  operand : ∀ tokens, (deeper.operand tokens).Restores
  items : ∀ close tokens, (enclosed deeper.expression close tokens).Restores
  created : ∀ start tokens, (creation deeper start tokens).Restores
  primary : ∀ tokens, (Counting.primary deeper tokens).Restores
  extended : ∀ tokens, (postfixExpression deeper tokens).Restores
  unary : ∀ tokens, (unaryExpression deeper tokens).Restores
  binary : ∀ minimum tokens, (binaryExpression deeper minimum tokens).Restores
  conditional : ∀ tokens, (conditionalExpression deeper tokens).Restores
  assignment : ∀ tokens, (assignmentExpression deeper tokens).Restores

end ExprImports.Surface
