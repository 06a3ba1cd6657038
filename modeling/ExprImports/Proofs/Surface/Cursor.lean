import ExprImports.Proofs.Outcomes
import ExprImports.Surface.Parsing

/-!
# Reading tokens through a cursor

The parsers of `ExprImports.Surface` hand on the tokens that are left, and the end of the text
stands behind the last one. Here are the same parsers with a cursor instead: the tokens stay as they
are given, and a place in them is moved on. Where no token is found, the end of the text is seen
behind the last one (`tokenAt`).

The cursor is moved in two ways. `next` gives the token and does not pass an end; `eat` passes a
symbol that is found. Besides, the name of a type looks one token further than the cursor
(`identifierFollows`), where no end is made up. The furthest place of the cursor is kept for the
theory.
-/

set_option autoImplicit false

namespace ExprImports.Surface

/-- Where the last token stops. -/
def lastStop (tokens : List Token) : Nat :=
  (tokens.getLast?.map (·.span.stop)).getD 0

/-- The token at a place, and the end of the text behind the last one. -/
def tokenAt (tokens : List Token) (place : Nat) : Token :=
  tokens[place]?.getD ⟨.endOfText, ⟨lastStop tokens, 0⟩⟩

/-- The place that is read next, and the furthest one so far. -/
structure Cursor where
  place : Nat := 0
  furthest : Nat := 0
  deriving DecidableEq, Inhabited

/-- The cursor one place further. -/
def Cursor.moved (cursor : Cursor) : Cursor where
  place := cursor.place + 1
  furthest := max cursor.furthest (cursor.place + 1)

/-- A computation that moves the cursor. -/
abbrev Moving := ExceptT ParseFault (StateM Cursor)

namespace Moving

/-- What a computation gives, and the cursor behind it. -/
def start {α : Type} (computation : Moving α) (cursor : Cursor) : Except ParseFault α × Cursor :=
  StateT.run (ExceptT.run computation) cursor

section Tokens

variable (tokens : List Token)

/-! ## Single tokens -/

/-- The token at the cursor. -/
def peek : Moving Token := do
  return tokenAt tokens (← get).place

/-- Takes the token at the cursor. An end is not passed. -/
def next : Moving Token := do
  let token ← peek tokens
  if token.isEnd then return token
  else
    modify Cursor.moved
    return token

/-- Passes a symbol if it is at the cursor. -/
def eat (symbol : Symbol) : Moving Bool := do
  let token ← peek tokens
  if token.kind = .symbol symbol then
    modify Cursor.moved
    return true
  else return false

/-- Takes a symbol and gives its place. -/
def expect (symbol : Symbol) : Moving Span := do
  let token ← next tokens
  if token.kind = .symbol symbol then return token.span
  else if token.isEnd then throw (.unexpectedEnd token.span)
  else throw (.expected token symbol)

/-- Takes an identifier and gives its name and place. -/
def expectIdentifier : Moving (String × Span) := do
  let token ← next tokens
  match token.kind with
  | .identifier name => return (name, token.span)
  | .endOfText => throw (.unexpectedEnd token.span)
  | _ => throw (.expectedIdentifier token)

/-! ## Lists and repetition -/

/-- Extends a value as long as a step can be made. The cursor stands at the place, and a step moves
it on. -/
def extend {α : Type} (step : α → Moving (Option α)) (value : α) (place : Nat) : Moving α := do
  match ← step value with
  | none => return value
  | some longer =>
    let behind := (← get).place
    if tokens.length - behind < tokens.length - place then extend step longer behind
    else return longer
termination_by tokens.length - place

/-- Reads one or more items with commas between them. The cursor stands at the place, and an item
moves it on. -/
def commaSeparated (item : Moving Expression) (place : Nat) : Moving (List Expression) := do
  let first ← item
  if ← eat tokens .comma then
    let behind := (← get).place
    if tokens.length - behind < tokens.length - place then
      return first :: (← commaSeparated item behind)
    else return [first]
  else return [first]
termination_by tokens.length - place

/-- Reads items with commas between them up to a closing symbol, and gives the place of that
symbol. -/
def enclosed (item : Moving Expression) (close : Symbol) : Moving (List Expression × Span) := do
  let token ← peek tokens
  if token.kind = .symbol close then return ([], (← next tokens).span)
  else
    let items ← commaSeparated tokens item (← get).place
    return (items, ← expect tokens close)

/-! ## Names of types -/

/-- Whether the token behind a place is an identifier. -/
def identifierFollows (place : Nat) : Bool :=
  match tokens[place + 1]? with
  | some ⟨.identifier _, _⟩ => true
  | _ => false

theorem identifierFollows_iff (place : Nat) :
    identifierFollows tokens place = true ↔
      ∃ name span, tokenAt tokens (place + 1) = ⟨.identifier name, span⟩ := by
  unfold identifierFollows tokenAt
  cases tokens[place + 1]? with
  | none => simp
  | some token =>
    obtain ⟨kind, span⟩ := token
    cases kind <;> simp

/-- Reads a dot and the part of a name behind it. -/
def typeNamePart (type : TypeName) : Moving (Option TypeName) := do
  let token ← peek tokens
  if token.kind = .symbol .dot ∧ identifierFollows tokens (← get).place then
    let _ ← next tokens
    let (part, span) ← expectIdentifier tokens
    return some ⟨type.name ++ "." ++ part, type.span.cover span⟩
  else return none

/-- Reads the name of a type. -/
def typeName : Moving TypeName := do
  let (name, span) ← expectIdentifier tokens
  extend tokens (typeNamePart tokens) ⟨name, span⟩ (← get).place

/-! ## One level of expressions -/

/-- The parsers of the next deeper level. -/
structure Deeper where
  expression : Moving Expression
  operand : Moving Expression

variable (deeper : Deeper)

/-- Reads what follows `new`. -/
def creation (start : Span) : Moving Expression := do
  let type ← typeName tokens
  if ← eat tokens .leftBracket then
    let _ ← expect tokens .rightBracket
    let _ ← expect tokens .leftBrace
    let (items, close) ← enclosed tokens deeper.expression .rightBrace
    return .createArray type items (start.cover close)
  else
    let _ ← expect tokens .leftParen
    let (arguments, close) ← enclosed tokens deeper.expression .rightParen
    return .create type arguments (start.cover close)

/-- Reads an expression that nothing extends. -/
def primary : Moving Expression := do
  let token ← next tokens
  match token.kind with
  | .integer value => return .literal (.integer value) token.span
  | .floating value => return .literal (.floating value) token.span
  | .text value => return .literal (.text value) token.span
  | .keyword .true => return .literal (.boolean true) token.span
  | .keyword .false => return .literal (.boolean false) token.span
  | .keyword .null => return .literal .null token.span
  | .identifier name => return .identifier name token.span
  | .symbol .leftParen =>
    let inner ← deeper.expression
    let close ← expect tokens .rightParen
    return inner.withSpan (token.span.cover close)
  | .keyword .new => creation tokens deeper token.span
  | .keyword .typeOf =>
    let _ ← expect tokens .leftParen
    let type ← typeName tokens
    let close ← expect tokens .rightParen
    return .typeOf type (token.span.cover close)
  | .endOfText => throw (.unexpectedEnd token.span)
  | _ => throw (.unexpectedToken token)

/-- Extends an expression by one member access, method call or index. -/
def postfixStep (target : Expression) : Moving (Option Expression) := do
  if ← eat tokens .dot then
    let (name, span) ← expectIdentifier tokens
    if ← eat tokens .leftParen then
      let (arguments, close) ← enclosed tokens deeper.expression .rightParen
      return some (.methodCall target name arguments (target.span.cover close))
    else return some (.member target name (target.span.cover span))
  else if ← eat tokens .leftBracket then
    let (arguments, close) ← enclosed tokens deeper.expression .rightBracket
    return some (.index target arguments (target.span.cover close))
  else return none

/-- Reads an expression with all that follows it directly. -/
def postfixExpression : Moving Expression := do
  let target ← primary tokens deeper
  extend tokens (postfixStep tokens deeper) target (← get).place

/-- Reads an expression without binary operators. -/
def unaryExpression : Moving Expression := do
  let token ← peek tokens
  match prefixOperator? token.kind with
  | none => postfixExpression tokens deeper
  | some operator =>
    let sign ← next tokens
    let operand ← deeper.operand
    return .unary operator operand (sign.span.cover operand.span)

/-- Reads a type behind the keyword of a test that is tight enough. -/
def typeTest (minimum : Nat) (make : TypeName → Expression) : Moving (Option Expression) := do
  if minimum ≤ typeTestPrecedence then
    let _ ← next tokens
    let type ← typeName tokens
    return some (make type)
  else return none

/-- One step behind an operand: a type test, or a binary operator and what is read behind it. -/
def binaryStep (minimum : Nat)
    (behind : (operator : BinaryOperator) → minimum ≤ operator.precedence → Moving Expression)
    (left : Expression) : Moving (Option Expression) := do
  let token ← peek tokens
  match token.kind with
  | .keyword .is =>
    typeTest tokens minimum fun type => .typeIs left type (left.span.cover type.span)
  | .keyword .as =>
    typeTest tokens minimum fun type => .typeAs left type (left.span.cover type.span)
  | kind =>
    match binaryOperator? kind with
    | none => return none
    | some operator =>
      if tight : minimum ≤ operator.precedence then
        let _ ← next tokens
        let right ← behind operator tight
        return some (.binary operator left right (left.span.cover right.span))
      else return none

/-- Reads an expression whose binary operators and type tests bind at least as tightly as the
minimum. What follows an operator binds tighter than it. -/
def binaryExpression (minimum : Nat) : Moving Expression := do
  let first ← unaryExpression tokens deeper
  let right (operator : BinaryOperator) (_ : minimum ≤ operator.precedence) : Moving Expression :=
    binaryExpression (operator.precedence + 1)
  extend tokens (binaryStep tokens minimum right) first (← get).place
termination_by 7 - minimum
decreasing_by
  have bound := operator.precedence_le
  omega

/-- Reads an expression that may be conditional. -/
def conditionalExpression : Moving Expression := do
  let test ← binaryExpression tokens deeper 1
  if ← eat tokens .question then
    let ifTrue ← deeper.expression
    let _ ← expect tokens .colon
    let ifFalse ← deeper.expression
    return .conditional test ifTrue ifFalse (test.span.cover ifFalse.span)
  else return test

/-- Reads an expression that may be an assignment. -/
def assignmentExpression : Moving Expression := do
  let target ← conditionalExpression tokens deeper
  if ← eat tokens .equal then
    let value ← deeper.expression
    return .assign target value (target.span.cover value.span)
  else return target

/-! ## All levels -/

/-- Refuses to go deeper. -/
def tooDeep : Moving Expression := do
  throw (.tooDeep (← peek tokens).span)

/-- The parsers that may open so many levels. -/
def levels : Nat → Deeper
  | 0 => { expression := tooDeep tokens, operand := tooDeep tokens }
  | depth + 1 =>
    let deeper := levels depth
    { expression := assignmentExpression tokens deeper
      operand := unaryExpression tokens deeper }

/-- Reads all tokens as one expression that opens at most so many levels. -/
def parseWithin (depth : Nat) : Moving Expression := do
  let expression ← (levels tokens depth).expression
  let token ← peek tokens
  if token.isEnd then return expression else throw (.unexpectedToken token)

/-- Reads all tokens as one expression. -/
def parse : Moving Expression :=
  parseWithin tokens maxDepth

end Tokens

/-! ## Runs -/

section Runs

variable {α β : Type} {cursor later : Cursor} {tokens : List Token}

theorem start_bind_ok {first : Moving β} {value : β} (next : β → Moving α)
    (ran : first.start cursor = (.ok value, later)) :
    start (first >>= next) cursor = (next value).start later :=
  run_bind_of_ok next ran

theorem start_bind_error {first : Moving β} {fault : ParseFault} (next : β → Moving α)
    (ran : first.start cursor = (.error fault, later)) :
    start (first >>= next) cursor = (.error fault, later) :=
  run_bind_of_error next ran

theorem start_get (next : Cursor → Moving α) :
    start (get >>= next) cursor = (next cursor).start cursor := rfl

theorem start_peek (next : Token → Moving α) :
    start (peek tokens >>= next) cursor = (next (tokenAt tokens cursor.place)).start cursor := rfl

theorem start_next_of_eq (next : Token → Moving α)
    (isEnd : (tokenAt tokens cursor.place).kind = .endOfText) :
    start (Moving.next tokens >>= next) cursor =
      (next (tokenAt tokens cursor.place)).start cursor := by
  refine run_bind_of_ok next ?_
  change start (if (tokenAt tokens cursor.place).isEnd then _ else _) cursor = _
  rw [if_pos (by simpa [Token.isEnd] using isEnd)]
  rfl

theorem start_next_of_ne (next : Token → Moving α)
    (inside : (tokenAt tokens cursor.place).kind ≠ .endOfText) :
    start (Moving.next tokens >>= next) cursor =
      (next (tokenAt tokens cursor.place)).start cursor.moved := by
  refine run_bind_of_ok next ?_
  change start (if (tokenAt tokens cursor.place).isEnd then _ else _) cursor = _
  rw [if_neg (by simpa [Token.isEnd] using inside)]
  rfl

theorem start_eat_of_eq {symbol : Symbol} (passed kept : Moving α)
    (found : (tokenAt tokens cursor.place).kind = .symbol symbol) :
    start (do if ← eat tokens symbol then passed else kept) cursor =
      passed.start cursor.moved := by
  have ran : start (eat tokens symbol) cursor = (.ok true, cursor.moved) := by
    change start (if (tokenAt tokens cursor.place).kind = .symbol symbol then _ else _) cursor = _
    rw [if_pos found]
    rfl
  exact run_bind_of_ok _ ran

theorem start_eat_of_ne {symbol : Symbol} (passed kept : Moving α)
    (other : (tokenAt tokens cursor.place).kind ≠ .symbol symbol) :
    start (do if ← eat tokens symbol then passed else kept) cursor = kept.start cursor := by
  have ran : start (eat tokens symbol) cursor = (.ok false, cursor) := by
    change start (if (tokenAt tokens cursor.place).kind = .symbol symbol then _ else _) cursor = _
    rw [if_neg other]
    rfl
  exact run_bind_of_ok _ ran

end Runs

end Moving

end ExprImports.Surface
