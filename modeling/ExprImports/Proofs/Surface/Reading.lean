import ExprImports.Proofs.Surface.Printing
import ExprImports.Surface.Parsing

/-!
# Reading what was written, one level at a time

A reader of one level reads the tokens of an expression and stops before the tokens
behind it, provided that these do not go on with an expression of that level
(`Stops`). The readers of member accesses and of binary operators do not stop: they go
on to extend what they have read, so for them the statement is that they arrive at the
point where the expression is read and the rest is still to come (`Arrives`).

**From tight to loose.** What one reader reads, the readers of all looser levels read
as well (`OperandForm.of_postfixForm`, `BinaryForm.of_operandForm`, `FullForm.of_binaryForm`), and
parentheses lead from the loosest level back to the tightest one, one level deeper
(`PostfixForm.of_fullForm`).
-/

set_option autoImplicit false

namespace ExprImports.Surface

/-! ## Kinds of tokens -/

/-- The kinds of the tokens. -/
def kinds (tokens : List Token) : List TokenKind := tokens.map Token.kind

theorem exists_of_kinds_eq_cons {tokens : List Token} {kind : TokenKind}
    {others : List TokenKind} (same : kinds tokens = kind :: others) :
    ∃ token rest, tokens = token :: rest ∧ token.kind = kind ∧ kinds rest = others := by
  obtain ⟨token, rest, rfl, isKind, restKinds⟩ := List.map_eq_cons_iff.mp same
  exact ⟨token, rest, rfl, isKind, restKinds⟩

theorem length_kinds (tokens : List Token) : (kinds tokens).length = tokens.length :=
  List.length_map _

theorem kind_front (tokens : List Token) :
    (front tokens).kind = (kinds tokens).head?.getD .endOfText := by
  cases tokens <;> rfl

/-! ## Single tokens -/

section Tokens

variable {token : Token} {rest : List Token}

theorem advance_cons (inside : token.kind ≠ .endOfText) : advance (token :: rest) = rest := by
  simp only [advance, front, Token.isEnd, inside, decide_false, Bool.false_eq_true, if_false,
    List.tail_cons]

theorem eat?_cons {symbol : Symbol} (isSymbol : token.kind = .symbol symbol) :
    eat? symbol (token :: rest) = some rest := by
  have inside : token.kind ≠ .endOfText := by simp [isSymbol]
  simp only [eat?, front, isSymbol, if_true, advance_cons inside]

theorem eat?_eq_none {symbol : Symbol} {tokens : List Token}
    (other : (front tokens).kind ≠ .symbol symbol) : eat? symbol tokens = none := by
  rw [eat?, if_neg other]

theorem expect_cons {symbol : Symbol} (isSymbol : token.kind = .symbol symbol) :
    expect symbol (token :: rest) = .ok (token.span, rest) := by
  have inside : token.kind ≠ .endOfText := by simp [isSymbol]
  simp only [expect, front, isSymbol, if_true, advance_cons inside]

theorem expectIdentifier_cons {name : String} (isName : token.kind = .identifier name) :
    expectIdentifier (token :: rest) = .ok ((name, token.span), rest) := by
  have inside : token.kind ≠ .endOfText := by simp [isName]
  simp only [expectIdentifier, front, isName, advance_cons inside]

end Tokens

/-! ## Where a reader stops -/

/-- How tightly a token binds as a binary operator or a type test. -/
def TokenKind.tightness : TokenKind → Nat
  | .keyword .is | .keyword .as => 4
  | kind =>
    match binaryOperator? kind with
    | some operator => operator.level
    | none => 0

/-- The highest level of expressions that go on with the token. -/
def TokenKind.reach : TokenKind → Nat
  | .symbol .leftParen => 9
  | .symbol .dot | .symbol .leftBracket => 8
  | .symbol .question | .symbol .equal => 1
  | kind => kind.tightness

/-- Expressions of higher levels end before the tokens. -/
def Stops (level : Nat) (after : List TokenKind) : Prop :=
  (after.head?.getD .endOfText).reach ≤ level

theorem stops_cons {level : Nat} {kind : TokenKind} {after : List TokenKind} :
    Stops level (kind :: after) ↔ kind.reach ≤ level := Iff.rfl

theorem Stops.mono {level higher : Nat} {after : List TokenKind} (stops : Stops level after)
    (below : level ≤ higher) : Stops higher after :=
  Nat.le_trans stops below

theorem Stops.head?_ne {level : Nat} {after : List TokenKind} {kind : TokenKind}
    (stops : Stops level after) (further : level < kind.reach) : after.head? ≠ some kind := by
  intro isKind
  rw [Stops, isKind, Option.getD_some] at stops
  exact absurd further (Nat.not_lt.mpr stops)

theorem tightness_le_reach (kind : TokenKind) : kind.tightness ≤ kind.reach := by
  unfold TokenKind.reach
  split
  all_goals first
    | decide
    | exact Nat.le_refl _

theorem tightness_of_binaryOperator? {kind : TokenKind} {operator : BinaryOperator}
    (isOperator : binaryOperator? kind = some operator) :
    kind.tightness = operator.precedence := by
  obtain rfl := binaryOperator?_eq_some_iff.mp isOperator
  cases operator <;> rfl

theorem precedence_eq_level (operator : BinaryOperator) : operator.precedence = operator.level := by
  cases operator <;> rfl

/-! ## Extension -/

section Extend

variable {step : Expression → List Token → Except ParseFault (Option (Expression × List Token))}

theorem extend_of_none {value : Expression} {tokens : List Token}
    (stop : step value tokens = .ok none) : extend step value tokens = .ok (value, tokens) := by
  rw [extend, stop]

theorem extend_of_some {value longer : Expression} {tokens rest : List Token}
    (more : step value tokens = .ok (some (longer, rest))) (shorter : rest.length < tokens.length) :
    extend step value tokens = extend step longer rest := by
  rw [extend, more]
  simp only [shorter, if_true]

end Extend

/-- One step behind an operand: a type test, or a binary operator and its right operand. -/
def binaryStep (deeper : Deeper) (minimum : Nat) (left : Expression) (tokens : List Token) :
    Except ParseFault (Option (Expression × List Token)) :=
  match (front tokens).kind with
  | .keyword .is =>
    if minimum ≤ typeTestPrecedence then do
      let (type, rest) ← typeName (advance tokens)
      return some (.typeIs left type (left.span.cover type.span), rest)
    else .ok none
  | .keyword .as =>
    if minimum ≤ typeTestPrecedence then do
      let (type, rest) ← typeName (advance tokens)
      return some (.typeAs left type (left.span.cover type.span), rest)
    else .ok none
  | kind =>
    match binaryOperator? kind with
    | none => .ok none
    | some operator =>
      if minimum ≤ operator.precedence then do
        let (right, rest) ← binaryExpression deeper (operator.precedence + 1) (advance tokens)
        return some (.binary operator left right (left.span.cover right.span), rest)
      else .ok none

theorem binaryExpression_of_unary {deeper : Deeper} {first : Expression}
    {tokens rest : List Token} (read : unaryExpression deeper tokens = .ok (first, rest))
    (minimum : Nat) :
    binaryExpression deeper minimum tokens = extend (binaryStep deeper minimum) first rest := by
  rw [binaryExpression, read]
  rfl

theorem postfixStep_eq_none {deeper : Deeper} {value : Expression} {tokens : List Token}
    (stops : Stops 7 (kinds tokens)) : postfixStep deeper value tokens = .ok none := by
  unfold Stops at stops
  rw [← kind_front] at stops
  have noDot : (front tokens).kind ≠ .symbol .dot := by
    intro isDot
    rw [isDot] at stops
    exact absurd stops (by decide)
  have noBracket : (front tokens).kind ≠ .symbol .leftBracket := by
    intro isBracket
    rw [isBracket] at stops
    exact absurd stops (by decide)
  simp only [postfixStep, eat?_eq_none noDot, eat?_eq_none noBracket]

theorem binaryStep_eq_none {deeper : Deeper} {minimum : Nat} {value : Expression}
    {tokens : List Token} (loose : (front tokens).kind.tightness < minimum) :
    binaryStep deeper minimum value tokens = .ok none := by
  unfold binaryStep
  split
  · rename_i isTest
    rw [isTest] at loose
    have looser : typeTestPrecedence < minimum := loose
    rw [if_neg (Nat.not_le.mpr looser)]
  · rename_i isTest
    rw [isTest] at loose
    have looser : typeTestPrecedence < minimum := loose
    rw [if_neg (Nat.not_le.mpr looser)]
  · split
    · rfl
    · rename_i operator isOperator
      rw [tightness_of_binaryOperator? isOperator] at loose
      rw [if_neg (Nat.not_le.mpr loose)]

/-! ## What the readers of each level do -/

/-- The expression up to its places, with the rest of the tokens still to come. -/
structure IsRead (expression : Expression) (after : List TokenKind) (read : Expression)
    (rest : List Token) : Prop where
  bare : read.bare = expression.bare
  rest : kinds rest = after

section Forms

variable (deeper : Deeper) (written : List TokenKind) (expression : Expression)

/-- The reader of member accesses, calls and indexes arrives behind the expression. -/
def PostfixForm : Prop :=
  ∀ tokens after, kinds tokens = written ++ after → Stops 8 after →
    ∃ read rest, IsRead expression after read rest ∧
      postfixExpression deeper tokens = extend (postfixStep deeper) read rest

/-- The reader of operands reads the expression. -/
def OperandForm : Prop :=
  ∀ tokens after, kinds tokens = written ++ after → Stops 7 after →
    ∃ read rest, IsRead expression after read rest ∧
      unaryExpression deeper tokens = .ok (read, rest)

/-- The reader of binary operators arrives behind the expression, whatever looser
operators it is to read. -/
def BinaryForm (level : Nat) : Prop :=
  ∀ minimum ≤ level, ∀ tokens after, kinds tokens = written ++ after → Stops level after →
    ∃ read rest, IsRead expression after read rest ∧
      binaryExpression deeper minimum tokens = extend (binaryStep deeper minimum) read rest

/-- The reader of whole expressions reads the expression. -/
def FullForm : Prop :=
  ∀ tokens after, kinds tokens = written ++ after → Stops 0 after →
    ∃ read rest, IsRead expression after read rest ∧
      assignmentExpression deeper tokens = .ok (read, rest)

end Forms

section Chain

variable {deeper : Deeper} {written : List TokenKind} {expression : Expression}

/-- What can be read without a prefix operator does not begin with one. -/
theorem unaryExpression_of_postfixExpression {tokens rest : List Token} {read : Expression}
    (done : postfixExpression deeper tokens = .ok (read, rest)) :
    unaryExpression deeper tokens = .ok (read, rest) := by
  cases isOperator : prefixOperator? (front tokens).kind with
  | none => simp only [unaryExpression, isOperator, done]
  | some operator =>
      have isSign := prefixOperator?_eq_some_iff.mp isOperator
      exfalso
      cases operator <;>
        simp [postfixExpression, primary, isSign, UnaryOperator.sign, Bind.bind,
          Except.bind] at done

/-- What the reader of primaries reads, the reader of accesses begins with. -/
theorem PostfixForm.of_primary
    (reads : ∀ tokens after, kinds tokens = written ++ after →
      ∃ read rest, IsRead expression after read rest ∧
        primary deeper tokens = .ok (read, rest)) :
    PostfixForm deeper written expression := by
  intro tokens after same _
  obtain ⟨read, rest, isRead, done⟩ := reads tokens after same
  refine ⟨read, rest, isRead, ?_⟩
  rw [postfixExpression, done]
  rfl

theorem OperandForm.of_postfixForm (form : PostfixForm deeper written expression) :
    OperandForm deeper written expression := by
  intro tokens after same stops
  obtain ⟨read, rest, isRead, arrived⟩ := form tokens after same (stops.mono (by decide))
  have stopped : postfixStep deeper read rest = .ok none :=
    postfixStep_eq_none (isRead.rest ▸ stops)
  rw [extend_of_none stopped] at arrived
  exact ⟨read, rest, isRead, unaryExpression_of_postfixExpression arrived⟩

theorem BinaryForm.of_operandForm {level : Nat} (loose : level ≤ 7)
    (form : OperandForm deeper written expression) :
    BinaryForm deeper written expression level := by
  intro minimum _ tokens after same stops
  obtain ⟨read, rest, isRead, done⟩ := form tokens after same (stops.mono loose)
  exact ⟨read, rest, isRead, binaryExpression_of_unary done minimum⟩

theorem BinaryForm.mono {level higher : Nat} (below : level ≤ higher)
    (form : BinaryForm deeper written expression higher) :
    BinaryForm deeper written expression level :=
  fun minimum small tokens after same stops =>
    form minimum (Nat.le_trans small below) tokens after same (stops.mono below)

/-- The reader of binary operators stops before a token that binds too loosely. -/
theorem BinaryForm.read {level minimum : Nat} (form : BinaryForm deeper written expression level)
    (small : minimum ≤ level) {tokens : List Token} {after : List TokenKind}
    (same : kinds tokens = written ++ after) (stops : Stops level after)
    (loose : (after.head?.getD .endOfText).tightness < minimum) :
    ∃ read rest, IsRead expression after read rest ∧
      binaryExpression deeper minimum tokens = .ok (read, rest) := by
  obtain ⟨read, rest, isRead, arrived⟩ := form minimum small tokens after same stops
  have stopped : binaryStep deeper minimum read rest = .ok none := by
    refine binaryStep_eq_none ?_
    rw [kind_front, isRead.rest]
    exact loose
  rw [extend_of_none stopped] at arrived
  exact ⟨read, rest, isRead, arrived⟩

theorem conditionalExpression_of_binary {tokens rest : List Token} {read : Expression}
    (done : binaryExpression deeper 1 tokens = .ok (read, rest))
    (other : (front rest).kind ≠ .symbol .question) :
    conditionalExpression deeper tokens = .ok (read, rest) := by
  simp only [conditionalExpression, done, Bind.bind, Except.bind, eat?_eq_none other]
  rfl

theorem assignmentExpression_of_conditional {tokens rest : List Token} {read : Expression}
    (done : conditionalExpression deeper tokens = .ok (read, rest))
    (other : (front rest).kind ≠ .symbol .equal) :
    assignmentExpression deeper tokens = .ok (read, rest) := by
  simp only [assignmentExpression, done, Bind.bind, Except.bind, eat?_eq_none other]
  rfl

/-- A token at which whole expressions stop is no symbol that goes on with them. -/
theorem front_ne_of_stops (symbol : Symbol) {after : List TokenKind} {rest : List Token}
    (stops : Stops 0 after) (restKinds : kinds rest = after)
    (further : 0 < (TokenKind.symbol symbol).reach) : (front rest).kind ≠ .symbol symbol := by
  intro isSymbol
  unfold Stops at stops
  rw [← restKinds, ← kind_front, isSymbol] at stops
  exact absurd further (Nat.not_lt.mpr stops)

theorem FullForm.of_binaryForm {level : Nat} (tight : 1 ≤ level)
    (form : BinaryForm deeper written expression level) :
    FullForm deeper written expression := by
  intro tokens after same stops
  have loose : (after.head?.getD .endOfText).tightness < 1 :=
    Nat.lt_succ_of_le (Nat.le_trans (tightness_le_reach _) stops)
  obtain ⟨read, rest, isRead, done⟩ :=
    form.read tight same (stops.mono (Nat.zero_le _)) loose
  have noQuestion := front_ne_of_stops .question stops isRead.rest (by decide)
  have noEqual := front_ne_of_stops .equal stops isRead.rest (by decide)
  have conditional := conditionalExpression_of_binary done noQuestion
  exact ⟨read, rest, isRead, assignmentExpression_of_conditional conditional noEqual⟩

end Chain

/-- An expression in parentheses is read like an identifier. -/
theorem PostfixForm.of_fullForm {depth : Nat} {written : List TokenKind} {expression : Expression}
    (form : FullForm (levels depth) written expression) :
    PostfixForm (levels (depth + 1)) (grouped true written) expression := by
  refine .of_primary ?_
  intro tokens after same
  simp only [grouped, if_true, List.cons_append, List.append_assoc] at same
  obtain ⟨opening, inner, rfl, isOpen, innerKinds⟩ := exists_of_kinds_eq_cons same
  obtain ⟨read, behind, isRead, done⟩ :=
    form inner (.symbol .rightParen :: after) innerKinds (stops_cons.mpr (by decide))
  obtain ⟨close, rest, rfl, isClose, restKinds⟩ := exists_of_kinds_eq_cons isRead.rest
  refine ⟨read.withSpan (opening.span.cover close.span), rest,
    ⟨by rw [Expression.bare_withSpan, isRead.bare], restKinds⟩, ?_⟩
  have inside : opening.kind ≠ .endOfText := by simp [isOpen]
  have deeperRead : (levels (depth + 1)).expression inner = .ok (read, close :: rest) := done
  simp only [primary, front, isOpen, advance_cons inside, deeperRead, Bind.bind, Except.bind,
    expect_cons isClose]
  rfl

end ExprImports.Surface
