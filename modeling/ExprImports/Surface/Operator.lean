import ExprImports.Surface.Expression
import ExprImports.Surface.Token

/-!
# Operators and their signs

Every operator has one sign. A minus is a prefix operator before an operand and a
binary one behind it; every other sign writes at most one operator. Binary
operators have one of six precedences, and type tests that of comparisons.
-/

set_option autoImplicit false

namespace ExprImports.Surface

/-! ## Prefix operators -/

/-- The symbol that writes a prefix operator. -/
def UnaryOperator.sign : UnaryOperator → Symbol
  | .negate => .minus
  | .not => .bang

/-- The prefix operator that a token is. -/
def prefixOperator? : TokenKind → Option UnaryOperator
  | .symbol .minus => some .negate
  | .symbol .bang => some .not
  | _ => none

/-- A token is a prefix operator exactly when it is the sign of that operator. -/
theorem prefixOperator?_eq_some_iff {kind : TokenKind} {operator : UnaryOperator} :
    prefixOperator? kind = some operator ↔ kind = .symbol operator.sign := by
  constructor
  · intro h
    unfold prefixOperator? at h
    split at h
    all_goals first
      | (simp only [Option.some.injEq] at h; subst h; rfl)
      | simp at h
  · rintro rfl
    cases operator <;> rfl

/-! ## Binary operators -/

/-- The symbol that writes a binary operator. -/
def BinaryOperator.sign : BinaryOperator → Symbol
  | .add => .plus
  | .subtract => .minus
  | .multiply => .star
  | .divide => .slash
  | .remainder => .percent
  | .less => .less
  | .lessEqual => .lessEqual
  | .greater => .greater
  | .greaterEqual => .greaterEqual
  | .equal => .equalEqual
  | .notEqual => .notEqual
  | .and => .andAnd
  | .or => .orOr

/-- The binary operator that a token is. -/
def binaryOperator? : TokenKind → Option BinaryOperator
  | .symbol .orOr => some .or
  | .symbol .andAnd => some .and
  | .symbol .equalEqual => some .equal
  | .symbol .notEqual => some .notEqual
  | .symbol .less => some .less
  | .symbol .lessEqual => some .lessEqual
  | .symbol .greater => some .greater
  | .symbol .greaterEqual => some .greaterEqual
  | .symbol .plus => some .add
  | .symbol .minus => some .subtract
  | .symbol .star => some .multiply
  | .symbol .slash => some .divide
  | .symbol .percent => some .remainder
  | _ => none

/-- A token is a binary operator exactly when it is the sign of that operator. -/
theorem binaryOperator?_eq_some_iff {kind : TokenKind} {operator : BinaryOperator} :
    binaryOperator? kind = some operator ↔ kind = .symbol operator.sign := by
  constructor
  · intro h
    unfold binaryOperator? at h
    split at h
    all_goals first
      | (simp only [Option.some.injEq] at h; subst h; rfl)
      | simp at h
  · rintro rfl
    cases operator <;> rfl

/-- How tightly a binary operator binds, from 1 to 6. -/
def BinaryOperator.precedence : BinaryOperator → Nat
  | .or => 1
  | .and => 2
  | .equal | .notEqual => 3
  | .less | .lessEqual | .greater | .greaterEqual => 4
  | .add | .subtract => 5
  | .multiply | .divide | .remainder => 6

theorem BinaryOperator.precedence_le (operator : BinaryOperator) : operator.precedence ≤ 6 := by
  cases operator <;> decide

/-- How tightly a type test binds. -/
def typeTestPrecedence : Nat := 4

end ExprImports.Surface
