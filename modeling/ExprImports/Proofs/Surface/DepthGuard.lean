import ExprImports.Proofs.Surface.Following

/-!
# The guard against deep nesting

Reading tokens opens levels: the expression itself, what stands in parentheses, arguments, items and
indexes, the branches of a conditional, the value of an assignment and the operand of a prefix
operator. Not more than `maxDepth` of them may be open at once.

**The guard is transparent.** What is read is what would be read without a limit, unless a level
beyond it would be opened. Then, and only then, the tokens are at fault for their depth, where the
first such level starts (`parse_eq_guarded`). The counter of the open levels is restored by every
parser, whether it succeeds or not (`restoring_inside`).
-/

set_option autoImplicit false

namespace ExprImports.Surface

/-! ## All levels -/

namespace Deeper

/-- The parser that opens a level. -/
def level (deeper : Deeper) : Counting.Opening → Parse Expression
  | .expression => deeper.expression
  | .operand => deeper.operand

/-- Reads what a level holds with the parsers of the next deeper one. -/
def read (deeper : Deeper) : Counting.Opening → Parse Expression
  | .expression => assignmentExpression deeper
  | .operand => unaryExpression deeper

theorem FollowsBelow.read {limit : Option Nat} {bound depth reach width : Nat}
    {counting : Counting.Deeper} {plain : Deeper}
    (follows : FollowsBelow limit bound depth reach width counting plain)
    (opening : Counting.Opening) (tokens : List Token) (short : tokens.length ≤ width) :
    Follows limit bound depth reach Prod.snd tokens.length (opening.read counting tokens)
      (plain.read opening tokens) := by
  cases opening with
  | expression => exact follows.assignmentExpression tokens short
  | operand => exact follows.unaryExpression tokens short

end Deeper

open Counting (Opening reading nested inside)

theorem level_levels (bound depth : Nat) (opening : Opening) (tokens : List Token) :
    (levels (bound - depth)).level opening tokens =
      if depth < bound then (levels (bound - (depth + 1))).read opening tokens
      else .error (.tooDeep (front tokens).span) := by
  split
  next fits =>
    have deeper : bound - depth = bound - (depth + 1) + 1 := by omega
    rw [deeper]
    cases opening <;> rfl
  next full =>
    rw [Nat.sub_eq_zero_of_le (Nat.not_lt.mp full)]
    cases opening <;> rfl

section Bound

variable {limit : Option Nat} {bound : Nat} (isBound : ∀ most ∈ limit, most = bound)

include isBound

/-- What a level holds is followed whatever its depth is. The induction is on the tokens that are
still there: the levels inside start behind the first one. -/
theorem follows_reading (opening : Opening) (tokens : List Token) (depth : Nat) :
    Follows limit bound depth (depth + tokens.length) Prod.snd tokens.length
      (reading limit opening tokens) ((levels (bound - depth)).read opening tokens) := by
  induction size : tokens.length using Nat.strongRecOn generalizing opening tokens depth with
  | ind size ih =>
    subst size
    have level (opening : Opening) (rest : List Token) (shorter : rest.length < tokens.length) :
        Follows limit bound depth (depth + tokens.length) Prod.snd rest.length
          (if rest.length < tokens.length then
            nested limit (front rest).span (reading limit opening rest)
          else throw (.unexpectedToken (front rest)))
          ((levels (bound - depth)).level opening rest) := by
      rw [if_pos shorter, level_levels]
      exact (ih _ shorter opening rest (depth + 1) rfl).nested isBound (by omega) (by omega)
    rw [Counting.reading_eq]
    have deeper : Deeper.FollowsBelow limit bound depth (depth + tokens.length) tokens.length
        (inside limit tokens.length) (levels (bound - depth)) :=
      ⟨level .expression, level .operand⟩
    exact deeper.read opening tokens le_rfl

theorem follows_nested (opening : Opening) (tokens : List Token) (depth : Nat) :
    Follows limit bound depth (depth + 1 + tokens.length) Prod.snd tokens.length
      (nested limit (front tokens).span (reading limit opening tokens))
      ((levels (bound - depth)).level opening tokens) := by
  rw [level_levels]
  exact (follows_reading isBound opening tokens (depth + 1)).nested isBound (by omega) le_rfl

theorem follows_parse (tokens : List Token) (depth : Nat) :
    Follows limit bound depth (depth + (tokens.length + 2)) (fun _ => []) 0
      (Counting.parse limit tokens) (parseWithin (bound - depth) tokens) := by
  have reach : depth + 1 + (withEnd tokens).length = depth + (tokens.length + 2) := by
    simp only [withEnd, List.length_append, List.length_singleton]
    omega
  refine (reach ▸ follows_nested isBound .expression (withEnd tokens) depth).bind ?_
  rintro ⟨expression, rest⟩ -
  dsimp only
  split
  · exact .pure _ le_rfl
  · exact .throw (by simp)

end Bound

theorem eq_getD (limit : Option Nat) : ∀ most ∈ limit, most = limit.getD 0 := by
  rintro most ⟨⟩
  rfl

/-- The parsers of a level that refuse lists of tokens of the width and longer ones. -/
def Deeper.upTo (width : Nat) (deeper : Deeper) : Deeper :=
  let short (parser : Parse Expression) : Parse Expression := fun tokens =>
    if tokens.length < width then parser tokens else .error (.unexpectedToken (front tokens))
  { expression := short deeper.expression, operand := short deeper.operand }

/-- On long lists of tokens nothing is read inside, so these can be left to any bound. -/
theorem followsBelow_inside (limit : Option Nat) (depth width room : Nat) :
    Deeper.FollowsBelow limit (limit.getD 0) depth (depth + width) room (inside limit width)
      ((levels (limit.getD 0 - depth)).upTo width) := by
  have isBound := eq_getD limit
  have level (opening : Opening) (tokens : List Token) :
      Follows limit (limit.getD 0) depth (depth + width) Prod.snd tokens.length
        (if tokens.length < width then
          nested limit (front tokens).span (reading limit opening tokens)
        else throw (.unexpectedToken (front tokens)))
        (if tokens.length < width then (levels (limit.getD 0 - depth)).level opening tokens
        else .error (.unexpectedToken (front tokens))) := by
    split
    next shorter =>
      rw [level_levels]
      exact (follows_reading isBound opening tokens (depth + 1)).nested isBound (by omega)
        (by omega)
    next => exact .throw (by simp)
  exact ⟨fun tokens _ => level .expression tokens, fun tokens _ => level .operand tokens⟩

theorem Counted.Restores.of_follows {α : Type} {limit : Option Nat} {bound reach room : Nat}
    {left : α → List Token} {computation : Counted α} {plain : Nat → Except ParseFault α}
    (follows : ∀ depth,
      Follows limit bound depth (depth + reach) left room computation (plain depth)) :
    computation.Restores := by
  rintro ⟨depth, before⟩
  obtain ⟨outcome, opened, runs⟩ := follows depth before
  rw [runs.restored]

theorem restoring_inside (limit : Option Nat) (width : Nat) :
    (inside limit width).Restoring := by
  have follows (room depth : Nat) := followsBelow_inside limit depth width room
  constructor
  case expression =>
    intro tokens
    exact .of_follows fun depth => (follows _ depth).expression tokens (Nat.lt_succ_self _)
  case operand =>
    intro tokens
    exact .of_follows fun depth => (follows _ depth).operand tokens (Nat.lt_succ_self _)
  case items =>
    intro close tokens
    exact .of_follows fun depth =>
      (follows _ depth).expression.enclosed close tokens (Nat.lt_succ_self _)
  case created =>
    intro start tokens
    exact .of_follows fun depth => (follows _ depth).creation start tokens le_rfl
  case primary =>
    intro tokens
    exact .of_follows fun depth => (follows _ depth).primary tokens le_rfl
  case extended =>
    intro tokens
    exact .of_follows fun depth => (follows _ depth).postfixExpression tokens le_rfl
  case unary =>
    intro tokens
    exact .of_follows fun depth => (follows _ depth).unaryExpression tokens le_rfl
  case binary =>
    intro minimum tokens
    exact .of_follows fun depth => (follows _ depth).binaryExpression minimum tokens le_rfl
  case conditional =>
    intro tokens
    exact .of_follows fun depth => (follows _ depth).conditionalExpression tokens le_rfl
  case assignment =>
    intro tokens
    exact .of_follows fun depth => (follows _ depth).assignmentExpression tokens le_rfl

theorem restores_parse (limit : Option Nat) (tokens : List Token) :
    (Counting.parse limit tokens).Restores :=
  .of_follows fun depth => follows_parse (eq_getD limit) tokens depth

/-! ## The guard -/

/-- A run without a limit, beside all runs with one. -/
theorem runs_unlimited (bound : Nat) (tokens : List Token) :
    Runs none bound 0 (0 + (tokens.length + 2)) (fun _ => []) 0 (Counting.parse none tokens)
      (parseWithin bound tokens) [] (unlimited tokens) (openedLevels tokens) := by
  have isBound : ∀ most ∈ (none : Option Nat), most = bound := by simp
  obtain ⟨outcome, opened, runs⟩ := follows_parse isBound tokens 0 []
  have isOutcome : unlimited tokens = outcome := congrArg Prod.fst runs.restored
  have isOpened : openedLevels tokens = opened :=
    congrArg (fun result => result.2.opened) runs.restored
  rw [isOutcome, isOpened]
  exact runs

/-- What is read within a bound is what is read without one, as far as the bound allows. -/
theorem parseWithin_eq_guarded (bound : Nat) (tokens : List Token) :
    parseWithin bound tokens = guarded bound (openedLevels tokens) (unlimited tokens) :=
  (runs_unlimited bound tokens).agrees

theorem counted_eq_parseWithin (bound : Nat) (tokens : List Token) :
    ((Counting.parse (some bound) tokens).start {}).1 = parseWithin bound tokens := by
  have isBound : ∀ most ∈ some bound, most = bound := by simp [eq_comm]
  obtain ⟨outcome, opened, runs⟩ := follows_parse isBound tokens 0 []
  have agrees : parseWithin bound tokens = guarded bound opened outcome := runs.agrees
  rw [agrees, guarded_of_le (runs.held bound rfl)]
  exact congrArg Prod.fst runs.restored

/-- Tokens cannot open more levels than there are tokens. -/
theorem parseWithin_eq_unlimited (more : Nat) (tokens : List Token) :
    parseWithin (tokens.length + 2 + more) tokens = unlimited tokens := by
  rw [parseWithin_eq_guarded]
  refine guarded_of_le fun level isOpened => ?_
  have reach := (runs_unlimited 0 tokens).reaches level isOpened
  omega

theorem parse_tooDeep_iff (tokens : List Token) :
    (∃ span, parse tokens = .error (.tooDeep span)) ↔
      ∃ level ∈ openedLevels tokens, maxDepth < level.number := by
  rw [parse, parseWithin_eq_guarded]
  exact tooDeep_guarded_iff ((runs_unlimited maxDepth tokens).free rfl)

/-- **The guard changes nothing but the outcome of what is too deep.** The parser with a counter and
a limit is the parser of tokens. It gives what comes of the tokens without a limit, unless a level
beyond the limit is opened then, and only then it is at fault, at the first such level. Without a
limit is as good as within a bound that the tokens cannot exceed. Every parser leaves the counter as
it was. -/
theorem parse_eq_guarded (tokens : List Token) :
    ((Counting.parse (some maxDepth) tokens).start {}).1 = parse tokens ∧
      parse tokens = guarded maxDepth (openedLevels tokens) (unlimited tokens) ∧
      ((∃ span, parse tokens = .error (.tooDeep span)) ↔
        ∃ level ∈ openedLevels tokens, maxDepth < level.number) ∧
      (∀ more, parseWithin (tokens.length + 2 + more) tokens = unlimited tokens) ∧
      ∀ limit, (Counting.parse limit tokens).Restores ∧
        ∀ width, (inside limit width).Restoring := by
  refine ⟨counted_eq_parseWithin maxDepth tokens, parseWithin_eq_guarded maxDepth tokens,
    parse_tooDeep_iff tokens, fun more => parseWithin_eq_unlimited more tokens, fun limit => ?_⟩
  exact ⟨restores_parse limit tokens, restoring_inside limit⟩

end ExprImports.Surface
