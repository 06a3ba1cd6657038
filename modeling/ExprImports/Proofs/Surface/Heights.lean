import ExprImports.Proofs.Surface.Completeness
import ExprImports.Proofs.Surface.DepthGuard
import ExprImports.Proofs.Surface.Display

/-!
# How high expressions are

The height of an expression is the length of the longest chain of parts that lie within each other.
What binds or visits an expression by recursion descends along such a chain.

**Chains to the front.** Binary operators, type tests, members, calls and indexes are read in loops:
each of them takes the whole expression so far as its first part. Such a link costs no level, so sums
of many terms are as high as they are long, and the height has no bound (`height_unbounded`).

**Chains inward.** Every other link leads to what is read by a call, and between two levels there are
only few of them: one for each precedence, one for a conditional and one for an assignment. So up to
the links to the front the height has a bound, and what exceeds it is too deep
(`inwardHeight_bounded`).
-/

set_option autoImplicit false

namespace ExprImports.Surface

/-! ## Heights -/

mutual

/-- The longest chain of parts within each other. A link from an operator, a type test, a member, a
call or an index to its first part counts as much as is given, every other one counts once. -/
def Expression.heightBy (front : Nat) : Expression → Nat
  | .literal _ _ | .identifier _ _ | .typeOf _ _ => 1
  | .member target _ _ => target.heightBy front + front
  | .methodCall target _ arguments _ | .index target arguments _ =>
    max (target.heightBy front + front) (heightByAll front arguments + 1)
  | .create _ arguments _ => heightByAll front arguments + 1
  | .createArray _ items _ => heightByAll front items + 1
  | .typeIs operand _ _ | .typeAs operand _ _ => operand.heightBy front + front
  | .unary _ operand _ => operand.heightBy front + 1
  | .binary _ left right _ => max (left.heightBy front + front) (right.heightBy front + 1)
  | .conditional test ifTrue ifFalse _ =>
    max (test.heightBy front) (max (ifTrue.heightBy front) (ifFalse.heightBy front)) + 1
  | .assign target value _ => max (target.heightBy front) (value.heightBy front) + 1

/-- The longest of the chains in several expressions. -/
def heightByAll (front : Nat) : List Expression → Nat
  | [] => 0
  | expression :: rest => max (expression.heightBy front) (heightByAll front rest)

end

namespace Expression

/-- The number of parts in the longest chain of parts within each other. -/
def height (expression : Expression) : Nat :=
  expression.heightBy 1

/-- The height with the links to the front left out. -/
def inwardHeight (expression : Expression) : Nat :=
  expression.heightBy 0

end Expression

theorem heightByAll_le {front bound : Nat} {items : List Expression}
    (low : ∀ item ∈ items, item.heightBy front ≤ bound) : heightByAll front items ≤ bound := by
  induction items with
  | nil => exact Nat.zero_le _
  | cons item rest ih =>
    obtain ⟨first, others⟩ := List.forall_mem_cons.mp low
    exact max_le first (ih others)

theorem Expression.heightBy_withSpan (front : Nat) (expression : Expression) (span : Span) :
    (expression.withSpan span).heightBy front = expression.heightBy front := by
  cases expression <;> rfl

mutual

theorem Expression.heightBy_bare (front : Nat) (expression : Expression) :
    expression.bare.heightBy front = expression.heightBy front := by
  cases expression <;>
    simp only [Expression.bare, Expression.heightBy, Expression.heightBy_bare, heightByAll_bareAll]

theorem heightByAll_bareAll (front : Nat) (items : List Expression) :
    heightByAll front (bareAll items) = heightByAll front items := by
  cases items with
  | nil => rfl
  | cons item rest =>
    simp only [bareAll, heightByAll, Expression.heightBy_bare, heightByAll_bareAll]

end

/-! ## Long chains -/

/-- The tokens of an expression are read as it within as many levels as it opens. -/
theorem exists_parseWithin {expression : Expression} {depth : Nat} {tokens : List Token}
    (shallow : expression.nesting + 1 ≤ depth)
    (same : kinds tokens = expression.written ++ [.endOfText]) :
    ∃ read, parseWithin depth tokens = .ok read ∧ read.bare = expression.bare := by
  have withEndKinds : kinds (withEnd tokens) = expression.written ++ [.endOfText, .endOfText] := by
    rw [kinds_withEnd, same, List.append_assoc]
    rfl
  obtain ⟨read, rest, isRead, done⟩ :=
    (readings expression).read_deeper shallow withEndKinds (stops_cons.mpr (by decide))
  have ended : (front rest).isEnd = true := by
    rw [Token.isEnd, kind_front, isRead.rest]
    rfl
  refine ⟨read, ?_, isRead.bare⟩
  rw [parseWithin, done]
  exact if_pos ended

theorem heightBy_of_bare {read expression : Expression} (same : read.bare = expression.bare)
    (front : Nat) : read.heightBy front = expression.heightBy front := by
  rw [← read.heightBy_bare, same, expression.heightBy_bare]

/-- The tokens of an expression, all of them nowhere. -/
def tokensOf (expression : Expression) : List Token :=
  (expression.written ++ [TokenKind.endOfText]).map (⟨·, nowhere⟩)

theorem kinds_tokensOf (expression : Expression) :
    kinds (tokensOf expression) = expression.written ++ [.endOfText] := by
  rw [kinds, tokensOf, List.map_map]
  exact List.map_id _

/-- The number one. -/
def one : Expression := .literal (.integer 1) nowhere

/-- One, plus one as many times as are given. -/
def onesAdded : Nat → Expression
  | 0 => one
  | count + 1 => .binary .add (onesAdded count) one nowhere

theorem height_onesAdded (count : Nat) : (onesAdded count).height = count + 1 := by
  induction count with
  | zero => rfl
  | succ count ih =>
    rw [Expression.height] at ih ⊢
    rw [onesAdded, Expression.heightBy, ih]
    exact max_eq_left (Nat.succ_le_succ (Nat.le_add_left 1 count))

/-- Sums are grouped to the left, so no parentheses are needed. -/
theorem not_grouped_onesAdded (count : Nat) :
    decide ((onesAdded count).level < BinaryOperator.add.level) = false := by
  cases count <;> rfl

theorem nesting_onesAdded (count : Nat) : (onesAdded count).nesting = 0 := by
  induction count with
  | zero => rfl
  | succ count ih =>
    rw [onesAdded, Expression.nesting, ih, not_grouped_onesAdded]
    rfl

theorem written_onesAdded (count : Nat) :
    (onesAdded (count + 1)).written = (onesAdded count).written ++ [.symbol .plus, .integer 1] := by
  rw [onesAdded, Expression.written, not_grouped_onesAdded]
  rfl

theorem isWritable_onesAdded (count : Nat) :
    ∀ kind ∈ (onesAdded count).written, kind.IsWritable := by
  have isNumber : (TokenKind.integer 1).IsWritable := ⟨by decide, by decide⟩
  induction count with
  | zero => exact List.forall_mem_singleton.mpr isNumber
  | succ count ih =>
    rw [written_onesAdded]
    refine List.forall_mem_append.mpr ⟨ih, ?_⟩
    exact List.forall_mem_cons.mpr ⟨trivial, List.forall_mem_singleton.mpr isNumber⟩

/-- **The height has no bound.** Sums are read whatever the number of their terms is. -/
theorem height_unbounded :
    ¬ ∃ bound, ∀ text tokens expression, tokenize text = .ok tokens →
      parse tokens = .ok expression → expression.height ≤ bound := by
  rintro ⟨bound, bounded⟩
  have cut := tokenize_intercalate (isWritable_onesAdded bound)
  obtain ⟨tokens, isCut, isWritten⟩ := exists_of_map_eq_ok cut
  have shallow : (onesAdded bound).nesting + 1 ≤ maxDepth := by
    rw [nesting_onesAdded]
    decide
  obtain ⟨read, done, same⟩ := exists_parseWithin shallow isWritten
  have tall : read.height = bound + 1 := (heightBy_of_bare same 1).trans (height_onesAdded bound)
  have low := bounded _ tokens read isCut done
  omega

/-- One, negated as many times as are given. -/
def oneNegated : Nat → Expression
  | 0 => one
  | count + 1 => .unary .negate (oneNegated count) nowhere

theorem inwardHeight_oneNegated (count : Nat) : (oneNegated count).inwardHeight = count + 1 := by
  induction count with
  | zero => rfl
  | succ count ih =>
    rw [Expression.inwardHeight] at ih ⊢
    rw [oneNegated, Expression.heightBy, ih]

theorem not_grouped_oneNegated (count : Nat) : decide ((oneNegated count).level < 7) = false := by
  cases count <;> rfl

theorem nesting_oneNegated (count : Nat) : (oneNegated count).nesting = count := by
  induction count with
  | zero => rfl
  | succ count ih =>
    rw [oneNegated, Expression.nesting, ih, not_grouped_oneNegated]
    rfl

/-! ## What readers give -/

/-- What is given, if anything is, has the property. -/
def Gives {β : Type} (property : β → Prop) (outcome : Except ParseFault β) : Prop :=
  ∀ value, outcome = .ok value → property value

section Gives

variable {α β : Type} {property : β → Prop}

theorem Gives.ok {value : β} (has : property value) : Gives property (.ok value) := by
  rintro _ ⟨⟩
  exact has

theorem Gives.error {fault : ParseFault} : Gives property (.error fault) := by
  rintro _ ⟨⟩

theorem Gives.mono {weaker : β → Prop} {outcome : Except ParseFault β}
    (gives : Gives property outcome) (weaken : ∀ value, property value → weaker value) :
    Gives weaker outcome :=
  fun value done => weaken value (gives value done)

theorem Gives.bind {first : Except ParseFault α} {next : α → Except ParseFault β}
    {between : α → Prop} (gives : Gives between first)
    (further : ∀ value, between value → Gives property (next value)) :
    Gives property (first >>= next) := by
  intro value done
  obtain ⟨middle, isFirst, isNext⟩ := exists_of_bind_eq_ok done
  exact further middle (gives middle isFirst) value isNext

/-- Nothing has to be known of what is read first. -/
theorem Gives.after {first : Except ParseFault α} {next : α → Except ParseFault β}
    (further : ∀ value, Gives property (next value)) : Gives property (first >>= next) := by
  have anything : Gives (fun _ => True) first := fun _ _ => trivial
  exact anything.bind fun value _ => further value

end Gives

/-- The expression that is read is no higher than the bound. -/
def Low (bound : Nat) (result : Expression × List Token) : Prop :=
  result.1.inwardHeight ≤ bound

/-- All items that are read are no higher than the bound. -/
def AllLow (bound : Nat) (items : List Expression) : Prop :=
  ∀ item ∈ items, item.inwardHeight ≤ bound

/-- The step leads from low expressions to low ones. -/
def StepsLow (bound : Nat)
    (step : Expression → List Token → Except ParseFault (Option (Expression × List Token))) :
    Prop :=
  ∀ value tokens, value.inwardHeight ≤ bound →
    Gives (fun result => ∀ longer ∈ result, Low bound longer) (step value tokens)

theorem StepsLow.extend {bound : Nat}
    {step : Expression → List Token → Except ParseFault (Option (Expression × List Token))}
    (steps : StepsLow bound step) {value : Expression} {tokens : List Token}
    (low : value.inwardHeight ≤ bound) : Gives (Low bound) (Surface.extend step value tokens) := by
  intro result done
  fun_induction Surface.extend step value tokens with
  | case1 value tokens fault failed => cases done
  | case2 value tokens stopped =>
    cases done
    exact low
  | case3 value tokens longer rest stepped shorter ih =>
    exact ih (steps value tokens low _ stepped _ rfl) done
  | case4 value tokens longer rest stepped long =>
    cases done
    exact steps value tokens low _ stepped _ rfl

section Lists

variable {bound : Nat} {item : Parse Expression} (low : ∀ tokens, Gives (Low bound) (item tokens))

include low

theorem allLow_commaSeparated (tokens : List Token) :
    Gives (fun result => AllLow bound result.1) (commaSeparated item tokens) := by
  intro result done
  fun_induction commaSeparated item tokens generalizing result with
  | case1 tokens fault failed => cases done
  | case2 tokens first behind read alone =>
    cases done
    exact List.forall_mem_singleton.mpr (low tokens _ read)
  | case3 tokens first behind read others comma shorter ih =>
    obtain ⟨⟨items, rest⟩, readOthers, same⟩ := exists_of_map_eq_ok done
    cases same
    exact List.forall_mem_cons.mpr ⟨low tokens _ read, ih _ readOthers⟩
  | case4 tokens first behind read others comma long =>
    cases done
    exact List.forall_mem_singleton.mpr (low tokens _ read)

theorem heightByAll_enclosed (close : Symbol) (tokens : List Token) :
    Gives (fun result => heightByAll 0 result.1.1 ≤ bound) (enclosed item close tokens) := by
  unfold enclosed
  split
  next => exact .ok (Nat.zero_le _)
  next =>
    refine (allLow_commaSeparated low tokens).bind ?_
    rintro ⟨items, behind⟩ allLow
    exact .after fun closed => .ok (heightByAll_le allLow)

end Lists

/-! ## One level -/

/-- The parsers of a level give nothing higher than the bound. -/
structure Deeper.Bounded (bound : Nat) (deeper : Deeper) : Prop where
  expression : ∀ tokens, Gives (Low bound) (deeper.expression tokens)
  operand : ∀ tokens, Gives (Low bound) (deeper.operand tokens)

namespace Deeper.Bounded

variable {bound : Nat} {deeper : Deeper} (bounded : deeper.Bounded bound)

include bounded

theorem creation (start : Span) (tokens : List Token) :
    Gives (Low (bound + 1)) (creation deeper start tokens) := by
  refine .after ?_
  rintro ⟨type, rest⟩
  dsimp only
  split
  next behind bracket =>
    refine .after fun right => .after fun brace => ?_
    refine (heightByAll_enclosed bounded.expression .rightBrace _).bind ?_
    rintro ⟨⟨items, close⟩, rest⟩ low
    exact .ok (Nat.succ_le_succ low)
  next =>
    refine .after fun opening => ?_
    refine (heightByAll_enclosed bounded.expression .rightParen _).bind ?_
    rintro ⟨⟨arguments, close⟩, rest⟩ low
    exact .ok (Nat.succ_le_succ low)

theorem primary (tokens : List Token) : Gives (Low (bound + 1)) (primary deeper tokens) := by
  have single : 1 ≤ bound + 1 := Nat.le_add_left 1 bound
  unfold Surface.primary
  dsimp only
  split
  case h_8 =>
    refine (bounded.expression (advance tokens)).bind ?_
    rintro ⟨inner, rest⟩ low
    refine .after fun close => .ok ?_
    rw [Low, Expression.inwardHeight, Expression.heightBy_withSpan]
    exact Nat.le_succ_of_le low
  case h_9 => exact bounded.creation _ (advance tokens)
  case h_10 => exact .after fun opening => .after fun type => .after fun close => .ok single
  case h_11 => exact .error
  case h_12 => exact .error
  all_goals exact .ok single

theorem postfixStep : StepsLow (bound + 1) (postfixStep deeper) := by
  intro target tokens low
  unfold Surface.postfixStep
  split
  next behind isDot =>
    refine .after ?_
    rintro ⟨⟨name, span⟩, rest⟩
    dsimp only
    split
    next inner isOpening =>
      refine (heightByAll_enclosed bounded.expression .rightParen inner).bind ?_
      rintro ⟨⟨arguments, close⟩, rest⟩ lowArguments
      refine .ok ?_
      rintro _ ⟨⟩
      exact max_le low (Nat.succ_le_succ lowArguments)
    next =>
      refine .ok ?_
      rintro _ ⟨⟩
      exact low
  next =>
    split
    next inner isOpening =>
      refine (heightByAll_enclosed bounded.expression .rightBracket inner).bind ?_
      rintro ⟨⟨arguments, close⟩, rest⟩ lowArguments
      refine .ok ?_
      rintro _ ⟨⟩
      exact max_le low (Nat.succ_le_succ lowArguments)
    next => exact .ok (by simp)

theorem postfixExpression (tokens : List Token) :
    Gives (Low (bound + 1)) (postfixExpression deeper tokens) := by
  refine (bounded.primary tokens).bind ?_
  rintro ⟨target, rest⟩ low
  exact bounded.postfixStep.extend low

theorem unaryExpression (tokens : List Token) :
    Gives (Low (bound + 1)) (unaryExpression deeper tokens) := by
  unfold Surface.unaryExpression
  dsimp only
  split
  next => exact bounded.postfixExpression tokens
  next operator isOperator =>
    refine (bounded.operand (advance tokens)).bind ?_
    rintro ⟨operand, rest⟩ low
    exact .ok (Nat.succ_le_succ low)

omit bounded in
theorem binaryStep {minimum : Nat}
    (tighter : ∀ higher, 7 - higher < 7 - minimum → ∀ tokens,
      Gives (Low (bound + 1 + (7 - higher))) (binaryExpression deeper higher tokens)) :
    StepsLow (bound + 1 + (7 - minimum)) (binaryStep deeper minimum) := by
  intro left tokens low
  have test (make : TypeName → Expression)
      (same : ∀ type, (make type).inwardHeight = left.inwardHeight) :
      Gives (fun result => ∀ longer ∈ result, Low (bound + 1 + (7 - minimum)) longer)
        (if minimum ≤ typeTestPrecedence then do
          let name ← typeName (advance tokens)
          return some (make name.1, name.2)
        else .ok none) := by
    split
    · refine .after ?_
      rintro ⟨type, rest⟩
      refine .ok ?_
      rintro _ ⟨⟩
      exact (same type).trans_le low
    · exact .ok (by simp)
  unfold Surface.binaryStep
  split
  next => exact test (fun type => .typeIs left type (left.span.cover type.span)) fun _ => rfl
  next => exact test (fun type => .typeAs left type (left.span.cover type.span)) fun _ => rfl
  next =>
    split
    next => exact .ok (by simp)
    next operator isOperator =>
      split
      next tight =>
        have most := operator.precedence_le
        refine (tighter (operator.precedence + 1) (by omega) (advance tokens)).bind ?_
        rintro ⟨right, rest⟩ lowRight
        refine .ok ?_
        rintro _ ⟨⟩
        have less : right.inwardHeight + 1 ≤ bound + 1 + (7 - minimum) := by
          have lowRight : right.inwardHeight ≤ _ := lowRight
          omega
        exact max_le low less
      next => exact .ok (by simp)

/-- The right operand of an operator is read with a higher minimum, and no operator binds
tighter than 6. -/
theorem binaryExpression (minimum : Nat) (tokens : List Token) :
    Gives (Low (bound + 1 + (7 - minimum))) (binaryExpression deeper minimum tokens) := by
  induction room : 7 - minimum using Nat.strongRecOn generalizing minimum tokens with
  | ind room ih =>
    subst room
    rw [Surface.binaryExpression]
    refine (bounded.unaryExpression tokens).bind ?_
    rintro ⟨first, rest⟩ low
    refine (binaryStep ?_).extend (Nat.le_add_right_of_le low)
    intro higher above tokens
    exact ih _ above higher tokens rfl

theorem conditionalExpression (tokens : List Token) :
    Gives (Low (bound + 8)) (conditionalExpression deeper tokens) := by
  refine (bounded.binaryExpression 1 tokens).bind ?_
  rintro ⟨test, rest⟩ lowTest
  have lowTest : test.inwardHeight ≤ bound + 7 := lowTest
  dsimp only
  split
  next => exact .ok (Nat.le_succ_of_le lowTest)
  next behind isQuestion =>
    refine (bounded.expression behind).bind ?_
    rintro ⟨ifTrue, rest⟩ lowTrue
    refine .after fun colon => ?_
    refine (bounded.expression _).bind ?_
    rintro ⟨ifFalse, rest⟩ lowFalse
    have branches : max ifTrue.inwardHeight ifFalse.inwardHeight ≤ bound := max_le lowTrue lowFalse
    exact .ok (Nat.succ_le_succ (max_le lowTest (Nat.le_add_right_of_le branches)))

theorem assignmentExpression (tokens : List Token) :
    Gives (Low (bound + 9)) (assignmentExpression deeper tokens) := by
  refine (bounded.conditionalExpression tokens).bind ?_
  rintro ⟨target, rest⟩ lowTarget
  dsimp only
  split
  next => exact .ok (Nat.le_succ_of_le lowTarget)
  next behind isEqual =>
    refine (bounded.expression behind).bind ?_
    rintro ⟨value, rest⟩ lowValue
    exact .ok (Nat.succ_le_succ (max_le lowTarget (Nat.le_add_right_of_le lowValue)))

end Deeper.Bounded

/-! ## All levels -/

/-- Between two levels there are seven readers of operators, one of conditionals and one of
assignments. -/
theorem bounded_levels (depth : Nat) : (levels depth).Bounded (9 * depth) := by
  induction depth with
  | zero => exact ⟨fun _ => .error, fun _ => .error⟩
  | succ depth ih =>
    refine ⟨ih.assignmentExpression, fun tokens => (ih.unaryExpression tokens).mono ?_⟩
    rintro ⟨operand, rest⟩ low
    exact le_trans low (by omega)

theorem inwardHeight_of_parseWithin (depth : Nat) (tokens : List Token) :
    Gives (fun expression => expression.inwardHeight ≤ 9 * depth) (parseWithin depth tokens) := by
  refine ((bounded_levels depth).expression (withEnd tokens)).bind ?_
  rintro ⟨expression, rest⟩ low
  dsimp only
  split
  · exact .ok low
  · exact .error

/-- **Up to the links to the front, the height is bounded.** The bound depends on the number of
levels only. What would be higher is too deep. -/
theorem inwardHeight_bounded (tokens : List Token) (expression : Expression) :
    (parse tokens = .ok expression → expression.inwardHeight ≤ 9 * maxDepth) ∧
      (unlimited tokens = .ok expression → 9 * maxDepth < expression.inwardHeight →
        ∃ span, parse tokens = .error (.tooDeep span)) := by
  have low := inwardHeight_of_parseWithin maxDepth tokens expression
  refine ⟨low, fun read high => ?_⟩
  rw [parse_tooDeep_iff]
  by_contra none
  have allowed : ∀ level ∈ openedLevels tokens, level.number ≤ maxDepth := by
    intro level isOpened
    exact Nat.not_lt.mp fun beyond => none ⟨level, isOpened, beyond⟩
  have same : parse tokens = unlimited tokens :=
    (parseWithin_eq_guarded maxDepth tokens).trans (guarded_of_le allowed)
  exact absurd (low (same.trans read)) (Nat.not_le.mpr high)

/-- One is low, and one that is negated 1,152 times is too high. -/
theorem inwardHeight_bounded_negations :
    (∃ read, parse (tokensOf one) = .ok read ∧ read.inwardHeight ≤ 9 * maxDepth) ∧
      ∃ read span, unlimited (tokensOf (oneNegated 1152)) = .ok read ∧
        9 * maxDepth < read.inwardHeight ∧
          parse (tokensOf (oneNegated 1152)) = .error (.tooDeep span) := by
  constructor
  · have shallow : one.nesting + 1 ≤ maxDepth := by decide
    obtain ⟨read, done, _⟩ := exists_parseWithin shallow (kinds_tokensOf one)
    exact ⟨read, done, (inwardHeight_bounded _ read).1 done⟩
  · have shallow : (oneNegated 1152).nesting + 1 ≤
        (tokensOf (oneNegated 1152)).length + 2 + 1153 := by
      rw [nesting_oneNegated]
      omega
    obtain ⟨read, done, same⟩ := exists_parseWithin shallow (kinds_tokensOf (oneNegated 1152))
    rw [parseWithin_eq_unlimited] at done
    have high : 9 * maxDepth < read.inwardHeight := by
      rw [Expression.inwardHeight, heightBy_of_bare same 0]
      exact (inwardHeight_oneNegated 1152).ge
    obtain ⟨span, refused⟩ := (inwardHeight_bounded _ read).2 done high
    exact ⟨read, span, done, high, refused⟩

end ExprImports.Surface
