import ExprImports.Proofs.Surface.Views
import Mathlib.Data.List.Basic

/-!
# The end behind the tokens

Tokens need not close with the end of the text: behind the last one an empty end is seen where that
token stops. An end that is given instead may have any place.

**An end makes no difference.** Tokens without an end and the same tokens with one behind them are
read as the same expression, or have the same fault. Only a fault at the end is at the place of the
end that is seen (`parse_concat_end`).

**The cursor.** The parser of tokens gives what the parser with a cursor gives, and that cursor
never passes the first end (`start_parseWithin`). Both statements come from the same agreement, of a
cursor over tokens with a list that has an end of its own behind the text
(`View.agrees_parseWithin`): for the cursor the two ends are the same one, for an end that is given
they are not.
-/

set_option autoImplicit false

namespace ExprImports.Surface

namespace View

variable {view : View}

/-! ## One level -/

/-- The moving parsers of a level read what the other ones read. -/
structure DeeperMatches (view : View) (moving : Moving.Deeper) (plain : Deeper) : Prop where
  expression : view.Matches moving.expression plain.expression
  operand : view.Matches moving.operand plain.operand

namespace DeeperMatches

variable {moving : Moving.Deeper} {plain : Deeper} (deeper : view.DeeperMatches moving plain)

include deeper

theorem creation (start : Span) :
    view.Matches (Moving.creation view.tokens moving start) (Surface.creation plain start) := by
  intro cursor holds
  refine (matches_typeName cursor holds).bind ?_
  rintro type later _ kept rfl
  refine Agrees.eat kept ?_ ?_
  · intro behind kept bracket
    dsimp only
    rw [bracket]
    refine (matches_expect .rightBracket behind kept).bind ?_
    rintro right later _ kept rfl
    refine (matches_expect .leftBrace later kept).bind ?_
    rintro brace later _ kept rfl
    refine (deeper.expression.enclosed .rightBrace later kept).bind ?_
    rintro ⟨items, close⟩ later _ kept rfl
    exact .ok kept rfl
  · intro missed
    dsimp only
    rw [missed]
    refine (matches_expect .leftParen later kept).bind ?_
    rintro parenthesis later _ kept rfl
    refine (deeper.expression.enclosed .rightParen later kept).bind ?_
    rintro ⟨arguments, close⟩ later _ kept rfl
    exact .ok kept rfl

theorem primary : view.Matches (Moving.primary view.tokens moving) (Surface.primary plain) := by
  intro cursor holds
  unfold Moving.primary
  cases view.stands holds.1 with
  | token token isToken inside further shows lists =>
    have passed := holds.moved further
    rw [Moving.start_next_of_ne _ (shows ▸ inside), shows, lists]
    unfold Surface.primary
    rw [advance_cons inside]
    dsimp only [front]
    cases isKind : token.kind with
    | integer | floating | text | identifier => exact .ok passed rfl
    | endOfText => exact absurd isKind inside
    | keyword word =>
      cases word
      case new => exact deeper.creation token.span _ passed
      case typeOf =>
        refine (matches_expect .leftParen _ passed).bind ?_
        rintro parenthesis later _ kept rfl
        refine (matches_typeName later kept).bind ?_
        rintro type later _ kept rfl
        refine (matches_expect .rightParen later kept).bind ?_
        rintro close later _ kept rfl
        exact .ok kept rfl
      case is => exact .error passed (.token isToken rfl)
      case as => exact .error passed (.token isToken rfl)
      all_goals exact .ok passed rfl
    | symbol symbol =>
      cases symbol
      case leftParen =>
        refine (deeper.expression _ passed).bind ?_
        rintro inner later _ kept rfl
        refine (matches_expect .rightParen later kept).bind ?_
        rintro close later _ kept rfl
        exact .ok kept rfl
      all_goals exact .error passed (.token isToken rfl)
  | ends shows lists =>
    rw [Moving.start_next_of_eq _ (by rw [shows]), shows, lists]
    exact .error holds .unexpectedEnd

theorem postfixStep :
    view.StepMatches (Moving.postfixStep view.tokens moving) (Surface.postfixStep plain) := by
  intro target cursor holds
  unfold Moving.postfixStep Surface.postfixStep
  refine Agrees.eat holds ?_ ?_
  · intro behind kept isDot
    rw [isDot]
    refine (matches_expectIdentifier behind kept).bind ?_
    rintro ⟨name, span⟩ later _ kept rfl
    refine Agrees.eat kept ?_ ?_
    · intro inside kept isOpening
      dsimp only
      rw [isOpening]
      refine (deeper.expression.enclosed .rightParen inside kept).bind ?_
      rintro ⟨arguments, close⟩ later _ kept rfl
      exact .ok kept .more
    · intro missed
      dsimp only
      rw [missed]
      exact .ok kept .more
  · intro missed
    rw [missed]
    refine Agrees.eat holds ?_ ?_
    · intro inside kept isOpening
      dsimp only
      rw [isOpening]
      refine (deeper.expression.enclosed .rightBracket inside kept).bind ?_
      rintro ⟨arguments, close⟩ later _ kept rfl
      exact .ok kept .more
    · intro missed
      dsimp only
      rw [missed]
      exact .ok holds .stop

theorem postfixExpression :
    view.Matches (Moving.postfixExpression view.tokens moving)
      (Surface.postfixExpression plain) := by
  intro cursor holds
  refine (deeper.primary cursor holds).bind ?_
  rintro target later _ kept rfl
  exact deeper.postfixStep.extend target kept

theorem unaryExpression :
    view.Matches (Moving.unaryExpression view.tokens moving) (Surface.unaryExpression plain) := by
  intro cursor holds
  unfold Moving.unaryExpression Surface.unaryExpression
  rw [Moving.start_peek, view.kind_tokenAt holds.1]
  dsimp only
  cases isPrefix : prefixOperator? (front (view.rest cursor.place)).kind with
  | none => exact deeper.postfixExpression cursor holds
  | some operator =>
    have sign := prefixOperator?_eq_some_iff.mp isPrefix
    refine Agrees.next holds (by simp [sign]) ?_
    intro kept behind
    rw [behind]
    refine (deeper.operand _ kept).bind ?_
    rintro operand later _ kept rfl
    exact .ok kept rfl

omit deeper in
theorem typeTest {cursor : Cursor} (holds : view.Holds cursor)
    (inside : (front (view.rest cursor.place)).kind ≠ .endOfText) (minimum : Nat)
    (make : TypeName → Expression) :
    view.Agrees (view.Steps cursor) (Moving.start (Moving.typeTest view.tokens minimum make) cursor)
      (if minimum ≤ typeTestPrecedence then do
        let name ← typeName (advance (view.rest cursor.place))
        return some (make name.1, name.2)
      else .ok none) := by
  unfold Moving.typeTest
  split
  · refine Agrees.next holds inside ?_
    intro kept behind
    rw [behind]
    refine (matches_typeName _ kept).bind ?_
    rintro type later _ kept rfl
    exact .ok kept .more
  · exact .ok holds .stop

omit deeper in
theorem binaryStep {minimum : Nat}
    {behind : (operator : BinaryOperator) → minimum ≤ operator.precedence → Moving Expression}
    (ih : ∀ operator tight,
      view.Matches (behind operator tight)
        (Surface.binaryExpression plain (operator.precedence + 1))) :
    view.StepMatches (Moving.binaryStep view.tokens minimum behind)
      (Surface.binaryStep plain minimum) := by
  intro left cursor holds
  unfold Moving.binaryStep Surface.binaryStep
  rw [Moving.start_peek, view.kind_tokenAt holds.1]
  cases isKind : (front (view.rest cursor.place)).kind with
  | integer | floating | text | identifier | endOfText => exact .ok holds .stop
  | keyword word =>
    cases word
    case is => exact typeTest holds (by simp [isKind]) minimum _
    case as => exact typeTest holds (by simp [isKind]) minimum _
    all_goals exact .ok holds .stop
  | symbol symbol =>
    dsimp only
    cases binaryOperator? (.symbol symbol) with
    | none => exact .ok holds .stop
    | some operator =>
      dsimp only
      split
      · refine Agrees.next holds (by simp [isKind]) ?_
        intro kept behind
        rw [behind]
        refine (ih operator _ _ kept).bind ?_
        rintro right later _ kept rfl
        exact .ok kept .more
      · exact .ok holds .stop

/-- The right operand of an operator is read with a higher minimum, and no operator binds tighter
than 6. -/
theorem binaryExpression (minimum : Nat) :
    view.Matches (Moving.binaryExpression view.tokens moving minimum)
      (Surface.binaryExpression plain minimum) := by
  induction room : 7 - minimum using Nat.strongRecOn generalizing minimum with
  | ind room ih =>
    intro cursor holds
    rw [Moving.binaryExpression, Surface.binaryExpression]
    refine (deeper.unaryExpression cursor holds).bind ?_
    rintro first later _ kept rfl
    refine (binaryStep ?_).extend first kept
    intro operator tight
    have bound := operator.precedence_le
    exact ih _ (by omega) (operator.precedence + 1) rfl

theorem conditionalExpression :
    view.Matches (Moving.conditionalExpression view.tokens moving)
      (Surface.conditionalExpression plain) := by
  intro cursor holds
  refine (deeper.binaryExpression 1 cursor holds).bind ?_
  rintro test later _ kept rfl
  refine Agrees.eat kept ?_ ?_
  · intro behind kept isQuestion
    dsimp only
    rw [isQuestion]
    refine (deeper.expression behind kept).bind ?_
    rintro ifTrue later _ kept rfl
    refine (matches_expect .colon later kept).bind ?_
    rintro colon later _ kept rfl
    refine (deeper.expression later kept).bind ?_
    rintro ifFalse later _ kept rfl
    exact .ok kept rfl
  · intro missed
    dsimp only
    rw [missed]
    exact .ok kept rfl

theorem assignmentExpression :
    view.Matches (Moving.assignmentExpression view.tokens moving)
      (Surface.assignmentExpression plain) := by
  intro cursor holds
  refine (deeper.conditionalExpression cursor holds).bind ?_
  rintro target later _ kept rfl
  refine Agrees.eat kept ?_ ?_
  · intro behind kept isEqual
    dsimp only
    rw [isEqual]
    refine (deeper.expression behind kept).bind ?_
    rintro value later _ kept rfl
    exact .ok kept rfl
  · intro missed
    dsimp only
    rw [missed]
    exact .ok kept rfl

end DeeperMatches

/-! ## All levels -/

theorem matches_tooDeep : view.Matches (Moving.tooDeep view.tokens) tooDeep := by
  intro cursor holds
  unfold Moving.tooDeep tooDeep
  rw [Moving.start_peek]
  cases view.stands holds.1 with
  | token token isToken inside further shows lists =>
    rw [shows, lists]
    exact .error holds (.token isToken rfl)
  | ends shows lists =>
    rw [shows, lists]
    exact .error holds .tooDeep

theorem deeperMatches_levels (depth : Nat) :
    view.DeeperMatches (Moving.levels view.tokens depth) (levels depth) := by
  induction depth with
  | zero => exact ⟨matches_tooDeep, matches_tooDeep⟩
  | succ depth ih => exact ⟨ih.assignmentExpression, ih.unaryExpression⟩

/-- An expression is given, and nothing is left. -/
def Gives (value : Expression) (_ : Cursor) (result : Expression) : Prop :=
  result = value

variable (view) in
/-- The parsers agree on all tokens if what is given to the one is listed by the view. -/
theorem agrees_parseWithin (depth : Nat) (given : List Token)
    (lists : withEnd given = view.rest 0) :
    view.Agrees Gives (Moving.start (Moving.parseWithin view.tokens depth) {})
      (parseWithin depth given) := by
  unfold Moving.parseWithin parseWithin
  rw [lists]
  have holds : view.Holds {} := ⟨Nat.zero_le _, Nat.zero_le _⟩
  refine ((deeperMatches_levels depth).expression {} holds).bind ?_
  rintro expression later _ kept rfl
  dsimp only
  rw [Moving.start_peek]
  cases view.stands kept.1 with
  | token token isToken inside further shows lists =>
    have noEnd : ¬ token.isEnd = true := by simpa [Token.isEnd] using inside
    have sameFront : front (view.rest later.place) = token := by
      rw [lists]
      rfl
    rw [shows, sameFront, if_neg noEnd, if_neg noEnd]
    exact .error kept (.token isToken rfl)
  | ends shows lists =>
    rw [shows, lists]
    exact .ok kept rfl

theorem Agrees.sameOutcome {run : Except ParseFault Expression × Cursor}
    {plain : Except ParseFault Expression} (agrees : view.Agrees Gives run plain) :
    SameOutcome view.text view.shown view.listed run.1 plain := by
  cases agrees with
  | ok holds same =>
    cases same
    exact .ok _
  | error holds same => exact .error same

theorem Agrees.holds {run : Except ParseFault Expression × Cursor}
    {plain : Except ParseFault Expression} (agrees : view.Agrees Gives run plain) :
    view.Holds run.2 := by
  cases agrees with
  | ok holds same => exact holds
  | error holds same => exact holds

end View

/-! ## Any tokens -/

/-- Behind the tokens before the end an end is found, and it is listed there as well. -/
theorem exists_withEnd_eq (tokens : List Token) :
    ∃ stop further, tokenAt tokens (beforeEnd tokens).length = ⟨.endOfText, stop⟩ ∧
      withEnd tokens = beforeEnd tokens ++ ⟨.endOfText, stop⟩ :: further := by
  have split : beforeEnd tokens ++ tokens.dropWhile (fun token => !token.isEnd) = tokens :=
    List.takeWhile_append_dropWhile
  have isFirst := List.head?_dropWhile_not (fun token : Token => !token.isEnd) tokens
  cases behind : tokens.dropWhile fun token => !token.isEnd with
  | nil =>
    rw [behind, List.append_nil] at split
    refine ⟨⟨lastStop tokens, 0⟩, [], ?_, ?_⟩
    · rw [split, tokenAt, List.getElem?_length, Option.getD_none]
    · rw [split]
      rfl
  | cons token further =>
    rw [behind] at split isFirst
    obtain ⟨kind, stop⟩ := token
    obtain rfl : kind = .endOfText := by simpa [Token.isEnd] using isFirst
    refine ⟨stop, further ++ [⟨.endOfText, ⟨lastStop tokens, 0⟩⟩], ?_, ?_⟩
    · have found : (beforeEnd tokens ++ ⟨.endOfText, stop⟩ :: further)[(beforeEnd tokens).length]? =
          some ⟨.endOfText, stop⟩ := by
        rw [List.getElem?_append_right le_rfl, Nat.sub_self, List.getElem?_cons_zero]
      rw [split] at found
      rw [tokenAt, found, Option.getD_some]
    · rw [← List.cons_append, ← List.append_assoc, split]
      rfl

/-- The cursor is over the tokens, and those before their end are listed with an end anywhere. -/
def View.before (tokens : List Token) (listed : Span) (further : List Token) : View where
  tokens := tokens
  text := beforeEnd tokens
  shown := (tokenAt tokens (beforeEnd tokens).length).span
  listed := listed
  further := further
  inside := fun token isToken => by
    simpa [Token.isEnd] using List.mem_takeWhile_imp isToken
  begins := List.takeWhile_prefix _
  ends := by
    obtain ⟨stop, further, found, lists⟩ := exists_withEnd_eq tokens
    rw [found]

/-- **The cursor never passes the end.** Whatever comes of the tokens, it was at no place behind the
first end, and the parser with the cursor gives what the parser of tokens gives. -/
theorem start_parseWithin (depth : Nat) (tokens : List Token) :
    ∃ cursor, (Moving.parseWithin tokens depth).start {} = (parseWithin depth tokens, cursor) ∧
      cursor.place ≤ (beforeEnd tokens).length ∧ cursor.furthest ≤ (beforeEnd tokens).length := by
  obtain ⟨stop, further, found, lists⟩ := exists_withEnd_eq tokens
  have agrees := (View.before tokens stop further).agrees_parseWithin depth tokens lists
  have shown : (View.before tokens stop further).shown = stop := congrArg Token.span found
  have same := agrees.sameOutcome
  rw [shown] at same
  exact ⟨_, Prod.ext same.eq rfl, agrees.holds⟩

theorem beforeEnd_eq_self {tokens : List Token} (inside : Inside tokens) :
    beforeEnd tokens = tokens := by
  refine List.takeWhile_eq_self_iff.mpr fun token isToken => ?_
  simpa [Token.isEnd] using inside token isToken

theorem sameOutcome_parseWithin_concat (depth : Nat) {tokens : List Token} (inside : Inside tokens)
    (stop : Span) :
    SameOutcome tokens ⟨lastStop tokens, 0⟩ stop (parseWithin depth tokens)
      (parseWithin depth (tokens ++ [⟨.endOfText, stop⟩])) := by
  have before : beforeEnd tokens = tokens := beforeEnd_eq_self inside
  have missing : tokenAt tokens tokens.length = ⟨.endOfText, ⟨lastStop tokens, 0⟩⟩ := by
    rw [tokenAt, List.getElem?_length, Option.getD_none]
  obtain ⟨further, lists⟩ : ∃ further,
      withEnd (tokens ++ [⟨.endOfText, stop⟩]) = tokens ++ ⟨.endOfText, stop⟩ :: further :=
    ⟨_, List.append_assoc _ _ _⟩
  have agrees := (View.before tokens stop further).agrees_parseWithin depth _
    (lists.trans (congrArg (· ++ _) before.symm))
  obtain ⟨cursor, ran, -⟩ := start_parseWithin depth tokens
  have same := agrees.sameOutcome
  have isText : (View.before tokens stop further).text = tokens := before
  have isShown : (View.before tokens stop further).shown = ⟨lastStop tokens, 0⟩ := by
    change (tokenAt tokens (beforeEnd tokens).length).span = _
    rw [before, missing]
  have isOutcome : (Moving.start (Moving.parseWithin tokens depth) {}).1 =
      parseWithin depth tokens :=
    congrArg Prod.fst ran
  rw [isText, isShown] at same
  exact isOutcome ▸ same

/-- **An end behind the tokens makes no difference.** Tokens without an end are read as the same
expression with an end behind them and without it, or have the same fault. It is at a token of
theirs, or at the end: at the place of the one that is given, and at an empty place where the last
token stops if none is given. The cursor never passes the end of either. -/
theorem parse_concat_end {tokens : List Token} (inside : Inside tokens) (stop : Span) :
    SameOutcome tokens ⟨lastStop tokens, 0⟩ stop (parse tokens)
        (parse (tokens ++ [⟨.endOfText, stop⟩])) ∧
      ∀ given ∈ [tokens, tokens ++ [⟨.endOfText, stop⟩]],
        ∃ cursor, (Moving.parse given).start {} = (parse given, cursor) ∧
          cursor.place ≤ tokens.length ∧ cursor.furthest ≤ tokens.length := by
  have never (given : List Token) (same : beforeEnd given = tokens) :
      ∃ cursor, (Moving.parse given).start {} = (parse given, cursor) ∧
        cursor.place ≤ tokens.length ∧ cursor.furthest ≤ tokens.length :=
    same ▸ start_parseWithin maxDepth given
  refine ⟨sameOutcome_parseWithin_concat maxDepth inside stop, ?_⟩
  simp only [List.mem_cons, List.not_mem_nil, or_false]
  rintro given (rfl | rfl)
  · exact never given (beforeEnd_eq_self inside)
  · exact never _ (beforeEnd_append_end inside rfl)

/-- The tokens of a call that breaks off behind a dot of its argument. -/
def brokenCall : List Token :=
  [ ⟨.identifier "a", ⟨0, 1⟩⟩, ⟨.symbol .dot, ⟨1, 1⟩⟩, ⟨.identifier "f", ⟨2, 1⟩⟩,
    ⟨.symbol .leftParen, ⟨3, 1⟩⟩, ⟨.identifier "b", ⟨4, 1⟩⟩, ⟨.symbol .dot, ⟨5, 1⟩⟩ ]

theorem parse_brokenCall : Inside brokenCall ∧
    parse brokenCall = .error (.unexpectedEnd ⟨6, 0⟩) ∧
      parse (brokenCall ++ [⟨.endOfText, ⟨9, 0⟩⟩]) = .error (.unexpectedEnd ⟨9, 0⟩) ∧
        SameOutcome brokenCall ⟨lastStop brokenCall, 0⟩ ⟨9, 0⟩ (parse brokenCall)
          (parse (brokenCall ++ [⟨.endOfText, ⟨9, 0⟩⟩])) ∧
        ∀ given ∈ [brokenCall, brokenCall ++ [⟨.endOfText, ⟨9, 0⟩⟩]],
          ∃ cursor, (Moving.parse given).start {} = (parse given, cursor) ∧
            cursor.place ≤ brokenCall.length ∧ cursor.furthest ≤ brokenCall.length := by
  have inside : Inside brokenCall := by
    simp [Inside, brokenCall]
  exact ⟨inside, by with_unfolding_all rfl, by with_unfolding_all rfl,
    parse_concat_end inside ⟨9, 0⟩⟩

end ExprImports.Surface
