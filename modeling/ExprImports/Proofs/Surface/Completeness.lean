import ExprImports.Proofs.Surface.Readable

/-!
# Every expression is read back from what is written of it

Each form of expression is readable if its parts are, at the level at which it is
written. A chain of accesses, and a chain of binary operators and type tests, is read
one step at a time: the part in front has been read when the reader arrives at the step,
and what the step reads ends where the next one begins.

**Completeness.** If the levels that lie within each other are no more than may be open
at once, the tokens of an expression are read as that expression, up to places
(`parse_written`).
-/

set_option autoImplicit false

namespace ExprImports.Surface

variable {depth : Nat} {span : Span}

/-! ## Literals, identifiers and types as values -/

theorem readings_literal (value : Constant) : Readings (.literal value span) := by
  intro depth _
  refine .of_postfixForm (.of_primary ?_)
  intro tokens after same
  obtain ⟨token, rest, rfl, isLiteral, restKinds⟩ := exists_of_kinds_eq_cons same
  have inside : token.kind ≠ .endOfText := by
    rw [isLiteral]
    rcases value with _ | (_ | _) | _ | _ | _ <;> rintro ⟨⟩
  refine ⟨.literal value token.span, rest, ⟨rfl, restKinds⟩, ?_⟩
  rcases value with _ | (_ | _) | _ | _ | _ <;>
    simp only [primary, front, isLiteral, Constant.written, advance_cons inside]

theorem readings_identifier (name : String) : Readings (.identifier name span) := by
  intro depth _
  refine .of_postfixForm (.of_primary ?_)
  intro tokens after same
  obtain ⟨token, rest, rfl, isName, restKinds⟩ := exists_of_kinds_eq_cons same
  have inside : token.kind ≠ .endOfText := by simp [isName]
  refine ⟨.identifier name token.span, rest, ⟨rfl, restKinds⟩, ?_⟩
  simp only [primary, front, isName, advance_cons inside]

theorem readings_typeOf (type : TypeName) : Readings (.typeOf type span) := by
  intro depth _
  refine .of_postfixForm (.of_primary ?_)
  intro tokens after same
  simp only [Expression.written_typeOf, List.cons_append, List.append_assoc,
    List.nil_append] at same
  obtain ⟨token, opened, rfl, isTypeOf, openedKinds⟩ := exists_of_kinds_eq_cons same
  obtain ⟨opening, named, rfl, isOpening, namedKinds⟩ := exists_of_kinds_eq_cons openedKinds
  obtain ⟨read, behind, bare, behindKinds, done⟩ :=
    typeName_of_written type namedKinds (by simp)
  obtain ⟨close, rest, rfl, isClose, restKinds⟩ := exists_of_kinds_eq_cons behindKinds
  refine ⟨.typeOf read (token.span.cover close.span), rest, ⟨?_, restKinds⟩, ?_⟩
  · exact congrArg (Expression.typeOf · nowhere) bare
  · have inside : token.kind ≠ .endOfText := by simp [isTypeOf]
    simp only [primary, front, isTypeOf, advance_cons inside, expect_cons isOpening, done,
      expect_cons isClose, Bind.bind, Except.bind]
    rfl

/-! ## Creations -/

theorem readings_create (type : TypeName) (arguments : List Expression)
    (readings : AllReadings arguments) : Readings (.create type arguments span) := by
  intro depth deep
  refine .of_postfixForm (.of_primary ?_)
  intro tokens after same
  simp only [Expression.written_create, List.cons_append, List.append_assoc,
    List.nil_append] at same
  obtain ⟨token, tokens, rfl, isNew, namedKinds⟩ := exists_of_kinds_eq_cons same
  obtain ⟨read, behind, bare, behindKinds, named⟩ :=
    typeName_of_written type namedKinds (by simp)
  obtain ⟨opening, listed, rfl, isOpening, listedKinds⟩ := exists_of_kinds_eq_cons behindKinds
  obtain ⟨readAll, close, rest, bareArguments, restKinds, done⟩ :=
    enclosed_of_written rfl arguments readings deep listedKinds
  refine ⟨.create read readAll (token.span.cover close), rest, ⟨?_, restKinds⟩, ?_⟩
  · exact congrArg₂ (Expression.create · · nowhere) bare bareArguments
  · have inside : token.kind ≠ .endOfText := by simp [isNew]
    have noBracket : (front (opening :: listed)).kind ≠ .symbol .leftBracket := by
      simp [front, isOpening]
    simp only [primary, front, isNew, advance_cons inside, creation, named,
      eat?_eq_none noBracket, expect_cons isOpening, done, Bind.bind, Except.bind]
    rfl

theorem readings_createArray (element : TypeName) (items : List Expression)
    (readings : AllReadings items) : Readings (.createArray element items span) := by
  intro depth deep
  refine .of_postfixForm (.of_primary ?_)
  intro tokens after same
  simp only [Expression.written_createArray, List.cons_append, List.append_assoc,
    List.nil_append] at same
  obtain ⟨token, tokens, rfl, isNew, namedKinds⟩ := exists_of_kinds_eq_cons same
  obtain ⟨read, behind, bare, behindKinds, named⟩ :=
    typeName_of_written element namedKinds (by simp)
  obtain ⟨left, behind, rfl, isLeft, behindKinds⟩ := exists_of_kinds_eq_cons behindKinds
  obtain ⟨right, behind, rfl, isRight, behindKinds⟩ := exists_of_kinds_eq_cons behindKinds
  obtain ⟨opening, listed, rfl, isOpening, listedKinds⟩ := exists_of_kinds_eq_cons behindKinds
  obtain ⟨readAll, close, rest, bareItems, restKinds, done⟩ :=
    enclosed_of_written rfl items readings deep listedKinds
  refine ⟨.createArray read readAll (token.span.cover close), rest, ⟨?_, restKinds⟩, ?_⟩
  · exact congrArg₂ (Expression.createArray · · nowhere) bare bareItems
  · have inside : token.kind ≠ .endOfText := by simp [isNew]
    simp only [primary, front, isNew, advance_cons inside, creation, named, eat?_cons isLeft,
      expect_cons isRight, expect_cons isOpening, done, Bind.bind, Except.bind]
    rfl

/-! ## Member accesses, calls and indexes -/

/-- What is written behind a target extends it by one step. -/
theorem PostfixForm.step {target longer : Expression} {level : Nat} {behind : List TokenKind}
    {kind : TokenKind} (reaches : kind.reach ≤ 8)
    (form : PostfixForm (levels depth) (target.writtenAt level) target)
    (isWritten : longer.written = target.writtenAt level ++ kind :: behind)
    (step : ∀ read tokens after, read.bare = target.bare →
      kinds tokens = kind :: (behind ++ after) → Stops 8 after →
        ∃ extended rest, IsRead longer after extended rest ∧
          postfixStep (levels depth) read tokens = .ok (some (extended, rest))) :
    Readable depth longer := by
  refine .of_postfixForm ?_
  intro tokens after same stops
  rw [isWritten, List.append_assoc] at same
  obtain ⟨read, further, isRead, arrived⟩ := form tokens _ same (stops_cons.mpr reaches)
  obtain ⟨extended, rest, isExtended, done⟩ := step read further after isRead.bare isRead.rest stops
  have shorter := length_lt_of_kinds isRead.rest isExtended.rest
  exact ⟨extended, rest, isExtended, arrived.trans (extend_of_some done shorter)⟩

theorem readings_member {target : Expression} (name : String) (readings : Readings target) :
    Readings (.member target name span) := by
  intro depth deep
  refine (readings.postfixForm_at deep).step (by decide) rfl ?_
  intro read tokens after bare same stops
  simp only [List.cons_append, List.nil_append] at same
  obtain ⟨dot, named, rfl, isDot, namedKinds⟩ := exists_of_kinds_eq_cons same
  obtain ⟨token, rest, rfl, isName, restKinds⟩ := exists_of_kinds_eq_cons namedKinds
  have noParen : (front rest).kind ≠ .symbol .leftParen := by
    intro isParen
    rw [kind_front, restKinds] at isParen
    rw [Stops, isParen] at stops
    exact absurd stops (by decide)
  refine ⟨.member read name (read.span.cover token.span), rest, ⟨?_, restKinds⟩, ?_⟩
  · exact congrArg (Expression.member · name nowhere) bare
  · simp only [postfixStep, eat?_cons isDot, expectIdentifier_cons isName, eat?_eq_none noParen,
      Bind.bind, Except.bind]
    rfl

theorem readings_methodCall {target : Expression} (name : String) {arguments : List Expression}
    (readings : Readings target) (readingsAll : AllReadings arguments) :
    Readings (.methodCall target name arguments span) := by
  intro depth deep
  obtain ⟨deepTarget, deepArguments⟩ := Nat.max_le.mp deep
  refine (readings.postfixForm_at deepTarget).step (by decide) rfl ?_
  intro read tokens after bare same _
  simp only [List.cons_append, List.append_assoc, List.nil_append] at same
  obtain ⟨dot, named, rfl, isDot, namedKinds⟩ := exists_of_kinds_eq_cons same
  obtain ⟨token, opened, rfl, isName, openedKinds⟩ := exists_of_kinds_eq_cons namedKinds
  obtain ⟨opening, listed, rfl, isOpening, listedKinds⟩ := exists_of_kinds_eq_cons openedKinds
  obtain ⟨readAll, close, rest, bareArguments, restKinds, done⟩ :=
    enclosed_of_written rfl arguments readingsAll deepArguments listedKinds
  refine ⟨.methodCall read name readAll (read.span.cover close), rest, ⟨?_, restKinds⟩, ?_⟩
  · exact congrArg₂ (Expression.methodCall · name · nowhere) bare bareArguments
  · simp only [postfixStep, eat?_cons isDot, expectIdentifier_cons isName, eat?_cons isOpening,
      done, Bind.bind, Except.bind]
    rfl

theorem readings_index {target : Expression} {arguments : List Expression}
    (readings : Readings target) (readingsAll : AllReadings arguments) :
    Readings (.index target arguments span) := by
  intro depth deep
  obtain ⟨deepTarget, deepArguments⟩ := Nat.max_le.mp deep
  refine (readings.postfixForm_at deepTarget).step (by decide) rfl ?_
  intro read tokens after bare same _
  simp only [List.append_assoc, List.cons_append, List.nil_append] at same
  obtain ⟨opening, listed, rfl, isOpening, listedKinds⟩ := exists_of_kinds_eq_cons same
  obtain ⟨readAll, close, rest, bareArguments, restKinds, done⟩ :=
    enclosed_of_written rfl arguments readingsAll deepArguments listedKinds
  have noDot : (front (opening :: listed)).kind ≠ .symbol .dot := by
    simp [front, isOpening]
  refine ⟨.index read readAll (read.span.cover close), rest, ⟨?_, restKinds⟩, ?_⟩
  · exact congrArg₂ (Expression.index · · nowhere) bare bareArguments
  · simp only [postfixStep, eat?_eq_none noDot, eat?_cons isOpening, done, Bind.bind, Except.bind]
    rfl

/-! ## Prefix operators -/

theorem readings_unary {operand : Expression} (operator : UnaryOperator)
    (readings : Readings operand) : Readings (.unary operator operand span) := by
  intro depth deep
  cases depth with
  | zero => exact absurd deep (Nat.not_succ_le_zero _)
  | succ outer =>
      refine .of_operandForm rfl ?_
      intro tokens after same stops
      obtain ⟨token, inner, rfl, isSign, innerKinds⟩ := exists_of_kinds_eq_cons same
      obtain ⟨read, rest, isRead, done⟩ :=
        readings.operandForm_at (Nat.le_of_succ_le_succ deep) inner after innerKinds stops
      refine ⟨.unary operator read (token.span.cover read.span), rest, ⟨?_, isRead.rest⟩, ?_⟩
      · exact congrArg (Expression.unary operator · nowhere) isRead.bare
      · have isOperator := prefixOperator?_eq_some_iff.mpr isSign
        have inside : token.kind ≠ .endOfText := by simp [isSign]
        have deeperDone : (levels (outer + 1)).operand inner = .ok (read, rest) := done
        simp only [unaryExpression, front, isOperator, advance_cons inside, deeperDone, Bind.bind,
          Except.bind]
        rfl

/-! ## Binary operators and type tests -/

/-- What is written behind a left operand extends it by one step. -/
theorem BinaryForm.step {left longer : Expression} {level : Nat} {behind : List TokenKind}
    {kind : TokenKind} (tight : 1 ≤ level) (loose : level ≤ 6) (reaches : kind.reach ≤ level)
    (form : BinaryForm (levels depth) (left.writtenAt level) left level)
    (isLevel : longer.level = level)
    (isWritten : longer.written = left.writtenAt level ++ kind :: behind)
    (step : ∀ minimum ≤ level, ∀ read tokens after, read.bare = left.bare →
      kinds tokens = kind :: (behind ++ after) → Stops level after →
        ∃ extended rest, IsRead longer after extended rest ∧
          binaryStep (levels depth) minimum read tokens = .ok (some (extended, rest))) :
    Readable depth longer := by
  subst isLevel
  refine .of_binaryForm tight loose ?_
  intro minimum small tokens after same stops
  rw [isWritten, List.append_assoc] at same
  obtain ⟨read, further, isRead, arrived⟩ :=
    form minimum small tokens _ same (stops_cons.mpr reaches)
  obtain ⟨extended, rest, isExtended, done⟩ :=
    step minimum small read further after isRead.bare isRead.rest stops
  have shorter := length_lt_of_kinds isRead.rest isExtended.rest
  exact ⟨extended, rest, isExtended, arrived.trans (extend_of_some done shorter)⟩

theorem reach_sign (operator : BinaryOperator) :
    (TokenKind.symbol operator.sign).reach = operator.level := by
  cases operator <;> rfl

theorem readings_binary {left right : Expression} (operator : BinaryOperator)
    (readingsLeft : Readings left) (readingsRight : Readings right) :
    Readings (.binary operator left right span) := by
  intro depth deep
  obtain ⟨deepLeft, deepRight⟩ := Nat.max_le.mp deep
  have low : operator.level ≤ 6 := operator.level_le
  have leftForm := readingsLeft.binaryForm_at operator.level_pos (by omega) deepLeft
  have rightForm := readingsRight.binaryForm_at (Nat.succ_pos _) (by omega) deepRight
  have reaches := Nat.le_of_eq (reach_sign operator)
  refine leftForm.step operator.level_pos low reaches rfl rfl ?_
  intro minimum small read tokens after bare same stops
  obtain ⟨token, behind, rfl, isSign, behindKinds⟩ := exists_of_kinds_eq_cons same
  have looser : (after.head?.getD .endOfText).tightness < operator.level + 1 :=
    Nat.lt_succ_of_le (Nat.le_trans (tightness_le_reach _) stops)
  obtain ⟨readRight, rest, isRead, done⟩ :=
    rightForm.read (Nat.le_refl _) behindKinds (stops.mono (Nat.le_succ _)) looser
  refine ⟨.binary operator read readRight (read.span.cover readRight.span), rest,
    ⟨?_, isRead.rest⟩, ?_⟩
  · exact congrArg₂ (Expression.binary operator · · nowhere) bare isRead.bare
  · have isOperator : binaryOperator? (.symbol operator.sign) = some operator :=
      binaryOperator?_eq_some_iff.mpr rfl
    have inside : token.kind ≠ .endOfText := by simp [isSign]
    have enough : minimum ≤ operator.precedence := by
      rw [precedence_eq_level]
      exact small
    rw [← precedence_eq_level] at done
    simp only [binaryStep, front, isSign, isOperator, enough, if_true, advance_cons inside, done,
      Bind.bind, Except.bind]
    rfl

/-- A type test is read behind its operand, whichever of the two it is. -/
theorem readings_typeTest {operand longer : Expression} (type : TypeName) (keyword : Keyword)
    (build : Expression → TypeName → Expression) (readings : Readings operand)
    (reaches : (TokenKind.keyword keyword).reach = 4) (isLevel : longer.level = 4)
    (isNesting : longer.nesting = operand.nestingAt 4)
    (isWritten : longer.written = operand.writtenAt 4 ++ .keyword keyword :: type.written)
    (rebuilt : ∀ read tested, read.bare = operand.bare → tested.bare = type.bare →
      (build read tested).bare = longer.bare)
    (tests : ∀ (deeper : Deeper) (minimum : Nat) (read : Expression) (token : Token)
      (behind : List Token) (tested : TypeName) (rest : List Token), minimum ≤ 4 →
        token.kind = .keyword keyword → typeName behind = .ok (tested, rest) →
          binaryStep deeper minimum read (token :: behind) =
            .ok (some (build read tested, rest))) : Readings longer := by
  intro depth deep
  rw [isNesting] at deep
  have form := readings.binaryForm_at (by decide) (by decide) deep
  refine form.step (by decide) (by decide) (Nat.le_of_eq reaches) isLevel isWritten ?_
  intro minimum small read tokens after bare same stops
  obtain ⟨token, behind, rfl, isTest, behindKinds⟩ := exists_of_kinds_eq_cons same
  obtain ⟨tested, rest, bareType, restKinds, done⟩ :=
    typeName_of_written type behindKinds (stops.head?_ne (by decide))
  refine ⟨build read tested, rest, ⟨rebuilt read tested bare bareType, restKinds⟩, ?_⟩
  exact tests (levels depth) minimum read token behind tested rest small isTest done

theorem readings_typeIs {operand : Expression} (type : TypeName) (readings : Readings operand) :
    Readings (.typeIs operand type span) := by
  refine readings_typeTest type .is
    (fun read tested => .typeIs read tested (read.span.cover tested.span)) readings rfl rfl rfl
    rfl ?_ ?_
  · intro read tested bare bareType
    exact congrArg₂ (Expression.typeIs · · nowhere) bare bareType
  · intro deeper minimum read token behind tested rest small isTest done
    have inside : token.kind ≠ .endOfText := by simp [isTest]
    have enough : minimum ≤ typeTestPrecedence := small
    simp only [binaryStep, front, isTest, enough, if_true, advance_cons inside, done, Bind.bind,
      Except.bind]
    rfl

theorem readings_typeAs {operand : Expression} (type : TypeName) (readings : Readings operand) :
    Readings (.typeAs operand type span) := by
  refine readings_typeTest type .as
    (fun read tested => .typeAs read tested (read.span.cover tested.span)) readings rfl rfl rfl
    rfl ?_ ?_
  · intro read tested bare bareType
    exact congrArg₂ (Expression.typeAs · · nowhere) bare bareType
  · intro deeper minimum read token behind tested rest small isTest done
    have inside : token.kind ≠ .endOfText := by simp [isTest]
    have enough : minimum ≤ typeTestPrecedence := small
    simp only [binaryStep, front, isTest, enough, if_true, advance_cons inside, done, Bind.bind,
      Except.bind]
    rfl

/-! ## Conditionals and assignments -/

theorem readings_conditional {test ifTrue ifFalse : Expression} (readingsTest : Readings test)
    (readingsTrue : Readings ifTrue) (readingsFalse : Readings ifFalse) :
    Readings (.conditional test ifTrue ifFalse span) := by
  intro depth deep
  obtain ⟨deepTest, deepBranches⟩ := Nat.max_le.mp deep
  obtain ⟨deepTrue, deepFalse⟩ := Nat.max_le.mp deepBranches
  refine .of_fullForm rfl ?_
  intro tokens after same stops
  simp only [Expression.written_conditional, List.append_assoc, List.cons_append] at same
  have testForm := readingsTest.binaryForm_at (Nat.le_refl 1) (by decide) deepTest
  obtain ⟨readTest, further, isTest, testDone⟩ :=
    testForm.read (Nat.le_refl 1) same (stops_cons.mpr (by decide)) Nat.zero_lt_one
  obtain ⟨question, behind, rfl, isQuestion, behindKinds⟩ := exists_of_kinds_eq_cons isTest.rest
  obtain ⟨readTrue, further, isTrue, trueDone⟩ :=
    readingsTrue.read_deeper deepTrue behindKinds (stops_cons.mpr (by decide))
  obtain ⟨colon, last, rfl, isColon, lastKinds⟩ := exists_of_kinds_eq_cons isTrue.rest
  obtain ⟨readFalse, rest, isFalse, falseDone⟩ :=
    readingsFalse.read_deeper deepFalse lastKinds stops
  refine ⟨.conditional readTest readTrue readFalse (readTest.span.cover readFalse.span), rest,
    ⟨?_, isFalse.rest⟩, ?_⟩
  · have branches :=
      congrArg₂ (Expression.conditional readTest.bare · · nowhere) isTrue.bare isFalse.bare
    exact branches.trans (congrArg (Expression.conditional · _ _ nowhere) isTest.bare)
  · have noEqual := front_ne_of_stops .equal stops isFalse.rest (by decide)
    refine assignmentExpression_of_conditional ?_ noEqual
    simp only [conditionalExpression, testDone, eat?_cons isQuestion, trueDone,
      expect_cons isColon, falseDone, Bind.bind, Except.bind]
    rfl

theorem readings_assign {target value : Expression} (readingsTarget : Readings target)
    (readingsValue : Readings value) : Readings (.assign target value span) := by
  intro depth deep
  obtain ⟨deepTarget, deepValue⟩ := Nat.max_le.mp deep
  refine .of_fullForm rfl ?_
  intro tokens after same stops
  simp only [Expression.written_assign, List.append_assoc, List.cons_append] at same
  have targetForm := readingsTarget.binaryForm_at (Nat.le_refl 1) (by decide) deepTarget
  obtain ⟨readTarget, further, isTarget, targetDone⟩ :=
    targetForm.read (Nat.le_refl 1) same (stops_cons.mpr (by decide)) Nat.zero_lt_one
  obtain ⟨equal, behind, rfl, isEqual, behindKinds⟩ := exists_of_kinds_eq_cons isTarget.rest
  obtain ⟨readValue, rest, isValue, valueDone⟩ :=
    readingsValue.read_deeper deepValue behindKinds stops
  refine ⟨.assign readTarget readValue (readTarget.span.cover readValue.span), rest,
    ⟨?_, isValue.rest⟩, ?_⟩
  · exact congrArg₂ (Expression.assign · · nowhere) isTarget.bare isValue.bare
  · have noQuestion : (front (equal :: behind)).kind ≠ .symbol .question := by
      simp [front, isEqual]
    have conditional := conditionalExpression_of_binary targetDone noQuestion
    simp only [assignmentExpression, conditional, eat?_cons isEqual, valueDone, Bind.bind,
      Except.bind]
    rfl

/-! ## All expressions -/

mutual

theorem readings (expression : Expression) : Readings expression := by
  cases expression with
  | literal value span => exact readings_literal value
  | identifier name span => exact readings_identifier name
  | member target name span => exact readings_member name (readings target)
  | methodCall target name arguments span =>
      exact readings_methodCall name (readings target) (allReadings arguments)
  | index target arguments span => exact readings_index (readings target) (allReadings arguments)
  | create type arguments span => exact readings_create type arguments (allReadings arguments)
  | createArray element items span => exact readings_createArray element items (allReadings items)
  | typeOf type span => exact readings_typeOf type
  | typeIs operand type span => exact readings_typeIs type (readings operand)
  | typeAs operand type span => exact readings_typeAs type (readings operand)
  | unary operator operand span => exact readings_unary operator (readings operand)
  | binary operator left right span =>
      exact readings_binary operator (readings left) (readings right)
  | conditional test ifTrue ifFalse span =>
      exact readings_conditional (readings test) (readings ifTrue) (readings ifFalse)
  | assign target value span => exact readings_assign (readings target) (readings value)

theorem allReadings (items : List Expression) : AllReadings items := by
  cases items with
  | nil => exact fun _ inside => absurd inside List.not_mem_nil
  | cons item others =>
      have first := readings item
      have more := allReadings others
      intro other inside
      rcases List.mem_cons.mp inside with rfl | inside
      · exact first
      · exact more other inside

end

theorem kinds_withEnd (tokens : List Token) :
    kinds (withEnd tokens) = kinds tokens ++ [.endOfText] := by
  simp only [kinds, withEnd, List.map_append, List.map_cons, List.map_nil]

/-- **Completeness of parsing.** The tokens of an expression, with or without the end of
the text behind them, are read as that expression up to places, provided that the levels
that lie within each other, the whole expression included, may all be open at once. -/
theorem parse_written (expression : Expression) (shallow : expression.nesting + 1 ≤ maxDepth)
    (tokens : List Token)
    (same : kinds tokens = expression.written ∨
      kinds tokens = expression.written ++ [.endOfText]) :
    ∃ read, parse tokens = .ok read ∧ read.bare = expression.bare := by
  obtain ⟨after, withEndKinds⟩ : ∃ after,
      kinds (withEnd tokens) = expression.written ++ .endOfText :: after := by
    rw [kinds_withEnd]
    rcases same with exactly | ended
    · exact ⟨[], by rw [exactly]⟩
    · exact ⟨[.endOfText], by rw [ended, List.append_assoc]; rfl⟩
  obtain ⟨read, rest, isRead, done⟩ :=
    (readings expression).read_deeper shallow withEndKinds (stops_cons.mpr (by decide))
  refine ⟨read, ?_, isRead.bare⟩
  have ended : (front rest).isEnd = true := by
    rw [Token.isEnd, kind_front, isRead.rest]
    rfl
  simp only [parse, parseWithin, done, Bind.bind, Except.bind, ended, if_true]
  rfl

/-! ## A written expression -/

/-- The expression `-count * (left + right) is System.Int32 == flag ? items[0, x = y] :
new Box(1).Size`, whose test needs one pair of parentheses. -/
def sampleExpression : Expression :=
  let named (name : String) : Expression := .identifier name nowhere
  let number (value : Int) : Expression := .literal (.integer value) nowhere
  let sum : Expression := .binary .add (named "left") (named "right") nowhere
  let product : Expression :=
    .binary .multiply (.unary .negate (named "count") nowhere) sum nowhere
  let test : Expression := .typeIs product ⟨"System.Int32", nowhere⟩ nowhere
  let box : Expression := .create ⟨"Box", nowhere⟩ [number 1] nowhere
  .conditional (.binary .equal test (named "flag") nowhere)
    (.index (named "items") [number 0, .assign (named "x") (named "y") nowhere] nowhere)
    (.member box "Size" nowhere) nowhere

/-- The tokens of the expression. -/
def sampleKinds : List TokenKind :=
  [ .symbol .minus, .identifier "count", .symbol .star, .symbol .leftParen, .identifier "left",
    .symbol .plus, .identifier "right", .symbol .rightParen, .keyword .is, .identifier "System",
    .symbol .dot, .identifier "Int32", .symbol .equalEqual, .identifier "flag", .symbol .question,
    .identifier "items", .symbol .leftBracket, .integer 0, .symbol .comma, .identifier "x",
    .symbol .equal, .identifier "y", .symbol .rightBracket, .symbol .colon, .keyword .new,
    .identifier "Box", .symbol .leftParen, .integer 1, .symbol .rightParen, .symbol .dot,
    .identifier "Size" ]

theorem parse_sampleKinds :
    sampleExpression.nesting + 1 ≤ maxDepth ∧ sampleExpression.written = sampleKinds ∧
      ∃ read, parse (sampleKinds.map (⟨·, nowhere⟩)) = .ok read ∧
        read.bare = sampleExpression.bare := by
  have shallow : sampleExpression.nesting + 1 ≤ maxDepth := by decide
  have written : sampleExpression.written = sampleKinds := by decide +kernel
  refine ⟨shallow, written, parse_written sampleExpression shallow _ (.inl ?_)⟩
  rw [written]
  rfl

end ExprImports.Surface
