import Mathlib.Logic.Basic
import ExprImports.Proofs.Surface.Reading
import ExprImports.Proofs.Texts

/-!
# Names, lists and operands are read back

An expression is readable if it is read by the readers of its own level and of all
looser ones (`Readable`). If it is readable at every depth that its nesting allows, then
so is what is written of it where a higher level is called for, with parentheses if they
are needed (`Readings.postfixForm_at`, `Readings.operandForm`, `Readings.binaryForm_at`).
Names of types are read back part by part, and arguments, indexes and elements one by
one up to the closing symbol (`typeName_of_written`, `enclosed_of_written`).
-/

set_option autoImplicit false

namespace ExprImports.Surface

/-- The rest of the tokens is shorter if at least one token was read. -/
theorem length_lt_of_kinds {tokens rest : List Token} {kind : TokenKind}
    {before after : List TokenKind} (same : kinds tokens = kind :: (before ++ after))
    (restKinds : kinds rest = after) : rest.length < tokens.length := by
  rw [← length_kinds rest, ← length_kinds tokens, same, restKinds, List.length_cons,
    List.length_append]
  omega

/-! ## Readable expressions -/

/-- The expression is read by the readers of its own level and of all looser ones. -/
structure Readable (depth : Nat) (expression : Expression) : Prop where
  postfixForm : expression.level = 8 →
    PostfixForm (levels depth) expression.written expression
  operandForm : 7 ≤ expression.level →
    OperandForm (levels depth) expression.written expression
  binaryForm : ∀ level, 1 ≤ level → level ≤ 7 → level ≤ expression.level →
    BinaryForm (levels depth) expression.written expression level
  fullForm : FullForm (levels depth) expression.written expression

section Constructors

variable {depth : Nat} {expression : Expression}

theorem Readable.of_postfixForm
    (form : PostfixForm (levels depth) expression.written expression) :
    Readable depth expression := by
  have operand := OperandForm.of_postfixForm form
  exact {
    postfixForm := fun _ => form
    operandForm := fun _ => operand
    binaryForm := fun _ _ small _ => .of_operandForm small operand
    fullForm := .of_binaryForm (Nat.le_refl 1) (.of_operandForm (by decide) operand) }

theorem Readable.of_operandForm (level : expression.level = 7)
    (form : OperandForm (levels depth) expression.written expression) :
    Readable depth expression where
  postfixForm same := by omega
  operandForm _ := form
  binaryForm _ _ small _ := .of_operandForm small form
  fullForm := .of_binaryForm (Nat.le_refl 1) (.of_operandForm (by decide) form)

theorem Readable.of_binaryForm (tight : 1 ≤ expression.level) (loose : expression.level ≤ 6)
    (form : BinaryForm (levels depth) expression.written expression expression.level) :
    Readable depth expression where
  postfixForm same := by omega
  operandForm high := by omega
  binaryForm _ _ _ below := form.mono below
  fullForm := .of_binaryForm tight form

theorem Readable.of_fullForm (level : expression.level = 0)
    (form : FullForm (levels depth) expression.written expression) :
    Readable depth expression where
  postfixForm same := by omega
  operandForm high := by omega
  binaryForm _ tight _ below := by omega
  fullForm := form

end Constructors

/-- The expression is readable wherever its nesting allows it to be read at all. -/
def Readings (expression : Expression) : Prop :=
  ∀ depth, expression.nesting ≤ depth → Readable depth expression

namespace Readings

variable {expression : Expression} {depth : Nat}

/-- Parentheses make an expression readable at the highest level. -/
theorem grouped_at {level : Nat} (readings : Readings expression) (low : expression.level < level)
    (deep : expression.nestingAt level ≤ depth) :
    PostfixForm (levels depth) (expression.writtenAt level) expression := by
  rw [Expression.nestingAt, decide_eq_true low, groupedNesting, if_pos rfl] at deep
  rw [Expression.writtenAt, decide_eq_true low]
  cases depth with
  | zero => omega
  | succ outer => exact .of_fullForm (readings outer (by omega)).fullForm

theorem readable_of_nestingAt {level : Nat} (readings : Readings expression)
    (high : ¬ expression.level < level) (deep : expression.nestingAt level ≤ depth) :
    Readable depth expression := by
  rw [Expression.nestingAt, decide_eq_false high, groupedNesting] at deep
  exact readings depth deep

theorem writtenAt_of_not_lt {level : Nat} (high : ¬ expression.level < level) :
    expression.writtenAt level = expression.written := by
  rw [Expression.writtenAt, decide_eq_false high, grouped]
  rfl

theorem postfixForm_at (readings : Readings expression)
    (deep : expression.nestingAt 8 ≤ depth) :
    PostfixForm (levels depth) (expression.writtenAt 8) expression := by
  by_cases low : expression.level < 8
  · exact readings.grouped_at low deep
  · have highest : expression.level = 8 := by
      have := expression.level_le
      omega
    rw [writtenAt_of_not_lt low]
    exact (readings.readable_of_nestingAt low deep).postfixForm highest

theorem operandForm_at (readings : Readings expression)
    (deep : expression.nestingAt 7 ≤ depth) :
    OperandForm (levels depth) (expression.writtenAt 7) expression := by
  by_cases low : expression.level < 7
  · exact .of_postfixForm (readings.grouped_at low deep)
  · rw [writtenAt_of_not_lt low]
    exact (readings.readable_of_nestingAt low deep).operandForm (Nat.not_lt.mp low)

theorem binaryForm_at {level : Nat} (readings : Readings expression) (tight : 1 ≤ level)
    (small : level ≤ 7) (deep : expression.nestingAt level ≤ depth) :
    BinaryForm (levels depth) (expression.writtenAt level) expression level := by
  by_cases low : expression.level < level
  · exact .of_operandForm small (.of_postfixForm (readings.grouped_at low deep))
  · rw [writtenAt_of_not_lt low]
    exact (readings.readable_of_nestingAt low deep).binaryForm level tight small
      (Nat.not_lt.mp low)

/-- An expression one level deeper is read as a whole. -/
theorem read_deeper (readings : Readings expression) (deep : expression.nesting + 1 ≤ depth)
    {tokens : List Token} {after : List TokenKind}
    (same : kinds tokens = expression.written ++ after) (stops : Stops 0 after) :
    ∃ read rest, IsRead expression after read rest ∧
      (levels depth).expression tokens = .ok (read, rest) := by
  cases depth with
  | zero => omega
  | succ outer => exact (readings outer (by omega)).fullForm tokens after same stops

end Readings

/-! ## Names of types -/

theorem typeNameParts_of_written (parts : List (List Char)) (type : TypeName)
    {tokens : List Token} {after : List TokenKind}
    (same : kinds tokens = writtenParts parts ++ after)
    (noDot : after.head? ≠ some (.symbol .dot)) :
    ∃ read rest, read.name.toList = type.name.toList ++ parts.flatMap ('.' :: ·) ∧
      kinds rest = after ∧ typeNameParts type tokens = (read, rest) := by
  induction parts generalizing type tokens with
  | nil =>
      refine ⟨type, tokens, by simp, same, ?_⟩
      unfold typeNameParts
      split
      · rename_i restTokens
        have isAfter : after = .symbol .dot :: _ := same.symm
        rw [isAfter] at noDot
        exact absurd rfl noDot
      · rfl
  | cons part others ih =>
      obtain ⟨⟨_, dotSpan⟩, behindDot, rfl, rfl, dotKinds⟩ := exists_of_kinds_eq_cons same
      obtain ⟨⟨_, partSpan⟩, behind, rfl, rfl, restKinds⟩ := exists_of_kinds_eq_cons dotKinds
      obtain ⟨read, rest, name, isRest, done⟩ :=
        ih ⟨type.name ++ "." ++ String.ofList part, type.span.cover partSpan⟩ restKinds
      refine ⟨read, rest, ?_, isRest, done⟩
      rw [name]
      simp

/-- The name of a type is read back. -/
theorem typeName_of_written (type : TypeName) {tokens : List Token} {after : List TokenKind}
    (same : kinds tokens = type.written ++ after)
    (noDot : after.head? ≠ some (.symbol .dot)) :
    ∃ read rest, read.bare = type.bare ∧ kinds rest = after ∧
      typeName tokens = .ok (read, rest) := by
  unfold TypeName.written at same
  split at same
  · rename_i none
    exact absurd none (Text.pieces_ne_nil _ _)
  · rename_i first others parts
    obtain ⟨token, behind, rfl, isName, restKinds⟩ := exists_of_kinds_eq_cons same
    obtain ⟨read, rest, name, isRest, done⟩ :=
      typeNameParts_of_written others ⟨String.ofList first, token.span⟩ restKinds noDot
    refine ⟨read, rest, ?_, isRest, ?_⟩
    · have whole : read.name.toList = type.name.toList := by
        rw [name, String.toList_ofList, ← Text.join_eq_flatMap, ← parts, Text.join_pieces]
      rw [TypeName.bare, TypeName.bare, String.toList_injective whole]
    · simp only [typeName, expectIdentifier_cons isName, Bind.bind, Except.bind, done]
      rfl

/-! ## Lists -/

/-- The symbols that close a list. -/
def Symbol.isClosing : Symbol → Bool
  | .rightParen | .rightBracket | .rightBrace => true
  | _ => false

theorem stops_closing {close : Symbol} (closing : close.isClosing = true)
    (after : List TokenKind) : Stops 0 (.symbol close :: after) := by
  cases close with
  | rightParen | rightBracket | rightBrace => exact stops_cons.mpr (by decide)
  | _ => cases closing

/-- No expression begins with a closing symbol. -/
theorem front_ne_of_read {depth : Nat} {close : Symbol} (closing : close.isClosing = true)
    {tokens : List Token} {result : Expression × List Token}
    (done : (levels depth).expression tokens = .ok result) :
    (front tokens).kind ≠ .symbol close := by
  intro isClose
  cases depth with
  | zero => cases done
  | succ outer =>
      have noOperator : prefixOperator? (.symbol close) = none := by
        cases close with
        | rightParen | rightBracket | rightBrace => rfl
        | _ => cases closing
      have refused (deeper : Deeper) :
          primary deeper tokens = .error (.unexpectedToken (front tokens)) := by
        cases close with
        | rightParen | rightBracket | rightBrace => simp only [primary, isClose]
        | _ => cases closing
      have failed : (levels (outer + 1)).expression tokens =
          .error (.unexpectedToken (front tokens)) := by
        simp only [levels, assignmentExpression, conditionalExpression, binaryExpression,
          unaryExpression, isClose, noOperator, postfixExpression, refused, Bind.bind,
          Except.bind]
      rw [failed] at done
      cases done

/-- Every expression of the list is readable wherever its nesting allows it. -/
def AllReadings (items : List Expression) : Prop :=
  ∀ item ∈ items, Readings item

theorem commaSeparated_of_written {depth : Nat} {close : Symbol}
    (closing : close.isClosing = true) (item : Expression) (others : List Expression)
    (readings : AllReadings (item :: others)) (deep : nestingAll (item :: others) ≤ depth)
    {tokens : List Token} {after : List TokenKind}
    (same : kinds tokens = writtenAll (item :: others) ++ .symbol close :: after) :
    ∃ read rest, bareAll read = bareAll (item :: others) ∧
      kinds rest = .symbol close :: after ∧
        commaSeparated (levels depth).expression tokens = .ok (read, rest) := by
  induction others generalizing item tokens with
  | nil =>
      rw [nestingAll_cons, Nat.max_le] at deep
      simp only [writtenAll_cons, List.isEmpty_nil, if_true, List.append_nil] at same
      obtain ⟨read, rest, isRead, done⟩ := (readings item List.mem_cons_self).read_deeper
        deep.1 same (stops_closing closing after)
      have noComma : (front rest).kind ≠ .symbol .comma := by
        rw [kind_front, isRead.rest]
        rintro ⟨⟩
        cases closing
      refine ⟨[read], rest, congrArg ([·]) isRead.bare, isRead.rest, ?_⟩
      rw [commaSeparated, done]
      simp only [eat?_eq_none noComma]
  | cons next more ih =>
      rw [nestingAll_cons, Nat.max_le] at deep
      rw [writtenAll_cons, List.isEmpty_cons, List.append_assoc] at same
      simp only [Bool.false_eq_true, if_false, List.cons_append] at same
      obtain ⟨read, behind, isRead, done⟩ := (readings item List.mem_cons_self).read_deeper
        deep.1 same (stops_cons.mpr (by decide))
      obtain ⟨comma, rest, rfl, isComma, restKinds⟩ := exists_of_kinds_eq_cons isRead.rest
      obtain ⟨readMore, final, bareMore, finalKinds, doneMore⟩ :=
        ih next (fun other inside => readings other (List.mem_cons_of_mem _ inside)) deep.2
          restKinds
      refine ⟨read :: readMore, final, ?_, finalKinds, ?_⟩
      · exact congrArg₂ (· :: ·) isRead.bare bareMore
      · have shorter : rest.length < tokens.length := by
          rw [← length_kinds rest, ← length_kinds tokens, same, restKinds]
          simp only [List.length_append, List.length_cons]
          omega
        rw [commaSeparated, done]
        simp only [eat?_cons isComma, shorter, if_true, doneMore]
        rfl

/-- What is written between two symbols is read back up to the closing one. -/
theorem enclosed_of_written {depth : Nat} {close : Symbol} (closing : close.isClosing = true)
    (items : List Expression) (readings : AllReadings items) (deep : nestingAll items ≤ depth)
    {tokens : List Token} {after : List TokenKind}
    (same : kinds tokens = writtenAll items ++ .symbol close :: after) :
    ∃ read span rest, bareAll read = bareAll items ∧ kinds rest = after ∧
      enclosed (levels depth).expression close tokens = .ok ((read, span), rest) := by
  cases items with
  | nil =>
      obtain ⟨token, rest, rfl, isClose, restKinds⟩ := exists_of_kinds_eq_cons same
      refine ⟨[], token.span, rest, rfl, restKinds, ?_⟩
      simp only [enclosed, eat?_cons isClose, front]
  | cons item others =>
      obtain ⟨read, behind, bare, behindKinds, done⟩ :=
        commaSeparated_of_written closing item others readings deep same
      obtain ⟨token, rest, rfl, isClose, restKinds⟩ := exists_of_kinds_eq_cons behindKinds
      have begun : (front tokens).kind ≠ .symbol close := by
        cases first : (levels depth).expression tokens with
        | ok result => exact front_ne_of_read closing first
        | error fault =>
            rw [commaSeparated, first] at done
            cases done
      refine ⟨read, token.span, rest, bare, restKinds, ?_⟩
      simp only [enclosed, eat?_eq_none begun, done, Bind.bind, Except.bind, expect_cons isClose]
      rfl

end ExprImports.Surface
