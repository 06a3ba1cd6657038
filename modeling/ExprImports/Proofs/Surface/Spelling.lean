import ExprImports.Proofs.Surface.Printing

/-!
# Which tokens spell an expression

A segment of tokens spells an expression (`Expression.SpelledBy`) when its names, literals,
operators and delimiters, read in order, are exactly the segment, with any number of
parentheses around each part. The relation says nothing about how tightly operators
bind; it says that no token is skipped, invented or moved.

**Places.** The stretch of an expression goes from the beginning of the first token of its
segment to the end of the last one (`Fits`), the parentheses directly around it included.
Where tokens come in order, the stretches of the parts of an expression lie inside its own
stretch, one behind the other (`Part.SpelledBy.placed`).
-/

set_option autoImplicit false

namespace ExprImports

namespace Span

/-- One stretch ends before another one begins. -/
def Before (earlier later : Span) : Prop :=
  earlier.stop ≤ later.offset

instance (earlier later : Span) : Decidable (earlier.Before later) :=
  inferInstanceAs (Decidable (_ ≤ _))

/-- One stretch lies inside another one. -/
structure Within (inner outer : Span) : Prop where
  start : outer.offset ≤ inner.offset
  stop : inner.stop ≤ outer.stop

theorem offset_le_stop (span : Span) : span.offset ≤ span.stop :=
  Nat.le_add_right _ _

theorem stop_cover {first last : Span} (start : first.offset ≤ last.offset)
    (stop : first.stop ≤ last.stop) : (first.cover last).stop = last.stop := by
  have whole : first.offset ≤ last.stop := Nat.le_trans start last.offset_le_stop
  simp only [cover, Nat.min_eq_left start, Nat.max_eq_right stop]
  exact Nat.add_sub_cancel' whole

end Span

namespace Surface

/-! ## Tokens in order -/

/-- Every token ends before those behind it begin. -/
def InOrder (tokens : List Token) : Prop :=
  tokens.Pairwise fun earlier later => earlier.span.Before later.span

instance (tokens : List Token) : Decidable (InOrder tokens) :=
  inferInstanceAs (Decidable (List.Pairwise _ _))

/-- The stretch goes from the beginning of the first token to the end of the last one. -/
structure Fits (span : Span) (segment : List Token) : Prop where
  start : segment.head?.map (·.span.offset) = some span.offset
  stop : segment.getLast?.map (·.span.stop) = some span.stop

section Places

variable {segment tokens : List Token}

theorem InOrder.sublist (ordered : InOrder tokens) (inner : segment.Sublist tokens) :
    InOrder segment :=
  List.Pairwise.sublist inner ordered

theorem InOrder.head_offset_le {first token : Token} (ordered : InOrder tokens)
    (isFirst : tokens.head? = some first) (inside : token ∈ tokens) :
    first.span.offset ≤ token.span.offset := by
  obtain ⟨rest, rfl⟩ := List.head?_eq_some_iff.mp isFirst
  rcases List.mem_cons.mp inside with rfl | behind
  · exact Nat.le_refl _
  · have before : first.span.Before token.span := List.rel_of_pairwise_cons ordered behind
    exact Nat.le_trans first.span.offset_le_stop before

theorem InOrder.stop_le_last {last token : Token} (ordered : InOrder tokens)
    (isLast : tokens.getLast? = some last) (inside : token ∈ tokens) :
    token.span.stop ≤ last.span.stop := by
  obtain ⟨front, rfl⟩ := List.getLast?_eq_some_iff.mp isLast
  rcases List.mem_append.mp inside with inFront | isToken
  · have before : token.span.Before last.span :=
      (List.pairwise_append.mp ordered).2.2 token inFront last (List.mem_singleton_self _)
    exact Nat.le_trans before last.span.offset_le_stop
  · exact Nat.le_of_eq (congrArg (·.span.stop) (List.mem_singleton.mp isToken))

variable {span first last inner outer : Span}

theorem Fits.exists_first (fits : Fits span segment) :
    ∃ token, segment.head? = some token ∧ token ∈ segment ∧ token.span.offset = span.offset := by
  obtain ⟨token, isFirst, offset⟩ := Option.map_eq_some_iff.mp fits.start
  exact ⟨token, isFirst, List.mem_of_head? isFirst, offset⟩

theorem Fits.exists_last (fits : Fits span segment) :
    ∃ token, segment.getLast? = some token ∧ token ∈ segment ∧ token.span.stop = span.stop := by
  obtain ⟨token, isLast, stop⟩ := Option.map_eq_some_iff.mp fits.stop
  exact ⟨token, isLast, List.mem_of_getLast? isLast, stop⟩

theorem fits_single (token : Token) : Fits token.span [token] := ⟨rfl, rfl⟩

/-- The stretches of the first and of the last segment cover the stretch of all tokens. -/
theorem Fits.cover {front back : List Token} (fitsFirst : Fits first front)
    (fitsLast : Fits last back) (isFront : front <+: tokens) (isBack : back <:+ tokens)
    (ordered : InOrder tokens) : Fits (first.cover last) tokens := by
  obtain ⟨start, isStart, _, startOffset⟩ := fitsFirst.exists_first
  obtain ⟨frontEnd, _, inFront, frontStop⟩ := fitsFirst.exists_last
  obtain ⟨backStart, _, inBack, backOffset⟩ := fitsLast.exists_first
  obtain ⟨stop, isStop, _, stopStop⟩ := fitsLast.exists_last
  have startOfAll : tokens.head? = some start := by
    obtain ⟨rest, rfl⟩ := isFront
    rw [List.head?_append, isStart, Option.some_or]
  have stopOfAll : tokens.getLast? = some stop := by
    obtain ⟨rest, rfl⟩ := isBack
    rw [List.getLast?_append, isStop, Option.some_or]
  have starts : first.offset ≤ last.offset := by
    rw [← startOffset, ← backOffset]
    exact ordered.head_offset_le startOfAll (isBack.subset inBack)
  have stops : first.stop ≤ last.stop := by
    rw [← frontStop, ← stopStop]
    exact ordered.stop_le_last stopOfAll (isFront.subset inFront)
  refine ⟨?_, ?_⟩
  · rw [startOfAll, Option.map_some, startOffset]
    exact congrArg some (Nat.min_eq_left starts).symm
  · rw [stopOfAll, Option.map_some, stopStop, Span.stop_cover starts stops]

theorem Fits.within (fitsInner : Fits inner segment) (fitsOuter : Fits outer tokens)
    (isSegment : segment <:+: tokens) (ordered : InOrder tokens) : inner.Within outer := by
  obtain ⟨innerStart, _, inSegment, innerOffset⟩ := fitsInner.exists_first
  obtain ⟨innerStop, _, inSegment', innerEnd⟩ := fitsInner.exists_last
  obtain ⟨outerStart, isStart, _, outerOffset⟩ := fitsOuter.exists_first
  obtain ⟨outerStop, isStop, _, outerEnd⟩ := fitsOuter.exists_last
  refine ⟨?_, ?_⟩
  · rw [← innerOffset, ← outerOffset]
    exact ordered.head_offset_le isStart (isSegment.subset inSegment)
  · rw [← innerEnd, ← outerEnd]
    exact ordered.stop_le_last isStop (isSegment.subset inSegment')

theorem Fits.before {front back : List Token} (fitsFirst : Fits first front)
    (fitsLast : Fits last back) (ordered : InOrder (front ++ back)) : first.Before last := by
  obtain ⟨stop, _, inFront, isStop⟩ := fitsFirst.exists_last
  obtain ⟨start, _, inBack, isStart⟩ := fitsLast.exists_first
  have before : stop.span.Before start.span :=
    (List.pairwise_append.mp ordered).2.2 stop inFront start inBack
  unfold Span.Before at before ⊢
  rw [← isStop, ← isStart]
  exact before

end Places

/-! ## Spellings -/

/-- The identifiers of the segment, with dots between them, are the name of the type. -/
inductive TypeName.SpelledBy : TypeName → List Token → Prop
  | single {name : String} {span : Span} : SpelledBy ⟨name, span⟩ [⟨.identifier name, span⟩]
  | dotted {type : TypeName} {segment : List Token} {part : String} {span dot word : Span} :
      type.SpelledBy segment →
      Fits span (segment ++ [⟨.symbol .dot, dot⟩, ⟨.identifier part, word⟩]) →
      SpelledBy ⟨type.name ++ "." ++ part, span⟩
        (segment ++ [⟨.symbol .dot, dot⟩, ⟨.identifier part, word⟩])

mutual

/-- The segment spells the expression, and the stretch of the expression is the whole of
the segment. -/
inductive Expression.SpelledBy : Expression → List Token → Prop
  | bare {expression : Expression} {segment : List Token} :
      expression.FormedBy segment → Fits expression.span segment → expression.SpelledBy segment
  | parenthesized {expression : Expression} {segment : List Token} {span opening close : Span} :
      expression.SpelledBy segment →
      Fits span (⟨.symbol .leftParen, opening⟩ :: (segment ++ [⟨.symbol .rightParen, close⟩])) →
      (expression.withSpan span).SpelledBy
        (⟨.symbol .leftParen, opening⟩ :: (segment ++ [⟨.symbol .rightParen, close⟩]))

/-- The segment is the expression without parentheses around the whole of it: segments that
spell its parts, with the signs and words of the form in their places. -/
inductive Expression.FormedBy : Expression → List Token → Prop
  | literal {value : Constant} {span place : Span} :
      (Expression.literal value span).FormedBy [⟨value.written, place⟩]
  | identifier {name : String} {span place : Span} :
      (Expression.identifier name span).FormedBy [⟨.identifier name, place⟩]
  | member {target : Expression} {segment : List Token} {name : String} {span dot word : Span} :
      target.SpelledBy segment →
      (Expression.member target name span).FormedBy
        (segment ++ [⟨.symbol .dot, dot⟩, ⟨.identifier name, word⟩])
  | methodCall {target : Expression} {arguments : List Expression} {segment listed : List Token}
      {name : String} {span dot word opening close : Span} :
      target.SpelledBy segment → AllSpelledBy arguments listed →
      (Expression.methodCall target name arguments span).FormedBy
        (segment ++ ⟨.symbol .dot, dot⟩ :: ⟨.identifier name, word⟩ ::
          ⟨.symbol .leftParen, opening⟩ :: (listed ++ [⟨.symbol .rightParen, close⟩]))
  | index {target : Expression} {arguments : List Expression} {segment listed : List Token}
      {span opening close : Span} :
      target.SpelledBy segment → AllSpelledBy arguments listed →
      (Expression.index target arguments span).FormedBy
        (segment ++ ⟨.symbol .leftBracket, opening⟩ ::
          (listed ++ [⟨.symbol .rightBracket, close⟩]))
  | create {type : TypeName} {arguments : List Expression} {named listed : List Token}
      {span word opening close : Span} :
      type.SpelledBy named → AllSpelledBy arguments listed →
      (Expression.create type arguments span).FormedBy
        (⟨.keyword .new, word⟩ :: (named ++ ⟨.symbol .leftParen, opening⟩ ::
          (listed ++ [⟨.symbol .rightParen, close⟩])))
  | createArray {element : TypeName} {items : List Expression} {named listed : List Token}
      {span word left right opening close : Span} :
      element.SpelledBy named → AllSpelledBy items listed →
      (Expression.createArray element items span).FormedBy
        (⟨.keyword .new, word⟩ :: (named ++ ⟨.symbol .leftBracket, left⟩ ::
          ⟨.symbol .rightBracket, right⟩ :: ⟨.symbol .leftBrace, opening⟩ ::
            (listed ++ [⟨.symbol .rightBrace, close⟩])))
  | typeOf {type : TypeName} {named : List Token} {span word opening close : Span} :
      type.SpelledBy named →
      (Expression.typeOf type span).FormedBy
        (⟨.keyword .typeOf, word⟩ :: ⟨.symbol .leftParen, opening⟩ ::
          (named ++ [⟨.symbol .rightParen, close⟩]))
  | typeIs {operand : Expression} {type : TypeName} {segment named : List Token}
      {span word : Span} :
      operand.SpelledBy segment → type.SpelledBy named →
      (Expression.typeIs operand type span).FormedBy (segment ++ ⟨.keyword .is, word⟩ :: named)
  | typeAs {operand : Expression} {type : TypeName} {segment named : List Token}
      {span word : Span} :
      operand.SpelledBy segment → type.SpelledBy named →
      (Expression.typeAs operand type span).FormedBy (segment ++ ⟨.keyword .as, word⟩ :: named)
  | unary {operator : UnaryOperator} {operand : Expression} {segment : List Token}
      {span sign : Span} :
      operand.SpelledBy segment →
      (Expression.unary operator operand span).FormedBy
        (⟨.symbol operator.sign, sign⟩ :: segment)
  | binary {operator : BinaryOperator} {left right : Expression} {first second : List Token}
      {span sign : Span} :
      left.SpelledBy first → right.SpelledBy second →
      (Expression.binary operator left right span).FormedBy
        (first ++ ⟨.symbol operator.sign, sign⟩ :: second)
  | conditional {test ifTrue ifFalse : Expression} {first second third : List Token}
      {span question colon : Span} :
      test.SpelledBy first → ifTrue.SpelledBy second → ifFalse.SpelledBy third →
      (Expression.conditional test ifTrue ifFalse span).FormedBy
        (first ++ ⟨.symbol .question, question⟩ :: (second ++ ⟨.symbol .colon, colon⟩ :: third))
  | assign {target value : Expression} {first second : List Token} {span equal : Span} :
      target.SpelledBy first → value.SpelledBy second →
      (Expression.assign target value span).FormedBy
        (first ++ ⟨.symbol .equal, equal⟩ :: second)

/-- Segments that spell the expressions, with commas between them. -/
inductive AllSpelledBy : List Expression → List Token → Prop
  | empty : AllSpelledBy [] []
  | last {expression : Expression} {segment : List Token} :
      expression.SpelledBy segment → AllSpelledBy [expression] segment
  | more {expression next : Expression} {others : List Expression} {segment listed : List Token}
      {comma : Span} :
      expression.SpelledBy segment → AllSpelledBy (next :: others) listed →
      AllSpelledBy (expression :: next :: others) (segment ++ ⟨.symbol .comma, comma⟩ :: listed)

end

theorem TypeName.SpelledBy.fits {type : TypeName} {segment : List Token}
    (spelled : type.SpelledBy segment) : Fits type.span segment := by
  cases spelled with
  | @single name span => exact fits_single ⟨.identifier name, span⟩
  | dotted _ fits => exact fits

@[simp] theorem Expression.span_withSpan (expression : Expression) (span : Span) :
    (expression.withSpan span).span = span := by
  cases expression <;> rfl

theorem Expression.SpelledBy.fits {expression : Expression} {segment : List Token}
    (spelled : expression.SpelledBy segment) : Fits expression.span segment := by
  cases spelled with
  | bare _ fits => exact fits
  | parenthesized _ fits => rwa [Expression.span_withSpan]

/-! ## No spelling contains the end of the text -/

/-- None of the tokens is the end of the text. -/
def Inside (tokens : List Token) : Prop :=
  ∀ token ∈ tokens, token.kind ≠ .endOfText

@[simp] theorem inside_nil : Inside [] := by
  simp [Inside]

@[simp] theorem inside_cons {token : Token} {tokens : List Token} :
    Inside (token :: tokens) ↔ token.kind ≠ .endOfText ∧ Inside tokens := by
  simp [Inside]

@[simp] theorem inside_append {first second : List Token} :
    Inside (first ++ second) ↔ Inside first ∧ Inside second := by
  simp only [Inside, List.forall_mem_append]

theorem TypeName.SpelledBy.inside {type : TypeName} {segment : List Token}
    (spelled : type.SpelledBy segment) : Inside segment := by
  induction spelled with
  | single => simp
  | dotted _ _ ih => simp [ih]

theorem Constant.written_ne_endOfText (value : Constant) : value.written ≠ .endOfText := by
  rcases value with _ | (_ | _) | _ | _ | _ <;> rintro ⟨⟩

mutual

theorem Expression.SpelledBy.inside {expression : Expression} {segment : List Token} :
    expression.SpelledBy segment → Inside segment
  | .bare formed _ => formed.inside
  | .parenthesized spelled _ => by simp [spelled.inside]

theorem Expression.FormedBy.inside {expression : Expression} {segment : List Token} :
    expression.FormedBy segment → Inside segment
  | .literal => by simp [Constant.written_ne_endOfText]
  | .identifier => by simp
  | .member target => by simp [target.inside]
  | .methodCall target arguments => by simp [target.inside, arguments.inside]
  | .index target arguments => by simp [target.inside, arguments.inside]
  | .create type arguments => by simp [type.inside, arguments.inside]
  | .createArray element items => by simp [element.inside, items.inside]
  | .typeOf type => by simp [type.inside]
  | .typeIs operand type => by simp [operand.inside, type.inside]
  | .typeAs operand type => by simp [operand.inside, type.inside]
  | .unary operand => by simp [operand.inside]
  | .binary left right => by simp [left.inside, right.inside]
  | .conditional test ifTrue ifFalse => by simp [test.inside, ifTrue.inside, ifFalse.inside]
  | .assign target value => by simp [target.inside, value.inside]

theorem AllSpelledBy.inside {expressions : List Expression} {segment : List Token} :
    AllSpelledBy expressions segment → Inside segment
  | .empty => inside_nil
  | .last spelled => spelled.inside
  | .more first others => by simp [first.inside, others.inside]

end

/-! ## Parts -/

/-- A part of an expression that has a place of its own. -/
inductive Part where
  | expression (expression : Expression)
  | type (type : TypeName)

/-- The expressions and type names directly below an expression, from left to right. -/
def Expression.parts : Expression → List Part
  | .literal _ _ => []
  | .identifier _ _ => []
  | .member target _ _ => [.expression target]
  | .methodCall target _ arguments _ => .expression target :: arguments.map .expression
  | .index target arguments _ => .expression target :: arguments.map .expression
  | .create type arguments _ => .type type :: arguments.map .expression
  | .createArray element items _ => .type element :: items.map .expression
  | .typeOf type _ => [.type type]
  | .typeIs operand type _ => [.expression operand, .type type]
  | .typeAs operand type _ => [.expression operand, .type type]
  | .unary _ operand _ => [.expression operand]
  | .binary _ left right _ => [.expression left, .expression right]
  | .conditional test ifTrue ifFalse _ =>
    [.expression test, .expression ifTrue, .expression ifFalse]
  | .assign target value _ => [.expression target, .expression value]

@[simp] theorem Expression.parts_withSpan (expression : Expression) (span : Span) :
    (expression.withSpan span).parts = expression.parts := by
  cases expression <;> rfl

namespace Part

/-- The stretch of the text that a part was read from. -/
def span : Part → Span
  | .expression whole => whole.span
  | .type name => name.span

/-- The segment spells the part. -/
def SpelledBy : Part → List Token → Prop
  | .expression whole, segment => whole.SpelledBy segment
  | .type name, segment => name.SpelledBy segment

/-- The parts directly below a part. -/
def parts : Part → List Part
  | .expression whole => whole.parts
  | .type _ => []

/-- The part is the other one or lies anywhere below it. -/
inductive Occurs (part : Part) : Part → Prop
  | root : Occurs part part
  | inPart {child whole : Part} : child ∈ whole.parts → Occurs part child → Occurs part whole

/-- A part that was read from a segment of the tokens: its stretch is the whole of that
segment, and the stretches of the parts below it lie inside, one behind the other. -/
structure Placed (tokens : List Token) (part : Part) : Prop where
  segment : ∃ segment, segment <:+: tokens ∧ part.SpelledBy segment ∧ Fits part.span segment
  inside : ∀ child ∈ part.parts, child.span.Within part.span
  ordered : part.parts.Pairwise fun earlier later => earlier.span.Before later.span

theorem SpelledBy.fits {part : Part} {segment : List Token} (spelled : part.SpelledBy segment) :
    Fits part.span segment := by
  cases part with
  | expression whole => exact Expression.SpelledBy.fits spelled
  | type name => exact TypeName.SpelledBy.fits spelled

end Part

/-- The parts are spelled by segments of the tokens that come one behind the other. -/
inductive LaidOut : List Part → List Token → Prop
  | nil {tokens : List Token} : LaidOut [] tokens
  | skip {parts : List Part} {token : Token} {tokens : List Token} :
      LaidOut parts tokens → LaidOut parts (token :: tokens)
  | next {part : Part} {parts : List Part} {segment tokens : List Token} :
      part.SpelledBy segment → LaidOut parts tokens → LaidOut (part :: parts) (segment ++ tokens)

namespace LaidOut

variable {parts others : List Part} {segment tokens : List Token}

theorem single {part : Part} (spelled : part.SpelledBy segment) : LaidOut [part] segment := by
  have laid : LaidOut [part] (segment ++ []) := .next spelled .nil
  rwa [List.append_nil] at laid

/-- More tokens behind the parts change nothing. -/
theorem append (laid : LaidOut parts segment) : LaidOut parts (segment ++ tokens) := by
  induction laid with
  | nil => exact .nil
  | skip _ ih => exact .skip ih
  | next spelled _ ih =>
    rw [List.append_assoc]
    exact .next spelled ih

theorem exists_segment (laid : LaidOut parts tokens) {part : Part} (inside : part ∈ parts) :
    ∃ segment, segment <:+: tokens ∧ part.SpelledBy segment := by
  induction laid with
  | nil => cases inside
  | skip _ ih =>
    obtain ⟨segment, isSegment, spelled⟩ := ih inside
    exact ⟨segment, isSegment.trans (List.suffix_cons _ _).isInfix, spelled⟩
  | next first _ ih =>
    rcases List.mem_cons.mp inside with rfl | behind
    · exact ⟨_, (List.prefix_append _ _).isInfix, first⟩
    · obtain ⟨segment, isSegment, spelled⟩ := ih behind
      exact ⟨segment, isSegment.trans (List.suffix_append _ _).isInfix, spelled⟩

/-- Parts that are laid out in ordered tokens lie one behind the other. -/
theorem ordered (laid : LaidOut parts tokens) (inOrder : InOrder tokens) :
    parts.Pairwise fun earlier later => earlier.span.Before later.span := by
  induction laid with
  | nil => exact .nil
  | skip _ ih => exact ih (inOrder.sublist (List.sublist_cons_self _ _))
  | @next part parts segment tokens first behind ih =>
    refine List.pairwise_cons.mpr ⟨?_, ih (inOrder.sublist (List.sublist_append_right _ _))⟩
    intro later isLater
    obtain ⟨rest, ⟨before, after, same⟩, spelled⟩ := behind.exists_segment isLater
    have sublist : (segment ++ rest).Sublist (segment ++ tokens) := by
      rw [← same, List.append_assoc]
      exact ((List.sublist_append_left rest after).trans
        (List.sublist_append_right before (rest ++ after))).append_left segment
    exact first.fits.before spelled.fits (inOrder.sublist sublist)

end LaidOut

theorem AllSpelledBy.laidOut {expressions : List Expression} {segment : List Token}
    (spelled : AllSpelledBy expressions segment) :
    LaidOut (expressions.map .expression) segment :=
  match spelled with
  | .empty => .nil
  | .last spelled => .single spelled
  | .more first others => .next first (.skip others.laidOut)

theorem Expression.FormedBy.laidOut {expression : Expression} {segment : List Token}
    (formed : expression.FormedBy segment) : LaidOut expression.parts segment := by
  cases formed with
  | literal => exact .nil
  | identifier => exact .nil
  | member target => exact .next target .nil
  | methodCall target arguments =>
      exact .next target (.skip (.skip (.skip arguments.laidOut.append)))
  | index target arguments => exact .next target (.skip arguments.laidOut.append)
  | create type arguments => exact .skip (.next type (.skip arguments.laidOut.append))
  | createArray element items =>
      exact .skip (.next element (.skip (.skip (.skip items.laidOut.append))))
  | typeOf type => exact .skip (.skip (.next type .nil))
  | typeIs operand type => exact .next operand (.skip (.single type))
  | typeAs operand type => exact .next operand (.skip (.single type))
  | unary operand => exact .skip (.single operand)
  | binary left right => exact .next left (.skip (.single right))
  | conditional test ifTrue ifFalse =>
      exact .next test (.skip (.next ifTrue (.skip (.single ifFalse))))
  | assign target value => exact .next target (.skip (.single value))

theorem Expression.SpelledBy.laidOut {expression : Expression} {segment : List Token}
    (spelled : expression.SpelledBy segment) : LaidOut expression.parts segment :=
  match spelled with
  | .bare formed _ => formed.laidOut
  | .parenthesized spelled _ => by
      rw [Expression.parts_withSpan]
      exact .skip spelled.laidOut.append

theorem Part.SpelledBy.laidOut {part : Part} {segment : List Token}
    (spelled : part.SpelledBy segment) : LaidOut part.parts segment := by
  cases part with
  | expression whole => exact Expression.SpelledBy.laidOut spelled
  | type name => exact .nil

/-- What occurs in a part is spelled by a segment of what spells the part. -/
theorem Part.SpelledBy.exists_segment {part whole : Part} {tokens : List Token}
    (occurs : part.Occurs whole) (spelled : whole.SpelledBy tokens) :
    ∃ segment, segment <:+: tokens ∧ part.SpelledBy segment := by
  induction occurs generalizing tokens with
  | root => exact ⟨tokens, List.infix_rfl, spelled⟩
  | inPart isChild _ ih =>
    obtain ⟨inner, isInner, childSpelled⟩ := spelled.laidOut.exists_segment isChild
    obtain ⟨segment, isSegment, partSpelled⟩ := ih childSpelled
    exact ⟨segment, isSegment.trans isInner, partSpelled⟩

/-- Whatever occurs in a part that ordered tokens spell has its place among them. -/
theorem Part.SpelledBy.placed {part whole : Part} {tokens : List Token}
    (spelled : whole.SpelledBy tokens) (inOrder : InOrder tokens) (occurs : part.Occurs whole) :
    part.Placed tokens := by
  obtain ⟨segment, isSegment, partSpelled⟩ := Part.SpelledBy.exists_segment occurs spelled
  have segmentInOrder : InOrder segment := inOrder.sublist isSegment.sublist
  refine ⟨⟨segment, isSegment, partSpelled, partSpelled.fits⟩, ?_, ?_⟩
  · intro child isChild
    obtain ⟨inner, isInner, childSpelled⟩ := partSpelled.laidOut.exists_segment isChild
    exact childSpelled.fits.within partSpelled.fits isInner segmentInOrder
  · exact partSpelled.laidOut.ordered segmentInOrder

end Surface

end ExprImports
