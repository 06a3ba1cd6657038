import ExprImports.Proofs.Outcomes
import ExprImports.Proofs.Surface.Reading
import ExprImports.Proofs.Surface.Spelling
import ExprImports.Surface.Tokenization

/-!
# What is read is what is written

Each reader takes a segment from the front of the tokens, and the segment spells what the
reader gives (`Reads`). A reader that goes on to extend what it has read keeps this
true of the longer segment (`Extends`). So the readers of one level are sound if those
of the next deeper level are, and with them all levels (`sound_levels`).

**Soundness.** If tokens are read as an expression, then all tokens before their end spell
it, and every part of the expression has its place among them (`parse_sound`). The
tokens of a text come in order (`inOrder_of_tokenize`), so this holds of what is read
from texts.
-/

set_option autoImplicit false

namespace ExprImports.Surface

/-! ## Tokens of a text -/

theorem byteLength_gap (text : List Char) :
    byteLength (text.takeWhile isGap) + byteLength (text.dropWhile isGap) = byteLength text := by
  rw [← byteLength_append, List.takeWhile_append_dropWhile]

/-- Tokens are read from a stretch of the text in order. -/
structure ReadInOrder (offset : Nat) (text : List Char) (tokens : List Token) (stop : Nat)
    (rest : List Char) : Prop where
  whole : stop + byteLength rest = offset + byteLength text
  forward : offset ≤ stop
  ordered : InOrder tokens
  inside : ∀ token ∈ tokens, offset ≤ token.span.offset ∧ token.span.stop ≤ stop

theorem readInOrder_readTokens (offset : Nat) (text : List Char) :
    ReadInOrder offset text (readTokens offset text).1 (readTokens offset text).2.1
      (readTokens offset text).2.2 := by
  fun_induction readTokens offset text with
  | case1 offset text start front none =>
    have gap : byteLength (text.takeWhile isGap) + byteLength front = byteLength text :=
      byteLength_gap text
    exact ⟨by dsimp only; omega, by dsimp only; omega, .nil, by simp⟩
  | case2 offset text start front reading found length tokens stop rest more ih =>
    rw [more] at ih
    have gap : byteLength (text.takeWhile isGap) + byteLength front = byteLength text :=
      byteLength_gap text
    have lexeme : byteLength front = byteLength reading.lexeme + byteLength reading.rest := by
      rw [← byteLength_append, ← readToken?_text found]
    have whole := ih.whole
    have forward := ih.forward
    dsimp only at whole forward ⊢
    refine ⟨by omega, by omega, List.pairwise_cons.mpr ⟨?_, ih.ordered⟩, ?_⟩
    · intro later isLater
      exact (ih.inside later isLater).1
    · intro token isToken
      rcases List.mem_cons.mp isToken with rfl | isLater
      · exact ⟨Nat.le_add_right _ _, forward⟩
      · have bounds := ih.inside token isLater
        dsimp only at bounds
        omega

/-- The tokens of every text come in order. -/
theorem inOrder_of_tokenize {text : String} {tokens : List Token}
    (done : tokenize text = .ok tokens) : InOrder tokens := by
  have read := readInOrder_readTokens 0 text.toList
  unfold tokenize at done
  dsimp only at done
  split at done
  · cases done
    refine List.pairwise_append.mpr ⟨read.ordered, List.pairwise_singleton _ _, ?_⟩
    intro token isToken stop isStop
    obtain rfl := List.mem_singleton.mp isStop
    have bounds := read.inside token isToken
    have whole := read.whole
    unfold Span.Before
    dsimp only
    omega
  · split at done <;> cases done

/-! ## Single tokens -/

section Tokens

variable {tokens rest : List Token} {place : Span}

theorem eq_of_front {kind : TokenKind} (isKind : (front tokens).kind = kind)
    (inside : kind ≠ .endOfText) :
    tokens = ⟨kind, (front tokens).span⟩ :: advance tokens := by
  cases tokens with
  | nil => exact absurd isKind.symm inside
  | cons token rest =>
    subst isKind
    have notEnd : token.kind ≠ .endOfText := inside
    rw [advance_cons notEnd]
    rfl

theorem exists_of_eat? {symbol : Symbol} (done : eat? symbol tokens = some rest) :
    ∃ place, tokens = ⟨.symbol symbol, place⟩ :: rest := by
  unfold eat? at done
  split at done
  · rename_i isSymbol
    cases done
    exact ⟨_, eq_of_front isSymbol (by simp)⟩
  · cases done

theorem eq_of_expect {symbol : Symbol} (done : expect symbol tokens = .ok (place, rest)) :
    tokens = ⟨.symbol symbol, place⟩ :: rest := by
  unfold expect at done
  dsimp only at done
  split at done
  · rename_i isSymbol
    cases done
    exact eq_of_front isSymbol (by simp)
  · split at done <;> cases done

theorem eq_of_expectIdentifier {name : String}
    (done : expectIdentifier tokens = .ok ((name, place), rest)) :
    tokens = ⟨.identifier name, place⟩ :: rest := by
  unfold expectIdentifier at done
  dsimp only at done
  split at done
  · rename_i isName
    cases done
    exact eq_of_front isName (by simp)
  · cases done
  · cases done

end Tokens

/-! ## Readers -/

/-- The tokens that the reader takes spell what it gives. -/
def Reads {α : Type} (spelled : α → List Token → Prop) (reader : Parse α) : Prop :=
  ∀ ⦃tokens value rest⦄, InOrder tokens → reader tokens = .ok (value, rest) →
    ∃ segment, tokens = segment ++ rest ∧ spelled value segment

/-- The tokens of an expression and those that the step takes spell the longer expression. -/
def Extends
    (step : Expression → List Token → Except ParseFault (Option (Expression × List Token))) :
    Prop :=
  ∀ ⦃value segment tokens longer rest⦄, InOrder (segment ++ tokens) → value.SpelledBy segment →
    step value tokens = .ok (some (longer, rest)) →
      ∃ whole, segment ++ tokens = whole ++ rest ∧ longer.SpelledBy whole

section Order

variable {token : Token} {front rest : List Token}

theorem InOrder.tail (ordered : InOrder (token :: rest)) : InOrder rest :=
  ordered.sublist (List.sublist_cons_self token rest)

theorem InOrder.behind (ordered : InOrder (front ++ rest)) : InOrder rest :=
  ordered.sublist (List.sublist_append_right front rest)

theorem InOrder.upTo (ordered : InOrder (front ++ rest)) : InOrder front :=
  ordered.sublist (List.sublist_append_left front rest)

end Order

theorem extend_sound
    {step : Expression → List Token → Except ParseFault (Option (Expression × List Token))}
    (sound : Extends step) {value result : Expression} {segment tokens rest : List Token}
    (ordered : InOrder (segment ++ tokens)) (spelled : value.SpelledBy segment)
    (done : extend step value tokens = .ok (result, rest)) :
    ∃ whole, segment ++ tokens = whole ++ rest ∧ result.SpelledBy whole := by
  fun_induction extend step value tokens generalizing segment with
  | case1 value tokens fault stop => cases done
  | case2 value tokens stop =>
    cases done
    exact ⟨segment, rfl, spelled⟩
  | case3 value tokens longer behind stepped shorter ih =>
    obtain ⟨whole, same, longerSpelled⟩ := sound ordered spelled stepped
    rw [same] at ordered ⊢
    exact ih ordered longerSpelled done
  | case4 value tokens longer behind stepped long =>
    cases done
    exact sound ordered spelled stepped

theorem append_cons_eq {front behind second rest : List Token} {token : Token}
    (same : behind = second ++ rest) :
    front ++ token :: behind = (front ++ token :: second) ++ rest := by
  rw [same, List.append_assoc, List.cons_append]

section Forms

variable {expression : Expression} {segment front back tokens rest : List Token}
  {first last : Span}

/-- A form is spelled by its segment if its stretch reaches from the stretch of its first
part to that of its last one. -/
theorem Expression.FormedBy.spelled (formed : expression.FormedBy segment)
    (fitsFirst : Fits first front) (isFront : front <+: segment) (fitsLast : Fits last back)
    (isBack : back <:+ segment) (isSpan : expression.span = first.cover last)
    (ordered : InOrder tokens) (whole : tokens = segment ++ rest) :
    ∃ segment, tokens = segment ++ rest ∧ expression.SpelledBy segment := by
  subst whole
  have fits := fitsFirst.cover fitsLast isFront isBack ordered.upTo
  exact ⟨segment, rfl, .bare formed (isSpan ▸ fits)⟩

/-- A form that ends with a single token. -/
theorem Expression.FormedBy.closed (formed : expression.FormedBy segment)
    (fitsFirst : Fits first front) (isFront : front <+: segment) (close : Token)
    (isClose : segment.getLast? = some close) (isSpan : expression.span = first.cover close.span)
    (ordered : InOrder tokens) (whole : tokens = segment ++ rest) :
    ∃ segment, tokens = segment ++ rest ∧ expression.SpelledBy segment := by
  obtain ⟨inner, same⟩ := List.getLast?_eq_some_iff.mp isClose
  exact formed.spelled fitsFirst isFront (fits_single close) ⟨inner, same.symm⟩ isSpan ordered whole

/-- A form that is a single token. -/
theorem Expression.FormedBy.single {kind : TokenKind} {place : Span}
    (formed : expression.FormedBy [⟨kind, place⟩]) (isSpan : expression.span = place) :
    ∃ segment, ⟨kind, place⟩ :: rest = segment ++ rest ∧ expression.SpelledBy segment :=
  ⟨[⟨kind, place⟩], rfl, .bare formed (isSpan ▸ fits_single ⟨kind, place⟩)⟩

theorem exists_literal (value : Constant) (place : Span) :
    ∃ segment, ⟨value.written, place⟩ :: rest = segment ++ rest ∧
      (Expression.literal value place).SpelledBy segment :=
  Expression.FormedBy.literal.single rfl

/-- Parentheses around what is spelled. -/
theorem Expression.SpelledBy.inParentheses (spelled : expression.SpelledBy segment)
    {opening close : Span}
    (ordered : InOrder (⟨.symbol .leftParen, opening⟩ ::
      (segment ++ ⟨.symbol .rightParen, close⟩ :: rest))) :
    ∃ whole, ⟨.symbol .leftParen, opening⟩ :: (segment ++ ⟨.symbol .rightParen, close⟩ :: rest) =
        whole ++ rest ∧ (expression.withSpan (opening.cover close)).SpelledBy whole := by
  have split : ⟨.symbol .leftParen, opening⟩ :: (segment ++ ⟨.symbol .rightParen, close⟩ :: rest) =
      (⟨.symbol .leftParen, opening⟩ :: (segment ++ [⟨.symbol .rightParen, close⟩])) ++ rest := by
    simp
  rw [split] at ordered ⊢
  refine ⟨_, rfl, .parenthesized spelled ?_⟩
  exact (fits_single ⟨.symbol .leftParen, opening⟩).cover
    (fits_single ⟨.symbol .rightParen, close⟩) ⟨_, rfl⟩
    ⟨⟨.symbol .leftParen, opening⟩ :: segment, rfl⟩ ordered.upTo

end Forms

/-! ## Names of types -/

theorem typeNameParts_sound {type : TypeName} {segment tokens : List Token}
    (ordered : InOrder (segment ++ tokens)) (spelled : type.SpelledBy segment) :
    ∃ whole, segment ++ tokens = whole ++ (typeNameParts type tokens).2 ∧
      (typeNameParts type tokens).1.SpelledBy whole := by
  fun_induction typeNameParts type tokens generalizing segment with
  | case1 type dot part span rest ih =>
    have longer : segment ++ ⟨.symbol .dot, dot⟩ :: ⟨.identifier part, span⟩ :: rest =
        (segment ++ [⟨.symbol .dot, dot⟩, ⟨.identifier part, span⟩]) ++ rest := by simp
    rw [longer] at ordered ⊢
    have fits := spelled.fits.cover (fits_single ⟨.identifier part, span⟩)
      (List.prefix_append _ _) ⟨segment ++ [⟨.symbol .dot, dot⟩], by simp⟩ ordered.upTo
    exact ih ordered (.dotted spelled fits)
  | case2 type tokens other => exact ⟨segment, rfl, spelled⟩

theorem reads_typeName : Reads TypeName.SpelledBy typeName := by
  intro tokens type rest ordered done
  obtain ⟨⟨⟨name, place⟩, behind⟩, isName, parts⟩ := exists_of_bind_eq_ok done
  obtain rfl := eq_of_expectIdentifier isName
  have first : TypeName.SpelledBy ⟨name, place⟩ [⟨.identifier name, place⟩] := .single
  obtain ⟨whole, same, spelled⟩ := typeNameParts_sound ordered first
  have ends : typeNameParts ⟨name, place⟩ behind = (type, rest) := Except.ok.inj parts
  rw [ends] at same spelled
  exact ⟨whole, same, spelled⟩

/-! ## Lists -/

section Lists

variable {item : Parse Expression}

theorem reads_commaSeparated (sound : Reads Expression.SpelledBy item) :
    Reads (fun items segment => items ≠ [] ∧ AllSpelledBy items segment)
      (commaSeparated item) := by
  intro tokens items rest ordered done
  fun_induction commaSeparated item tokens generalizing items with
  | case1 tokens fault failed => cases done
  | case2 tokens first behind read alone =>
    cases done
    obtain ⟨segment, rfl, spelled⟩ := sound ordered read
    exact ⟨segment, rfl, by simp, .last spelled⟩
  | case3 tokens first behind read others comma shorter ih =>
    obtain ⟨segment, rfl, spelled⟩ := sound ordered read
    obtain ⟨place, rfl⟩ := exists_of_eat? comma
    obtain ⟨⟨more, rest⟩, readMore, same⟩ := exists_of_map_eq_ok done
    cases same
    obtain ⟨listed, rfl, nonempty, listedSpelled⟩ := ih ordered.behind.tail readMore
    obtain ⟨next, more, rfl⟩ := List.exists_cons_of_ne_nil nonempty
    exact ⟨segment ++ ⟨.symbol .comma, place⟩ :: listed, by simp, by simp,
      .more spelled listedSpelled⟩
  | case4 tokens first behind read others comma long =>
    obtain ⟨segment, rfl, _⟩ := sound ordered read
    obtain ⟨place, rfl⟩ := exists_of_eat? comma
    simp only [List.length_append, List.length_cons] at long
    omega

theorem enclosed_sound (sound : Reads Expression.SpelledBy item) {close : Symbol}
    {tokens rest : List Token} {items : List Expression} {place : Span}
    (ordered : InOrder tokens) (done : enclosed item close tokens = .ok ((items, place), rest)) :
    ∃ listed, tokens = listed ++ ⟨.symbol close, place⟩ :: rest ∧ AllSpelledBy items listed := by
  unfold enclosed at done
  split at done
  · rename_i behind closed
    obtain ⟨closePlace, rfl⟩ := exists_of_eat? closed
    cases done
    exact ⟨[], rfl, .empty⟩
  · obtain ⟨⟨some, behind⟩, read, done⟩ := exists_of_bind_eq_ok done
    obtain ⟨⟨closePlace, behind'⟩, closed, done⟩ := exists_of_bind_eq_ok done
    cases done
    obtain ⟨listed, rfl, _, spelled⟩ := reads_commaSeparated sound ordered read
    obtain rfl := eq_of_expect closed
    exact ⟨listed, rfl, spelled⟩

end Lists

/-! ## One level -/

/-- The tokens that the readers of a level take spell what they give. -/
structure Deeper.Sound (deeper : Deeper) : Prop where
  expression : Reads Expression.SpelledBy deeper.expression
  operand : Reads Expression.SpelledBy deeper.operand

namespace Deeper.Sound

variable {deeper : Deeper} (sound : deeper.Sound)

include sound

theorem creation {start : Span} {tokens rest : List Token} {expression : Expression}
    (ordered : InOrder (⟨.keyword .new, start⟩ :: tokens))
    (done : creation deeper start tokens = .ok (expression, rest)) :
    ∃ segment, ⟨.keyword .new, start⟩ :: tokens = segment ++ rest ∧
      expression.SpelledBy segment := by
  obtain ⟨⟨type, behind⟩, isType, afterType⟩ := exists_of_bind_eq_ok done
  obtain ⟨named, rfl, typeSpelled⟩ := reads_typeName ordered.tail isType
  have behindOrdered : InOrder behind := ordered.tail.behind
  dsimp only at afterType
  split at afterType
  · rename_i inner bracket
    obtain ⟨left, rfl⟩ := exists_of_eat? bracket
    obtain ⟨⟨right, afterRight⟩, isRight, brace⟩ := exists_of_bind_eq_ok afterType
    obtain rfl := eq_of_expect isRight
    obtain ⟨⟨opening, inner⟩, isOpening, elements⟩ := exists_of_bind_eq_ok brace
    obtain rfl := eq_of_expect isOpening
    obtain ⟨⟨⟨items, close⟩, behind⟩, read, built⟩ := exists_of_bind_eq_ok elements
    obtain ⟨listed, rfl, itemsSpelled⟩ :=
      enclosed_sound sound.expression behindOrdered.tail.tail.tail read
    cases built
    have formed : (Expression.createArray type items (start.cover close)).FormedBy
        (⟨.keyword .new, start⟩ :: (named ++ ⟨.symbol .leftBracket, left⟩ ::
          ⟨.symbol .rightBracket, right⟩ :: ⟨.symbol .leftBrace, opening⟩ ::
            (listed ++ [⟨.symbol .rightBrace, close⟩]))) := .createArray typeSpelled itemsSpelled
    exact formed.closed (fits_single ⟨.keyword .new, start⟩) ⟨_, rfl⟩
      ⟨.symbol .rightBrace, close⟩ (by simp [List.getLast?_cons]) rfl ordered (by simp)
  · obtain ⟨⟨opening, inner⟩, isOpening, listing⟩ := exists_of_bind_eq_ok afterType
    obtain rfl := eq_of_expect isOpening
    obtain ⟨⟨⟨arguments, close⟩, behind⟩, read, built⟩ := exists_of_bind_eq_ok listing
    obtain ⟨listed, rfl, argumentsSpelled⟩ :=
      enclosed_sound sound.expression behindOrdered.tail read
    cases built
    have formed : (Expression.create type arguments (start.cover close)).FormedBy
        (⟨.keyword .new, start⟩ :: (named ++ ⟨.symbol .leftParen, opening⟩ ::
          (listed ++ [⟨.symbol .rightParen, close⟩]))) := .create typeSpelled argumentsSpelled
    exact formed.closed (fits_single ⟨.keyword .new, start⟩) ⟨_, rfl⟩
      ⟨.symbol .rightParen, close⟩ (by simp [List.getLast?_cons]) rfl ordered (by simp)

theorem primary : Reads Expression.SpelledBy (primary deeper) := by
  intro tokens expression rest ordered done
  unfold Surface.primary at done
  dsimp only at done
  split at done
  next value isKind =>
    cases done
    rw [eq_of_front isKind (by simp)]
    exact exists_literal (.integer value) _
  next value isKind =>
    cases done
    rw [eq_of_front isKind (by simp)]
    exact exists_literal (.floating value) _
  next value isKind =>
    cases done
    rw [eq_of_front isKind (by simp)]
    exact exists_literal (.text value) _
  next isKind =>
    cases done
    rw [eq_of_front isKind (by simp)]
    exact exists_literal (.boolean true) _
  next isKind =>
    cases done
    rw [eq_of_front isKind (by simp)]
    exact exists_literal (.boolean false) _
  next isKind =>
    cases done
    rw [eq_of_front isKind (by simp)]
    exact exists_literal .null _
  next name isKind =>
    cases done
    rw [eq_of_front isKind (by simp)]
    exact Expression.FormedBy.identifier.single rfl
  next isKind =>
    rw [eq_of_front isKind (by simp)] at ordered ⊢
    generalize (front tokens).span = opening at ordered done ⊢
    generalize advance tokens = behind at ordered done ⊢
    obtain ⟨⟨inner, behind⟩, read, afterInner⟩ := exists_of_bind_eq_ok done
    obtain ⟨segment, rfl, spelled⟩ := sound.expression ordered.tail read
    obtain ⟨⟨close, rest⟩, isClose, built⟩ := exists_of_bind_eq_ok afterInner
    obtain rfl := eq_of_expect isClose
    cases built
    exact spelled.inParentheses ordered
  next isKind =>
    rw [eq_of_front isKind (by simp)] at ordered ⊢
    exact sound.creation ordered done
  next isKind =>
    rw [eq_of_front isKind (by simp)] at ordered ⊢
    generalize (front tokens).span = word at ordered done ⊢
    generalize advance tokens = behind at ordered done ⊢
    obtain ⟨⟨opening, inner⟩, isOpening, afterOpening⟩ := exists_of_bind_eq_ok done
    obtain rfl := eq_of_expect isOpening
    obtain ⟨⟨type, behind⟩, isType, afterType⟩ := exists_of_bind_eq_ok afterOpening
    obtain ⟨named, rfl, typeSpelled⟩ := reads_typeName ordered.tail.tail isType
    obtain ⟨⟨close, rest⟩, isClose, built⟩ := exists_of_bind_eq_ok afterType
    obtain rfl := eq_of_expect isClose
    cases built
    have formed : (Expression.typeOf type (word.cover close)).FormedBy
        (⟨.keyword .typeOf, word⟩ :: ⟨.symbol .leftParen, opening⟩ ::
          (named ++ [⟨.symbol .rightParen, close⟩])) := .typeOf typeSpelled
    exact formed.closed (fits_single ⟨.keyword .typeOf, word⟩) ⟨_, rfl⟩
      ⟨.symbol .rightParen, close⟩ (by simp [List.getLast?_cons]) rfl ordered (by simp)
  next => cases done
  next => cases done

theorem postfixStep : Extends (postfixStep deeper) := by
  intro target segment tokens longer rest ordered spelled done
  unfold Surface.postfixStep at done
  split at done
  next behind isDot =>
    obtain ⟨dot, rfl⟩ := exists_of_eat? isDot
    obtain ⟨⟨⟨name, word⟩, behind⟩, isName, afterName⟩ := exists_of_bind_eq_ok done
    obtain rfl := eq_of_expectIdentifier isName
    dsimp only at afterName
    split at afterName
    next behind isOpening =>
      obtain ⟨opening, rfl⟩ := exists_of_eat? isOpening
      obtain ⟨⟨⟨arguments, close⟩, behind⟩, read, built⟩ := exists_of_bind_eq_ok afterName
      obtain ⟨listed, rfl, argumentsSpelled⟩ :=
        enclosed_sound sound.expression ordered.behind.tail.tail.tail read
      cases built
      have formed : (Expression.methodCall target name arguments
          (target.span.cover close)).FormedBy
          (segment ++ ⟨.symbol .dot, dot⟩ :: ⟨.identifier name, word⟩ ::
            ⟨.symbol .leftParen, opening⟩ :: (listed ++ [⟨.symbol .rightParen, close⟩])) :=
        .methodCall spelled argumentsSpelled
      exact formed.closed spelled.fits ⟨_, rfl⟩ ⟨.symbol .rightParen, close⟩
        (by simp [List.getLast?_cons]) rfl ordered (by simp)
    next notCalled =>
      cases afterName
      have formed : (Expression.member target name (target.span.cover word)).FormedBy
          (segment ++ [⟨.symbol .dot, dot⟩, ⟨.identifier name, word⟩]) := .member spelled
      exact formed.closed spelled.fits ⟨_, rfl⟩ ⟨.identifier name, word⟩ (by simp) rfl ordered
        (by simp)
  next noDot =>
    split at done
    next behind isOpening =>
      obtain ⟨opening, rfl⟩ := exists_of_eat? isOpening
      obtain ⟨⟨⟨arguments, close⟩, behind⟩, read, built⟩ := exists_of_bind_eq_ok done
      obtain ⟨listed, rfl, argumentsSpelled⟩ :=
        enclosed_sound sound.expression ordered.behind.tail read
      cases built
      have formed : (Expression.index target arguments (target.span.cover close)).FormedBy
          (segment ++ ⟨.symbol .leftBracket, opening⟩ ::
            (listed ++ [⟨.symbol .rightBracket, close⟩])) := .index spelled argumentsSpelled
      exact formed.closed spelled.fits ⟨_, rfl⟩ ⟨.symbol .rightBracket, close⟩
        (by simp [List.getLast?_cons]) rfl ordered (by simp)
    next noBracket => cases done

theorem postfixExpression : Reads Expression.SpelledBy (postfixExpression deeper) := by
  intro tokens expression rest ordered done
  obtain ⟨⟨target, behind⟩, read, extended⟩ := exists_of_bind_eq_ok done
  obtain ⟨segment, rfl, spelled⟩ := sound.primary ordered read
  exact extend_sound sound.postfixStep ordered spelled extended

theorem unaryExpression : Reads Expression.SpelledBy (unaryExpression deeper) := by
  intro tokens expression rest ordered done
  unfold Surface.unaryExpression at done
  dsimp only at done
  split at done
  next notPrefix => exact sound.postfixExpression ordered done
  next operator isOperator =>
    have isSign := prefixOperator?_eq_some_iff.mp isOperator
    rw [eq_of_front isSign (by simp)] at ordered ⊢
    obtain ⟨⟨operand, behind⟩, read, built⟩ := exists_of_bind_eq_ok done
    obtain ⟨segment, same, spelled⟩ := sound.operand ordered.tail read
    cases built
    exact (Expression.FormedBy.unary spelled).spelled (fits_single ⟨.symbol operator.sign, _⟩)
      ⟨_, rfl⟩ spelled.fits (List.suffix_cons _ _) rfl ordered (congrArg (_ :: ·) same)

omit sound in
theorem binaryStep {minimum : Nat}
    (tighter : ∀ higher, 7 - higher < 7 - minimum →
      Reads Expression.SpelledBy (binaryExpression deeper higher)) :
    Extends (binaryStep deeper minimum) := by
  intro left segment tokens longer rest ordered spelled done
  unfold Surface.binaryStep at done
  split at done
  next isTest =>
    split at done
    · rw [eq_of_front isTest (by simp)] at ordered ⊢
      obtain ⟨⟨type, behind⟩, isType, built⟩ := exists_of_bind_eq_ok done
      obtain ⟨named, same, typeSpelled⟩ := reads_typeName ordered.behind.tail isType
      cases built
      exact (Expression.FormedBy.typeIs spelled typeSpelled).spelled spelled.fits ⟨_, rfl⟩
        typeSpelled.fits ((List.suffix_cons _ _).trans (List.suffix_append _ _)) rfl ordered
        (append_cons_eq same)
    · cases done
  next isTest =>
    split at done
    · rw [eq_of_front isTest (by simp)] at ordered ⊢
      obtain ⟨⟨type, behind⟩, isType, built⟩ := exists_of_bind_eq_ok done
      obtain ⟨named, same, typeSpelled⟩ := reads_typeName ordered.behind.tail isType
      cases built
      exact (Expression.FormedBy.typeAs spelled typeSpelled).spelled spelled.fits ⟨_, rfl⟩
        typeSpelled.fits ((List.suffix_cons _ _).trans (List.suffix_append _ _)) rfl ordered
        (append_cons_eq same)
    · cases done
  next noIs noAs =>
    split at done
    next noOperator => cases done
    next operator isOperator =>
      have isSign := binaryOperator?_eq_some_iff.mp isOperator
      split at done
      next tight =>
        rw [eq_of_front isSign (by simp)] at ordered ⊢
        obtain ⟨⟨right, behind⟩, read, built⟩ := exists_of_bind_eq_ok done
        have bound := operator.precedence_le
        obtain ⟨second, same, rightSpelled⟩ := tighter _ (by omega) ordered.behind.tail read
        cases built
        exact (Expression.FormedBy.binary spelled rightSpelled).spelled spelled.fits ⟨_, rfl⟩
          rightSpelled.fits ((List.suffix_cons _ _).trans (List.suffix_append _ _)) rfl ordered
          (append_cons_eq same)
      next loose => cases done

/-- The right operand of an operator is read with a higher minimum, and no operator binds
tighter than 6. -/
theorem binaryExpression (minimum : Nat) :
    Reads Expression.SpelledBy (binaryExpression deeper minimum) := by
  induction room : 7 - minimum using Nat.strongRecOn generalizing minimum with
  | ind room ih =>
    intro tokens expression rest ordered done
    cases read : Surface.unaryExpression deeper tokens with
    | error fault =>
      rw [Surface.binaryExpression, read] at done
      cases done
    | ok result =>
      obtain ⟨first, behind⟩ := result
      rw [binaryExpression_of_unary read] at done
      obtain ⟨segment, rfl, spelled⟩ := sound.unaryExpression ordered read
      refine extend_sound (binaryStep ?_) ordered spelled done
      intro higher above
      exact ih _ (room ▸ above) higher rfl

theorem conditionalExpression : Reads Expression.SpelledBy (conditionalExpression deeper) := by
  intro tokens expression rest ordered done
  obtain ⟨⟨test, behind⟩, readTest, afterTest⟩ := exists_of_bind_eq_ok done
  obtain ⟨first, rfl, testSpelled⟩ := sound.binaryExpression 1 ordered readTest
  dsimp only at afterTest
  split at afterTest
  next noQuestion =>
    cases afterTest
    exact ⟨first, rfl, testSpelled⟩
  next behind isQuestion =>
    obtain ⟨question, rfl⟩ := exists_of_eat? isQuestion
    obtain ⟨⟨ifTrue, behind⟩, readTrue, afterTrue⟩ := exists_of_bind_eq_ok afterTest
    obtain ⟨second, rfl, trueSpelled⟩ := sound.expression ordered.behind.tail readTrue
    obtain ⟨⟨colon, behind⟩, isColon, afterColon⟩ := exists_of_bind_eq_ok afterTrue
    obtain rfl := eq_of_expect isColon
    obtain ⟨⟨ifFalse, behind⟩, readFalse, built⟩ := exists_of_bind_eq_ok afterColon
    obtain ⟨third, rfl, falseSpelled⟩ :=
      sound.expression ordered.behind.tail.behind.tail readFalse
    cases built
    have formed : (Expression.conditional test ifTrue ifFalse
        (test.span.cover ifFalse.span)).FormedBy
        (first ++ ⟨.symbol .question, question⟩ :: (second ++ ⟨.symbol .colon, colon⟩ :: third)) :=
      .conditional testSpelled trueSpelled falseSpelled
    exact formed.spelled testSpelled.fits ⟨_, rfl⟩ falseSpelled.fits
      ⟨first ++ ⟨.symbol .question, question⟩ :: (second ++ [⟨.symbol .colon, colon⟩]), by simp⟩
      rfl ordered (by simp)

theorem assignmentExpression : Reads Expression.SpelledBy (assignmentExpression deeper) := by
  intro tokens expression rest ordered done
  obtain ⟨⟨target, behind⟩, readTarget, afterTarget⟩ := exists_of_bind_eq_ok done
  obtain ⟨first, rfl, targetSpelled⟩ := sound.conditionalExpression ordered readTarget
  dsimp only at afterTarget
  split at afterTarget
  next noEqual =>
    cases afterTarget
    exact ⟨first, rfl, targetSpelled⟩
  next behind isEqual =>
    obtain ⟨equal, rfl⟩ := exists_of_eat? isEqual
    obtain ⟨⟨value, behind⟩, readValue, built⟩ := exists_of_bind_eq_ok afterTarget
    obtain ⟨second, same, valueSpelled⟩ := sound.expression ordered.behind.tail readValue
    cases built
    exact (Expression.FormedBy.assign targetSpelled valueSpelled).spelled targetSpelled.fits
      ⟨_, rfl⟩ valueSpelled.fits ((List.suffix_cons _ _).trans (List.suffix_append _ _)) rfl
      ordered (append_cons_eq same)

end Deeper.Sound

/-! ## All levels -/

theorem sound_levels (depth : Nat) : (levels depth).Sound := by
  induction depth with
  | zero =>
    refine ⟨?_, ?_⟩ <;>
    · intro tokens expression rest _ done
      cases done
  | succ depth ih => exact ⟨ih.assignmentExpression, ih.unaryExpression⟩

/-- The end behind the last token comes in order. -/
theorem inOrder_withEnd {tokens : List Token} (ordered : InOrder tokens) :
    InOrder (withEnd tokens) := by
  refine List.pairwise_append.mpr ⟨ordered, List.pairwise_singleton _ _, ?_⟩
  intro token inside stop isStop
  obtain rfl := List.mem_singleton.mp isStop
  cases isLast : tokens.getLast? with
  | none =>
    rw [List.getLast?_eq_none_iff.mp isLast] at inside
    cases inside
  | some last => exact ordered.stop_le_last isLast inside

/-- The tokens before the end of the text. -/
def beforeEnd (tokens : List Token) : List Token :=
  tokens.takeWhile fun token => !token.isEnd

theorem beforeEnd_append_end {segment rest : List Token} {token : Token} (inside : Inside segment)
    (isEnd : token.isEnd) : beforeEnd (segment ++ token :: rest) = segment := by
  have notEnd : ∀ token ∈ segment, (!token.isEnd) = true := by
    intro token isToken
    simpa [Token.isEnd] using inside token isToken
  rw [beforeEnd, List.takeWhile_append_of_pos notEnd, List.takeWhile_cons_of_neg (by simp [isEnd]),
    List.append_nil]

theorem beforeEnd_withEnd (tokens : List Token) : beforeEnd (withEnd tokens) = beforeEnd tokens := by
  unfold beforeEnd withEnd
  rw [List.takeWhile_append, List.takeWhile_cons_of_neg (by simp [Token.isEnd]), List.append_nil]
  split
  · rename_i whole
    exact ((List.takeWhile_prefix _).eq_of_length whole).symm
  · rfl

theorem not_inside_withEnd (tokens : List Token) : ¬ Inside (withEnd tokens) := by
  simp [withEnd]

theorem parseWithin_spelled {depth : Nat} {tokens : List Token} {expression : Expression}
    (ordered : InOrder tokens) (done : parseWithin depth tokens = .ok expression) :
    expression.SpelledBy (beforeEnd tokens) := by
  obtain ⟨⟨read, rest⟩, isRead, finished⟩ := exists_of_bind_eq_ok done
  obtain ⟨segment, same, spelled⟩ :=
    (sound_levels depth).expression (inOrder_withEnd ordered) isRead
  dsimp only at finished
  split at finished
  next isEnd =>
    cases finished
    cases rest with
    | nil =>
      rw [List.append_nil] at same
      exact absurd spelled.inside (same ▸ not_inside_withEnd tokens)
    | cons token rest =>
      have tokenIsEnd : token.isEnd := isEnd
      have before := beforeEnd_withEnd tokens
      rw [same, beforeEnd_append_end spelled.inside tokenIsEnd] at before
      exact before ▸ spelled
  next => cases finished

/-- What occurs in an expression that is read from a text is spelled by some of its tokens. -/
theorem exists_segment_of_parse {text : String} {tokens : List Token} {expression : Expression}
    {part : Part} (cut : tokenize text = .ok tokens) (done : parse tokens = .ok expression)
    (occurs : part.Occurs (.expression expression)) :
    ∃ segment, segment ⊆ tokens ∧ part.SpelledBy segment := by
  have whole : (Part.expression expression).SpelledBy (beforeEnd tokens) :=
    parseWithin_spelled (inOrder_of_tokenize cut) done
  obtain ⟨segment, isSegment, spelled⟩ := Part.SpelledBy.exists_segment occurs whole
  refine ⟨segment, ?_, spelled⟩
  intro token inside
  exact (List.takeWhile_sublist _).subset (isSegment.subset inside)

/-- **Soundness.** If tokens that come in order are read as an expression, the tokens before
their end spell it, none left out, and whatever occurs in the expression was read from a
segment of them that its stretch fits, with what lies below it inside and in order. -/
theorem parse_sound {tokens : List Token} {expression : Expression} (ordered : InOrder tokens)
    (done : parse tokens = .ok expression) :
    expression.SpelledBy (beforeEnd tokens) ∧
      ∀ part : Part, part.Occurs (.expression expression) → part.Placed (beforeEnd tokens) := by
  have spelled : (Part.expression expression).SpelledBy (beforeEnd tokens) :=
    parseWithin_spelled ordered done
  have beforeOrdered : InOrder (beforeEnd tokens) :=
    ordered.sublist (List.takeWhile_sublist _)
  exact ⟨spelled, fun part occurs => spelled.placed beforeOrdered occurs⟩

/-- A text with parentheses, an access and the name of a type in a namespace. -/
def sampleText : String := "(order.Total + 1) is Shop.Sum"

/-- The tokens of the text. -/
def sampleTokens : List Token :=
  [ ⟨.symbol .leftParen, ⟨0, 1⟩⟩, ⟨.identifier "order", ⟨1, 5⟩⟩, ⟨.symbol .dot, ⟨6, 1⟩⟩,
    ⟨.identifier "Total", ⟨7, 5⟩⟩, ⟨.symbol .plus, ⟨13, 1⟩⟩, ⟨.integer 1, ⟨15, 1⟩⟩,
    ⟨.symbol .rightParen, ⟨16, 1⟩⟩, ⟨.keyword .is, ⟨18, 2⟩⟩, ⟨.identifier "Shop", ⟨21, 4⟩⟩,
    ⟨.symbol .dot, ⟨25, 1⟩⟩, ⟨.identifier "Sum", ⟨26, 3⟩⟩, ⟨.endOfText, ⟨29, 0⟩⟩ ]

/-- What is read from the tokens. The sum has the stretch of its parentheses. -/
def sampleRead : Expression :=
  .typeIs
    (.binary .add (.member (.identifier "order" ⟨1, 5⟩) "Total" ⟨1, 11⟩)
      (.literal (.integer 1) ⟨15, 1⟩) ⟨0, 17⟩)
    ⟨"Shop.Sum", ⟨21, 8⟩⟩ ⟨0, 29⟩

theorem parse_sampleTokens :
    tokenize sampleText = .ok sampleTokens ∧ parse sampleTokens = .ok sampleRead ∧
      sampleRead.SpelledBy (beforeEnd sampleTokens) ∧
        ∀ part : Part, part.Occurs (.expression sampleRead) →
          part.Placed (beforeEnd sampleTokens) := by
  have cut : tokenize sampleText = .ok sampleTokens := by with_unfolding_all rfl
  have done : parse sampleTokens = .ok sampleRead := by with_unfolding_all rfl
  exact ⟨cut, done, parse_sound (inOrder_of_tokenize cut) done⟩

end ExprImports.Surface
