import ExprImports.Proofs.Surface.Culprits

/-!
# Where texts and tokens are at fault

A fault that is found while a text is cut into tokens, or while the tokens are read as an
expression, is reported at a stretch that begins and ends between characters of the text. So
does the stretch of every part of an expression that is read (`inText_of_occurs`).

**Readers.** Whatever a reader leaves is a suffix of the tokens it was given, and a fault is
reported at the first token of such a suffix (`Stays`). Both are kept when one reader follows
another, so they hold of all readers of a level if they hold of those of the next deeper one
(`keeps_levels`).
-/

set_option autoImplicit false

namespace ExprImports.Surface

/-! ## Texts that cannot be cut into tokens -/

/-- **A text that cannot be cut is at fault inside.** -/
theorem inText_of_tokenize_error {text : String} {fault : TokenFault}
    (failed : tokenize text = .error fault) : fault.span.InText text.toList := by
  obtain ⟨_, _, _, lies⟩ := faultLies_of_tokenize_error failed
  exact lies.shown.inText

/-! ## What readers leave -/

/-- What comes of reading from the tokens: what is left is a suffix of them, and a fault is
reported at the first token of such a suffix. -/
inductive Stays {β : Type} (tokens : List Token) (left : β → List Token) :
    Except ParseFault β → Prop
  | ok {value : β} : left value <:+ tokens → Stays tokens left (.ok value)
  | error {fault : ParseFault} {rest : List Token} :
      rest <:+ tokens → fault.span = (front rest).span → Stays tokens left (.error fault)

/-- The reader stays within the tokens that it is given. -/
def Keeps {α : Type} (reader : Parse α) : Prop :=
  ∀ tokens, Stays tokens Prod.snd (reader tokens)

/-- What a step leaves, if it is made at all. -/
def leftBehind : Option (Expression × List Token) → List Token
  | none => []
  | some (_, rest) => rest

/-- The step stays within the tokens that it is given. -/
def KeepsStep
    (step : Expression → List Token → Except ParseFault (Option (Expression × List Token))) :
    Prop :=
  ∀ value tokens, Stays tokens leftBehind (step value tokens)

section Outcomes

variable {α β : Type} {tokens rest : List Token} {left : β → List Token}

theorem Stays.behind {outcome : Except ParseFault β} (isSuffix : rest <:+ tokens)
    (stays : Stays rest left outcome) : Stays tokens left outcome := by
  cases stays with
  | ok leaves => exact .ok (leaves.trans isSuffix)
  | error remains place => exact .error (remains.trans isSuffix) place

theorem Stays.suffix {outcome : Except ParseFault β} {value : β} (stays : Stays tokens left outcome)
    (done : outcome = .ok value) : left value <:+ tokens := by
  cases stays with
  | ok leaves => exact Except.ok.inj done ▸ leaves
  | error => cases done

/-- A fault stays where it is, whatever would have been left without it. -/
theorem Stays.failed {outcome : Except ParseFault β} {fault : ParseFault}
    {other : α → List Token} (stays : Stays tokens left outcome)
    (failed : outcome = .error fault) : Stays tokens other (.error fault) := by
  cases stays with
  | ok => cases failed
  | error remains place => exact .error remains (Except.error.inj failed ▸ place)

theorem Stays.bind {first : Except ParseFault (α × List Token)}
    {next : α × List Token → Except ParseFault β} (stays : Stays tokens Prod.snd first)
    (further : ∀ value rest, Stays rest left (next (value, rest))) :
    Stays tokens left (first >>= next) := by
  cases stays with
  | @ok value leaves => exact (further value.1 value.2).behind leaves
  | error remains place => exact .error remains place

theorem advance_suffix (tokens : List Token) : advance tokens <:+ tokens := by
  unfold advance
  split
  · exact List.suffix_refl tokens
  · exact List.tail_suffix tokens

theorem suffix_of_eat? {symbol : Symbol} (done : eat? symbol tokens = some rest) :
    rest <:+ tokens := by
  obtain ⟨place, rfl⟩ := exists_of_eat? done
  exact List.suffix_cons _ _

end Outcomes

theorem keeps_expect (symbol : Symbol) : Keeps (expect symbol) := by
  intro tokens
  unfold expect
  dsimp only
  split
  · exact .ok (advance_suffix tokens)
  · split <;> exact .error (List.suffix_refl tokens) rfl

theorem keeps_expectIdentifier : Keeps expectIdentifier := by
  intro tokens
  unfold expectIdentifier
  dsimp only
  split
  · exact .ok (advance_suffix tokens)
  · exact .error (List.suffix_refl tokens) rfl
  · exact .error (List.suffix_refl tokens) rfl

theorem typeNameParts_suffix (type : TypeName) (tokens : List Token) :
    (typeNameParts type tokens).2 <:+ tokens := by
  fun_induction typeNameParts type tokens with
  | case1 type dot part span rest ih =>
    exact ih.trans ((List.suffix_cons _ _).trans (List.suffix_cons _ _))
  | case2 type tokens other => exact List.suffix_refl tokens

theorem keeps_typeName : Keeps typeName := by
  intro tokens
  refine (keeps_expectIdentifier tokens).bind ?_
  intro name rest
  exact .ok (typeNameParts_suffix _ rest)

theorem stays_extend
    {step : Expression → List Token → Except ParseFault (Option (Expression × List Token))}
    (keeps : KeepsStep step) (value : Expression) (tokens : List Token) :
    Stays tokens Prod.snd (extend step value tokens) := by
  fun_induction extend step value tokens with
  | case1 value tokens fault failed => exact (keeps value tokens).failed failed
  | case2 value tokens stopped => exact .ok (List.suffix_refl tokens)
  | case3 value tokens longer rest stepped shorter ih =>
    exact ih.behind ((keeps value tokens).suffix stepped)
  | case4 value tokens longer rest stepped long => exact .ok ((keeps value tokens).suffix stepped)

section Lists

variable {item : Parse Expression} (keeps : Keeps item)
include keeps

theorem keeps_commaSeparated : Keeps (commaSeparated item) := by
  intro tokens
  fun_induction commaSeparated item tokens with
  | case1 tokens fault failed => exact (keeps tokens).failed failed
  | case2 tokens first behind read alone => exact .ok ((keeps tokens).suffix read)
  | case3 tokens first behind read others comma shorter ih =>
    have isSuffix : others <:+ tokens := (suffix_of_eat? comma).trans ((keeps tokens).suffix read)
    cases more : commaSeparated item others with
    | error fault =>
      rw [more] at ih
      exact (ih.behind isSuffix).failed rfl
    | ok items =>
      exact .ok ((ih.suffix more).trans isSuffix)
  | case4 tokens first behind read others comma long =>
    exact .ok ((suffix_of_eat? comma).trans ((keeps tokens).suffix read))

theorem keeps_enclosed (close : Symbol) : Keeps (enclosed item close) := by
  intro tokens
  unfold enclosed
  split
  next rest closed => exact .ok (suffix_of_eat? closed)
  next =>
    refine (keeps_commaSeparated keeps tokens).bind ?_
    intro items behind
    refine (keeps_expect close behind).bind ?_
    intro span rest
    exact .ok (List.suffix_refl rest)

end Lists

/-! ## One level -/

/-- The readers of a level stay within their tokens. -/
structure Deeper.Keeps (deeper : Deeper) : Prop where
  expression : Surface.Keeps deeper.expression
  operand : Surface.Keeps deeper.operand

namespace Deeper.Keeps

variable {deeper : Deeper} (keeps : deeper.Keeps)

include keeps

theorem creation (start : Span) : Surface.Keeps (creation deeper start) := by
  intro tokens
  refine (keeps_typeName tokens).bind ?_
  intro type rest
  dsimp only
  split
  next behind bracket =>
    refine Stays.behind (suffix_of_eat? bracket) ?_
    refine (keeps_expect .rightBracket behind).bind ?_
    intro right rest
    refine (keeps_expect .leftBrace rest).bind ?_
    intro brace rest
    refine (keeps_enclosed keeps.expression .rightBrace rest).bind ?_
    intro items rest
    exact .ok (List.suffix_refl rest)
  next =>
    refine (keeps_expect .leftParen rest).bind ?_
    intro opening rest
    refine (keeps_enclosed keeps.expression .rightParen rest).bind ?_
    intro arguments rest
    exact .ok (List.suffix_refl rest)

theorem primary : Surface.Keeps (primary deeper) := by
  intro tokens
  have further := advance_suffix tokens
  unfold Surface.primary
  dsimp only
  split
  -- The forms of several tokens come first here: parentheses, creations and types as values.
  case h_8 =>
    refine Stays.behind further ?_
    refine (keeps.expression (advance tokens)).bind ?_
    intro inner rest
    refine (keeps_expect .rightParen rest).bind ?_
    intro close rest
    exact .ok (List.suffix_refl rest)
  case h_9 => exact (keeps.creation _ (advance tokens)).behind further
  case h_10 =>
    refine Stays.behind further ?_
    refine (keeps_expect .leftParen (advance tokens)).bind ?_
    intro opening rest
    refine (keeps_typeName rest).bind ?_
    intro type rest
    refine (keeps_expect .rightParen rest).bind ?_
    intro close rest
    exact .ok (List.suffix_refl rest)
  case h_11 => exact .error (List.suffix_refl tokens) rfl
  case h_12 => exact .error (List.suffix_refl tokens) rfl
  all_goals exact .ok further

theorem postfixStep : KeepsStep (postfixStep deeper) := by
  intro target tokens
  unfold Surface.postfixStep
  split
  next behind isDot =>
    refine Stays.behind (suffix_of_eat? isDot) ?_
    refine (keeps_expectIdentifier behind).bind ?_
    intro name rest
    dsimp only
    split
    next inner isOpening =>
      refine Stays.behind (suffix_of_eat? isOpening) ?_
      refine (keeps_enclosed keeps.expression .rightParen inner).bind ?_
      intro arguments rest
      exact .ok (List.suffix_refl rest)
    next => exact .ok (List.suffix_refl rest)
  next =>
    split
    next inner isOpening =>
      refine Stays.behind (suffix_of_eat? isOpening) ?_
      refine (keeps_enclosed keeps.expression .rightBracket inner).bind ?_
      intro arguments rest
      exact .ok (List.suffix_refl rest)
    next => exact .ok (List.nil_suffix)

theorem postfixExpression : Surface.Keeps (postfixExpression deeper) := by
  intro tokens
  refine (keeps.primary tokens).bind ?_
  exact stays_extend keeps.postfixStep

theorem unaryExpression : Surface.Keeps (unaryExpression deeper) := by
  intro tokens
  unfold Surface.unaryExpression
  dsimp only
  split
  next => exact keeps.postfixExpression tokens
  next operator isOperator =>
    refine Stays.behind (advance_suffix tokens) ?_
    refine (keeps.operand (advance tokens)).bind ?_
    intro operand rest
    exact .ok (List.suffix_refl rest)

omit keeps in
theorem binaryStep {minimum : Nat}
    (tighter : ∀ higher, 7 - higher < 7 - minimum →
      Surface.Keeps (binaryExpression deeper higher)) :
    KeepsStep (binaryStep deeper minimum) := by
  intro left tokens
  have further := advance_suffix tokens
  unfold Surface.binaryStep
  split
  next isTest =>
    split
    · refine Stays.behind further ((keeps_typeName (advance tokens)).bind ?_)
      intro type rest
      exact .ok (List.suffix_refl rest)
    · exact .ok List.nil_suffix
  next isTest =>
    split
    · refine Stays.behind further ((keeps_typeName (advance tokens)).bind ?_)
      intro type rest
      exact .ok (List.suffix_refl rest)
    · exact .ok List.nil_suffix
  next =>
    split
    next => exact .ok List.nil_suffix
    next operator isOperator =>
      split
      next tight =>
        have bound := operator.precedence_le
        refine Stays.behind further ((tighter _ (by omega) (advance tokens)).bind ?_)
        intro right rest
        exact .ok (List.suffix_refl rest)
      next => exact .ok List.nil_suffix

/-- The right operand of an operator is read with a higher minimum, and no operator binds
tighter than 6. -/
theorem binaryExpression (minimum : Nat) :
    Surface.Keeps (binaryExpression deeper minimum) := by
  induction room : 7 - minimum using Nat.strongRecOn generalizing minimum with
  | ind room ih =>
    intro tokens
    cases read : Surface.unaryExpression deeper tokens with
    | error fault =>
      rw [Surface.binaryExpression, read]
      exact (keeps.unaryExpression tokens).failed read
    | ok result =>
      obtain ⟨first, rest⟩ := result
      rw [binaryExpression_of_unary read]
      refine Stays.behind ((keeps.unaryExpression tokens).suffix read) ?_
      refine stays_extend (binaryStep ?_) first rest
      intro higher above
      exact ih _ (room ▸ above) higher rfl

theorem conditionalExpression : Surface.Keeps (conditionalExpression deeper) := by
  intro tokens
  refine (keeps.binaryExpression 1 tokens).bind ?_
  intro test rest
  dsimp only
  split
  next => exact .ok (List.suffix_refl rest)
  next behind isQuestion =>
    refine Stays.behind (suffix_of_eat? isQuestion) ?_
    refine (keeps.expression behind).bind ?_
    intro ifTrue rest
    refine (keeps_expect .colon rest).bind ?_
    intro colon rest
    refine (keeps.expression rest).bind ?_
    intro ifFalse rest
    exact .ok (List.suffix_refl rest)

theorem assignmentExpression : Surface.Keeps (assignmentExpression deeper) := by
  intro tokens
  refine (keeps.conditionalExpression tokens).bind ?_
  intro target rest
  dsimp only
  split
  next => exact .ok (List.suffix_refl rest)
  next behind isEqual =>
    refine Stays.behind (suffix_of_eat? isEqual) ?_
    refine (keeps.expression behind).bind ?_
    intro value rest
    exact .ok (List.suffix_refl rest)

end Deeper.Keeps

/-! ## All levels -/

theorem keeps_tooDeep : Keeps tooDeep := by
  intro tokens
  exact .error (List.suffix_refl tokens) rfl

theorem keeps_levels (depth : Nat) : (levels depth).Keeps := by
  induction depth with
  | zero => exact ⟨keeps_tooDeep, keeps_tooDeep⟩
  | succ depth ih => exact ⟨ih.assignmentExpression, ih.unaryExpression⟩

/-- **Tokens are at fault at the first of those that were not read.** -/
theorem exists_suffix_of_parse_error {tokens : List Token} {fault : ParseFault}
    (failed : parse tokens = .error fault) :
    ∃ rest, rest <:+ withEnd tokens ∧ fault.span = (front rest).span := by
  have whole : Stays (withEnd tokens) (fun _ => []) (parse tokens) := by
    refine ((keeps_levels maxDepth).expression (withEnd tokens)).bind ?_
    intro expression rest
    dsimp only
    split
    · exact .ok List.nil_suffix
    · exact .error (List.suffix_refl rest) rfl
  rw [failed] at whole
  cases whole with
  | error remains place => exact ⟨_, remains, place⟩

theorem inText_empty (text : List Char) : Span.InText ⟨0, 0⟩ text :=
  ⟨⟨[], text, rfl, rfl⟩, ⟨[], text, rfl, rfl⟩⟩

/-- The end behind the tokens of a text is in the text. -/
theorem inText_withEnd {text : List Char} {tokens : List Token}
    (inText : ∀ token ∈ tokens, token.span.InText text) :
    ∀ token ∈ withEnd tokens, token.span.InText text := by
  intro token inside
  rcases List.mem_append.mp inside with isToken | isEnd
  · exact inText token isToken
  · obtain rfl := List.mem_singleton.mp isEnd
    cases isLast : tokens.getLast? with
    | none => exact inText_empty text
    | some last =>
      have lastInText := inText last (List.mem_of_getLast? isLast)
      exact ⟨lastInText.stop, lastInText.stop⟩

/-- Tokens of a text that cannot be read are at fault inside the text. -/
theorem inText_of_parse_error {text : List Char} {tokens : List Token} {fault : ParseFault}
    (inText : ∀ token ∈ tokens, token.span.InText text) (failed : parse tokens = .error fault) :
    fault.span.InText text := by
  obtain ⟨rest, isSuffix, place⟩ := exists_suffix_of_parse_error failed
  rw [place]
  cases rest with
  | nil => exact inText_empty text
  | cons token rest => exact inText_withEnd inText token (isSuffix.subset List.mem_cons_self)

/-! ## Parts of an expression -/

/-- A stretch from one token of a text to another one is in the text. -/
theorem Fits.inText {span : Span} {segment : List Token} {text : List Char}
    (fits : Fits span segment) (inText : ∀ token ∈ segment, token.span.InText text) :
    span.InText text := by
  obtain ⟨first, _, isFirst, start⟩ := fits.exists_first
  obtain ⟨last, _, isLast, stop⟩ := fits.exists_last
  refine ⟨?_, ?_⟩
  · rw [← start]
    exact (inText first isFirst).start
  · rw [← stop]
    exact (inText last isLast).stop

/-- Whatever occurs in an expression was read from inside the text. -/
theorem inText_of_occurs {text : String} {tokens : List Token} {expression : Expression}
    {part : Part} (cut : tokenize text = .ok tokens) (done : parse tokens = .ok expression)
    (occurs : part.Occurs (.expression expression)) : part.span.InText text.toList := by
  obtain ⟨segment, inside, spelled⟩ := exists_segment_of_parse cut done occurs
  refine spelled.fits.inText ?_
  intro token isToken
  exact inText_of_tokenize cut (inside isToken)

end ExprImports.Surface
