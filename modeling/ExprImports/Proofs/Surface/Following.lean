import ExprImports.Proofs.Surface.Counting
import ExprImports.Proofs.Surface.Faults

/-!
# Parsers with and without a counter

A parser that counts the open levels is compared with one that knows how many levels it may still
open. They agree up to the levels beyond a bound: what the parser with the counter gives is the
outcome of the other one unless such a level was opened, and that one is at fault at the first such
level then (`guarded`). Besides, the counter is restored (`Follows`).

**One level.** The relation is kept when one parser follows another (`Follows.bind`) and when a level
is opened and closed again (`Follows.nested`). So it holds of all parsers of a level if it holds of
those of the next deeper one, for all tokens behind the first one (`Deeper.FollowsBelow`).
-/

set_option autoImplicit false

namespace ExprImports.Surface

/-! ## Refused levels -/

/-- The fault at the first level beyond the bound, and the outcome if there is no such level. -/
def guarded {β : Type} (bound : Nat) (opened : List Level) (outcome : Except ParseFault β) :
    Except ParseFault β :=
  match opened.find? fun level => bound < level.number with
  | some level => .error (.tooDeep level.start)
  | none => outcome

section Guarded

variable {α β : Type} {bound : Nat}

theorem guarded_of_le {opened : List Level} {outcome : Except ParseFault β}
    (low : ∀ level ∈ opened, level.number ≤ bound) : guarded bound opened outcome = outcome := by
  have none : opened.find? (fun level => bound < level.number) = none := by
    simpa [List.find?_eq_none] using low
  rw [guarded, none]

theorem guarded_cons_of_lt {level : Level} (high : bound < level.number) (opened : List Level)
    (outcome : Except ParseFault β) :
    guarded bound (level :: opened) outcome = .error (.tooDeep level.start) := by
  simp [guarded, high]

theorem guarded_cons_of_le {level : Level} (low : level.number ≤ bound) (opened : List Level)
    (outcome : Except ParseFault β) :
    guarded bound (level :: opened) outcome = guarded bound opened outcome := by
  simp [guarded, Nat.not_lt.mpr low]

theorem guarded_append (opened later : List Level) (outcome : Except ParseFault β) :
    guarded bound (opened ++ later) outcome =
      guarded bound opened (guarded bound later outcome) := by
  unfold guarded
  rw [List.find?_append]
  cases opened.find? fun level => bound < level.number <;> rfl

theorem guarded_ok_bind (opened : List Level) (value : α) (next : α → Except ParseFault β) :
    (guarded bound opened (.ok value) >>= next) = guarded bound opened (next value) := by
  unfold guarded
  split <;> rfl

theorem guarded_error_bind (opened : List Level) (fault : ParseFault)
    (next : α → Except ParseFault β) :
    (guarded bound opened (.error fault) >>= next) = guarded bound opened (.error fault) := by
  unfold guarded
  split <;> rfl

/-- A run is refused exactly if it opens a level beyond the bound, unless it fails by itself. -/
theorem tooDeep_guarded_iff {opened : List Level} {outcome : Except ParseFault β}
    (free : ∀ span, outcome ≠ .error (.tooDeep span)) :
    (∃ span, guarded bound opened outcome = .error (.tooDeep span)) ↔
      ∃ level ∈ opened, bound < level.number := by
  unfold guarded
  split
  next level found =>
    have high := List.find?_some found
    exact ⟨fun _ => ⟨level, List.mem_of_find?_eq_some found, by simpa using high⟩,
      fun _ => ⟨level.start, rfl⟩⟩
  next none =>
    rw [List.find?_eq_none] at none
    constructor
    · rintro ⟨span, refused⟩
      exact absurd refused (free span)
    · rintro ⟨level, isOpened, high⟩
      exact absurd (by simpa using high) (none level isOpened)

end Guarded

/-! ## Runs of counted computations -/

namespace Counted

variable {α β : Type} {counter later : Counter}

theorem start_untouched (outcome : Except ParseFault α) :
    start (untouched outcome) counter = (outcome, counter) := rfl

theorem start_bind_ok {computation : Counted α} {value : α} (next : α → Counted β)
    (ran : computation.start counter = (.ok value, later)) :
    start (computation >>= next) counter = (next value).start later :=
  run_bind_of_ok next ran

theorem start_bind_error {computation : Counted α} {fault : ParseFault} (next : α → Counted β)
    (ran : computation.start counter = (.error fault, later)) :
    start (computation >>= next) counter = (.error fault, later) :=
  run_bind_of_error next ran

end Counted

/-- A run of a counted computation that starts at a depth, beside the computation that the bound
refuses by itself. What is left is short, and no level is opened beyond the reach. -/
structure Runs {β : Type} (limit : Option Nat) (bound depth reach : Nat) (left : β → List Token)
    (room : Nat) (counted : Counted β) (plain : Except ParseFault β) (before : List Level)
    (outcome : Except ParseFault β) (opened : List Level) : Prop where
  restored : counted.start ⟨depth, before⟩ = (outcome, ⟨depth, before ++ opened⟩)
  agrees : plain = guarded bound opened outcome
  leaves : ∀ value, outcome = .ok value → (left value).length ≤ room
  reaches : ∀ level ∈ opened, level.number ≤ reach
  free : limit = none → ∀ span, outcome ≠ .error (.tooDeep span)
  held : ∀ most ∈ limit, ∀ level ∈ opened, level.number ≤ most

/-- The counted computation restores the counter and does what the other one does, up to the levels
beyond the bound. -/
def Follows {β : Type} (limit : Option Nat) (bound depth reach : Nat) (left : β → List Token)
    (room : Nat) (counted : Counted β) (plain : Except ParseFault β) : Prop :=
  ∀ before, ∃ outcome opened,
    Runs limit bound depth reach left room counted plain before outcome opened

section Follows

variable {α β : Type} {limit : Option Nat} {bound depth reach room within : Nat}
  {left : β → List Token}

namespace Follows

theorem mono {counted : Counted β} {plain : Except ParseFault β}
    (follows : Follows limit bound depth reach left within counted plain) (fits : within ≤ room) :
    Follows limit bound depth reach left room counted plain := by
  intro before
  obtain ⟨outcome, opened, runs⟩ := follows before
  refine ⟨outcome, opened, { runs with leaves := ?_ }⟩
  intro value given
  exact (runs.leaves value given).trans fits

theorem untouched {outcome : Except ParseFault β}
    (leaves : ∀ value, outcome = .ok value → (left value).length ≤ room)
    (free : ∀ span, outcome ≠ .error (.tooDeep span)) :
    Follows limit bound depth reach left room (Counted.untouched outcome) outcome := by
  intro before
  refine ⟨outcome, [], ?_, rfl, leaves, by simp, fun _ => free, by simp⟩
  rw [Counted.start_untouched, List.append_nil]

theorem pure (value : β) (fits : (left value).length ≤ room) :
    Follows limit bound depth reach left room (Pure.pure value) (.ok value) := by
  change Follows limit bound depth reach left room (Counted.untouched (.ok value)) (.ok value)
  refine untouched ?_ (by simp)
  rintro _ ⟨⟩
  exact fits

theorem throw {fault : ParseFault} (free : ∀ span, fault ≠ .tooDeep span) :
    Follows limit bound depth reach left room (MonadExcept.throw fault) (.error fault) := by
  change Follows limit bound depth reach left room (Counted.untouched (.error fault)) _
  refine untouched (by simp) ?_
  rintro span ⟨⟩
  exact free span rfl

/-- A computation goes on in the same way behind one that opens no level. -/
theorem after {outcome : Except ParseFault α} {next : α → Counted β}
    {plainNext : α → Except ParseFault β} (free : ∀ span, outcome ≠ .error (.tooDeep span))
    (further : ∀ value, outcome = .ok value →
      Follows limit bound depth reach left room (next value) (plainNext value)) :
    Follows limit bound depth reach left room (Counted.untouched outcome >>= next)
      (outcome >>= plainNext) := by
  cases outcome with
  | error fault => exact throw fun span same => free span (congrArg _ same)
  | ok value => exact further value rfl

theorem bind {first : Counted α} {plainFirst : Except ParseFault α} {next : α → Counted β}
    {plainNext : α → Except ParseFault β} {behind : α → List Token}
    (follows : Follows limit bound depth reach behind within first plainFirst)
    (further : ∀ value, (behind value).length ≤ within →
      Follows limit bound depth reach left room (next value) (plainNext value)) :
    Follows limit bound depth reach left room (first >>= next) (plainFirst >>= plainNext) := by
  intro before
  obtain ⟨outcome, opened, runs⟩ := follows before
  cases outcome with
  | error fault =>
    refine ⟨.error fault, opened, Counted.start_bind_error next runs.restored, ?_, by simp,
      runs.reaches, ?_, runs.held⟩
    · rw [runs.agrees, guarded_error_bind]
    · rintro unlimited span ⟨⟩
      exact runs.free unlimited span rfl
  | ok value =>
    obtain ⟨outcome, later, runsOn⟩ := further value (runs.leaves value rfl) (before ++ opened)
    refine ⟨outcome, opened ++ later, ?_, ?_, runsOn.leaves, ?_, runsOn.free, ?_⟩
    · rw [Counted.start_bind_ok next runs.restored, ← List.append_assoc]
      exact runsOn.restored
    · rw [runs.agrees, guarded_ok_bind, guarded_append, ← runsOn.agrees]
    · intro level isOpened
      exact (List.mem_append.mp isOpened).elim (runs.reaches level) (runsOn.reaches level)
    · intro most isLimit level isOpened
      exact (List.mem_append.mp isOpened).elim (runs.held most isLimit level)
        (runsOn.held most isLimit level)

end Follows

theorem start_nested_refused {start : Span} {inside : Counted α} {before : List Level}
    (refused : limit.any (· ≤ depth) = true) :
    (Counting.nested limit start inside).start ⟨depth, before⟩ =
      (.error (.tooDeep start), ⟨depth, before⟩) :=
  if_pos refused

theorem start_nested {start : Span} {inside : Counted α} {before opened : List Level}
    {outcome : Except ParseFault α} (allowed : ¬ limit.any (· ≤ depth) = true)
    (ran : inside.start ⟨depth + 1, before ++ [⟨depth + 1, start⟩]⟩ =
      (outcome, ⟨depth + 1, opened⟩)) :
    (Counting.nested limit start inside).start ⟨depth, before⟩ = (outcome, ⟨depth, opened⟩) := by
  have left := congrArg (fun result => (result.1, result.2.leave)) ran
  exact (if_neg allowed).trans left

/-- A level follows one that is allowed by the bound. The limit is the bound if there is one. -/
theorem Follows.nested {start : Span} {inside : Counted (Expression × List Token)} {deep : Nat}
    {plain : Except ParseFault (Expression × List Token)} (isBound : ∀ most ∈ limit, most = bound)
    (follows : Follows limit bound (depth + 1) deep Prod.snd room inside plain)
    (above : depth + 1 ≤ reach) (below : deep ≤ reach) :
    Follows limit bound depth reach Prod.snd room (Counting.nested limit start inside)
      (if depth < bound then plain else .error (.tooDeep start)) := by
  intro before
  by_cases refused : limit.any (· ≤ depth) = true
  · obtain ⟨most, isLimit, low⟩ := (Option.any_eq_true _ _).mp refused
    obtain rfl := isBound most isLimit
    have full : most ≤ depth := by simpa using low
    refine ⟨.error (.tooDeep start), [], ?_, ?_, by simp, by simp, ?_, by simp⟩
    · rw [start_nested_refused refused, List.append_nil]
    · rw [if_neg (Nat.not_lt.mpr full)]
      rfl
    · intro unlimited
      simp [unlimited] at isLimit
  · obtain ⟨outcome, opened, runs⟩ := follows (before ++ [⟨depth + 1, start⟩])
    have low : ∀ most ∈ limit, depth + 1 ≤ most := by
      intro most isLimit
      by_contra small
      exact refused ((Option.any_eq_true _ _).mpr
        ⟨most, isLimit, decide_eq_true (Nat.not_lt.mp small)⟩)
    refine ⟨outcome, ⟨depth + 1, start⟩ :: opened, ?_, ?_, runs.leaves, ?_, runs.free, ?_⟩
    · rw [start_nested refused runs.restored, List.append_assoc, List.singleton_append]
    · split
      next fits => rw [guarded_cons_of_le fits, runs.agrees]
      next full => rw [guarded_cons_of_lt (Nat.lt_succ_of_le (Nat.not_lt.mp full))]
    · refine List.forall_mem_cons.mpr ⟨above, ?_⟩
      intro level isOpened
      exact (runs.reaches level isOpened).trans below
    · intro most isLimit
      exact List.forall_mem_cons.mpr ⟨low most isLimit, runs.held most isLimit⟩

end Follows

/-! ## Single tokens -/

theorem length_of_eat? {symbol : Symbol} {tokens rest : List Token}
    (done : eat? symbol tokens = some rest) : rest.length < tokens.length := by
  obtain ⟨place, rfl⟩ := exists_of_eat? done
  exact Nat.lt_succ_self _

theorem length_advance {tokens : List Token} (inside : (front tokens).kind ≠ .endOfText) :
    (advance tokens).length < tokens.length := by
  have whole := congrArg List.length (eq_of_front rfl inside)
  rw [List.length_cons] at whole
  exact whole ▸ Nat.lt_succ_self _

theorem length_of_expect {symbol : Symbol} {tokens : List Token} {result : Span × List Token}
    (done : expect symbol tokens = .ok result) : result.2.length < tokens.length := by
  have whole := congrArg List.length (eq_of_expect done)
  exact whole ▸ Nat.lt_succ_self _

theorem length_of_expectIdentifier {tokens : List Token} {result : (String × Span) × List Token}
    (done : expectIdentifier tokens = .ok result) : result.2.length < tokens.length := by
  have whole := congrArg List.length (eq_of_expectIdentifier done)
  exact whole ▸ Nat.lt_succ_self _

theorem length_of_typeName {tokens : List Token} {result : TypeName × List Token}
    (done : typeName tokens = .ok result) : result.2.length < tokens.length := by
  obtain ⟨name, isName, parts⟩ := exists_of_bind_eq_ok done
  cases parts
  exact (typeNameParts_suffix _ _).length_le.trans_lt (length_of_expectIdentifier isName)

theorem expect_ne_tooDeep (symbol : Symbol) (tokens : List Token) (span : Span) :
    expect symbol tokens ≠ .error (.tooDeep span) := by
  unfold expect
  dsimp only
  split
  · simp
  · split <;> simp

theorem expectIdentifier_ne_tooDeep (tokens : List Token) (span : Span) :
    expectIdentifier tokens ≠ .error (.tooDeep span) := by
  unfold expectIdentifier
  dsimp only
  split <;> simp

theorem typeName_ne_tooDeep (tokens : List Token) (span : Span) :
    typeName tokens ≠ .error (.tooDeep span) := by
  unfold typeName
  cases read : expectIdentifier tokens with
  | error fault =>
    rintro ⟨⟩
    exact expectIdentifier_ne_tooDeep tokens span read
  | ok name => simp [bind, Except.bind, pure, Except.pure]

/-! ## Lists and repetition -/

theorem commaSeparated_eq_bind (item : Parse Expression) (tokens : List Token) :
    commaSeparated item tokens = item tokens >>= fun result =>
      match eat? .comma result.2 with
      | none => .ok ([result.1], result.2)
      | some rest =>
        if rest.length < tokens.length then
          commaSeparated item rest >>= fun others => .ok (result.1 :: others.1, others.2)
        else .ok ([result.1], rest) := by
  rw [commaSeparated]
  cases item tokens with
  | error fault => rfl
  | ok result =>
    dsimp only [bind, Except.bind]
    cases eat? .comma result.2 with
    | none => rfl
    | some rest =>
      dsimp only
      split
      next => cases commaSeparated item rest <;> rfl
      next => rfl

theorem extend_eq_bind
    (step : Expression → List Token → Except ParseFault (Option (Expression × List Token)))
    (value : Expression) (tokens : List Token) :
    extend step value tokens = step value tokens >>= fun result =>
      match result with
      | none => .ok (value, tokens)
      | some longer =>
        if longer.2.length < tokens.length then extend step longer.1 longer.2
        else .ok (longer.1, longer.2) := by
  rw [extend]
  cases step value tokens with
  | error fault => rfl
  | ok result => cases result <;> rfl

section Lists

variable {limit : Option Nat} {bound depth reach width : Nat}

/-- The first reader follows the second one on all lists of tokens that are shorter than the
width. -/
def FollowsBelow (limit : Option Nat) (bound depth reach width : Nat)
    (reader : CountedParse Expression) (plain : Parse Expression) : Prop :=
  ∀ tokens, tokens.length < width →
    Follows limit bound depth reach Prod.snd tokens.length (reader tokens) (plain tokens)

/-- The first step follows the second one on all lists of tokens of at most the width. -/
def StepFollows (limit : Option Nat) (bound depth reach width : Nat)
    (step : Expression → List Token → Counted (Option (Expression × List Token)))
    (plain : Expression → List Token → Except ParseFault (Option (Expression × List Token))) :
    Prop :=
  ∀ value tokens, tokens.length ≤ width →
    Follows limit bound depth reach leftBehind tokens.length (step value tokens)
      (plain value tokens)

theorem StepFollows.extend
    {step : Expression → List Token → Counted (Option (Expression × List Token))}
    {plain : Expression → List Token → Except ParseFault (Option (Expression × List Token))}
    (follows : StepFollows limit bound depth reach width step plain) (value : Expression)
    (tokens : List Token) (short : tokens.length ≤ width) :
    Follows limit bound depth reach Prod.snd tokens.length (Counting.extend step value tokens)
      (Surface.extend plain value tokens) := by
  induction size : tokens.length using Nat.strongRecOn generalizing value tokens with
  | ind size ih =>
    subst size
    rw [Counting.extend, extend_eq_bind]
    refine (follows value tokens short).bind ?_
    rintro (_ | ⟨longer, rest⟩) shorter
    · exact .pure _ le_rfl
    · dsimp only
      by_cases less : rest.length < tokens.length
      · rw [if_pos less, if_pos less]
        exact (ih _ less longer rest (less.le.trans short) rfl).mono less.le
      · rw [if_neg less, if_neg less]
        exact .pure _ shorter

theorem FollowsBelow.commaSeparated {item : CountedParse Expression} {plain : Parse Expression}
    (follows : FollowsBelow limit bound depth reach width item plain) (tokens : List Token)
    (short : tokens.length < width) :
    Follows limit bound depth reach Prod.snd tokens.length (Counting.commaSeparated item tokens)
      (Surface.commaSeparated plain tokens) := by
  induction size : tokens.length using Nat.strongRecOn generalizing tokens with
  | ind size ih =>
    subst size
    rw [Counting.commaSeparated, commaSeparated_eq_bind]
    refine (follows tokens short).bind ?_
    rintro ⟨first, behind⟩ shorter
    dsimp only
    cases comma : eat? .comma behind with
    | none => exact .pure _ shorter
    | some rest =>
      dsimp only
      have less := (length_of_eat? comma).trans_le shorter
      rw [if_pos less, if_pos less]
      refine ((ih _ less rest (less.trans short) rfl).mono less.le).bind ?_
      rintro ⟨others, rest⟩ shorter
      exact .pure _ shorter

/-- Where the first reader follows the second one behind the tokens, it does so for items up to a
closing symbol. -/
theorem FollowsBelow.enclosed {item : CountedParse Expression} {plain : Parse Expression}
    (follows : FollowsBelow limit bound depth reach width item plain) (close : Symbol)
    (tokens : List Token) (short : tokens.length < width) :
    Follows limit bound depth reach Prod.snd tokens.length (Counting.enclosed item close tokens)
      (Surface.enclosed plain close tokens) := by
  unfold Counting.enclosed Surface.enclosed
  cases closed : eat? close tokens with
  | some rest => exact .pure _ (length_of_eat? closed).le
  | none =>
    refine (follows.commaSeparated tokens short).bind ?_
    rintro ⟨items, behind⟩ shorter
    refine .after (expect_ne_tooDeep close behind) ?_
    rintro ⟨span, rest⟩ closing
    exact .pure _ ((length_of_expect closing).le.trans shorter)

end Lists

/-! ## One level -/

/-- The counted parsers of a level follow the parsers of another one on all lists of tokens that are
shorter than the width. -/
structure Deeper.FollowsBelow (limit : Option Nat) (bound depth reach width : Nat)
    (counting : Counting.Deeper) (plain : Deeper) : Prop where
  expression :
    Surface.FollowsBelow limit bound depth reach width counting.expression plain.expression
  operand : Surface.FollowsBelow limit bound depth reach width counting.operand plain.operand

namespace Deeper.FollowsBelow

variable {limit : Option Nat} {bound depth reach width : Nat} {counting : Counting.Deeper}
  {plain : Deeper}

variable (follows : Deeper.FollowsBelow limit bound depth reach width counting plain)

include follows

theorem creation (start : Span) (tokens : List Token) (short : tokens.length ≤ width) :
    Follows limit bound depth reach Prod.snd tokens.length
      (Counting.creation counting start tokens) (Surface.creation plain start tokens) := by
  refine .after (typeName_ne_tooDeep tokens) ?_
  rintro ⟨type, rest⟩ isName
  have named : rest.length < tokens.length := length_of_typeName isName
  dsimp only
  cases bracket : eat? .leftBracket rest with
  | some inside =>
    have opened := length_of_eat? bracket
    refine .after (expect_ne_tooDeep .rightBracket inside) ?_
    rintro ⟨right, behind⟩ isRight
    have closed : behind.length < inside.length := length_of_expect isRight
    refine .after (expect_ne_tooDeep .leftBrace behind) ?_
    rintro ⟨brace, items⟩ isBrace
    have entered : items.length < behind.length := length_of_expect isBrace
    refine (follows.expression.enclosed .rightBrace items (by omega)).bind ?_
    rintro ⟨items, rest⟩ shorter
    exact .pure _ (shorter.trans (by omega))
  | none =>
    refine .after (expect_ne_tooDeep .leftParen rest) ?_
    rintro ⟨parenthesis, arguments⟩ isOpening
    have entered : arguments.length < rest.length := length_of_expect isOpening
    refine (follows.expression.enclosed .rightParen arguments (by omega)).bind ?_
    rintro ⟨arguments, rest⟩ shorter
    exact .pure _ (shorter.trans (by omega))

theorem primary (tokens : List Token) (short : tokens.length ≤ width) :
    Follows limit bound depth reach Prod.snd tokens.length
      (Counting.primary counting tokens) (Surface.primary plain tokens) := by
  have further := (advance_suffix tokens).length_le
  unfold Counting.primary Surface.primary
  dsimp only
  cases isKind : (front tokens).kind with
  | integer | floating | text | identifier => exact .pure _ further
  | endOfText => exact .throw (by simp)
  | keyword word =>
    have passed := length_advance (isKind ▸ by simp : (front tokens).kind ≠ .endOfText)
    cases word
    case new =>
      exact (follows.creation _ (advance tokens) (by omega)).mono further
    case typeOf =>
      refine .after (expect_ne_tooDeep .leftParen (advance tokens)) ?_
      rintro ⟨parenthesis, name⟩ isOpening
      have entered : name.length < (advance tokens).length := length_of_expect isOpening
      refine .after (typeName_ne_tooDeep name) ?_
      rintro ⟨type, rest⟩ isName
      have named : rest.length < name.length := length_of_typeName isName
      refine .after (expect_ne_tooDeep .rightParen rest) ?_
      rintro ⟨close, rest⟩ isClosing
      exact .pure _ ((length_of_expect isClosing).le.trans (by dsimp only; omega))
    case is => exact .throw (by simp)
    case as => exact .throw (by simp)
    all_goals exact .pure _ further
  | symbol symbol =>
    have passed := length_advance (isKind ▸ by simp : (front tokens).kind ≠ .endOfText)
    cases symbol
    case leftParen =>
      refine (follows.expression (advance tokens) (by omega)).bind ?_
      rintro ⟨inner, rest⟩ shorter
      refine .after (expect_ne_tooDeep .rightParen rest) ?_
      rintro ⟨close, behind⟩ isClosing
      have closed : behind.length < rest.length := length_of_expect isClosing
      exact .pure _ (closed.le.trans (shorter.trans further))
    all_goals exact .throw (by simp)

theorem postfixStep :
    StepFollows limit bound depth reach width (Counting.postfixStep counting)
      (Surface.postfixStep plain) := by
  intro target tokens short
  unfold Counting.postfixStep Surface.postfixStep
  cases isDot : eat? .dot tokens with
  | some behind =>
    have passed := length_of_eat? isDot
    refine .after (expectIdentifier_ne_tooDeep behind) ?_
    rintro ⟨name, rest⟩ isName
    have named : rest.length < behind.length := length_of_expectIdentifier isName
    dsimp only
    cases isOpening : eat? .leftParen rest with
    | some inside =>
      have entered := length_of_eat? isOpening
      refine (follows.expression.enclosed .rightParen inside (by omega)).bind ?_
      rintro ⟨arguments, rest⟩ shorter
      exact .pure _ (shorter.trans (by omega))
    | none => exact .pure _ (by dsimp only [leftBehind]; omega)
  | none =>
    cases isOpening : eat? .leftBracket tokens with
    | some inside =>
      have entered := length_of_eat? isOpening
      refine (follows.expression.enclosed .rightBracket inside (by omega)).bind ?_
      rintro ⟨arguments, rest⟩ shorter
      exact .pure _ (shorter.trans (by omega))
    | none => exact .pure _ (Nat.zero_le _)

theorem postfixExpression (tokens : List Token) (short : tokens.length ≤ width) :
    Follows limit bound depth reach Prod.snd tokens.length
      (Counting.postfixExpression counting tokens) (Surface.postfixExpression plain tokens) := by
  refine (follows.primary tokens short).bind ?_
  rintro ⟨target, rest⟩ shorter
  exact (follows.postfixStep.extend target rest (shorter.trans short)).mono shorter

theorem unaryExpression (tokens : List Token) (short : tokens.length ≤ width) :
    Follows limit bound depth reach Prod.snd tokens.length
      (Counting.unaryExpression counting tokens) (Surface.unaryExpression plain tokens) := by
  unfold Counting.unaryExpression Surface.unaryExpression
  dsimp only
  cases isPrefix : prefixOperator? (front tokens).kind with
  | none => exact follows.postfixExpression tokens short
  | some operator =>
    have sign := prefixOperator?_eq_some_iff.mp isPrefix
    have passed := length_advance (sign ▸ by simp : (front tokens).kind ≠ .endOfText)
    refine (follows.operand (advance tokens) (by omega)).bind ?_
    rintro ⟨operand, rest⟩ shorter
    exact .pure _ (shorter.trans (by omega))

omit follows in
theorem binaryStep {minimum : Nat}
    {tighter : (higher : Nat) → minimum < higher → higher ≤ 7 → CountedParse Expression}
    (ih : ∀ higher above most tokens, tokens.length ≤ width →
      Follows limit bound depth reach Prod.snd tokens.length (tighter higher above most tokens)
        (Surface.binaryExpression plain higher tokens)) :
    StepFollows limit bound depth reach width (Counting.binaryStep minimum tighter)
      (Surface.binaryStep plain minimum) := by
  intro left tokens short
  have further := (advance_suffix tokens).length_le
  have test (make : TypeName → Expression) :
      Follows limit bound depth reach leftBehind tokens.length
        (if minimum ≤ typeTestPrecedence then do
          let name ← Counted.untouched (typeName (advance tokens))
          return some (make name.1, name.2)
        else return none)
        (if minimum ≤ typeTestPrecedence then do
          let name ← typeName (advance tokens)
          return some (make name.1, name.2)
        else .ok none) := by
    split
    · refine .after (typeName_ne_tooDeep (advance tokens)) ?_
      rintro ⟨type, rest⟩ isName
      exact .pure _ ((length_of_typeName isName).le.trans further)
    · exact .pure _ (Nat.zero_le _)
  unfold Counting.binaryStep Surface.binaryStep
  cases (front tokens).kind with
  | integer | floating | text | identifier | endOfText => exact .pure _ (Nat.zero_le _)
  | keyword word =>
    cases word
    case is => exact test fun type => .typeIs left type (left.span.cover type.span)
    case as => exact test fun type => .typeAs left type (left.span.cover type.span)
    all_goals exact .pure _ (Nat.zero_le _)
  | symbol symbol =>
    dsimp only
    cases binaryOperator? (.symbol symbol) with
    | none => exact .pure _ (Nat.zero_le _)
    | some operator =>
      dsimp only
      split
      · refine (ih _ _ _ (advance tokens) (further.trans short)).bind ?_
        rintro ⟨right, rest⟩ shorter
        exact .pure _ (shorter.trans further)
      · exact .pure _ (Nat.zero_le _)

theorem binaryExpression (minimum : Nat) (tokens : List Token) (short : tokens.length ≤ width) :
    Follows limit bound depth reach Prod.snd tokens.length
      (Counting.binaryExpression counting minimum tokens)
      (Surface.binaryExpression plain minimum tokens) := by
  induction room : 7 - minimum using Nat.strongRecOn generalizing minimum tokens with
  | ind room ih =>
    rw [Counting.binaryExpression, Surface.binaryExpression]
    refine (follows.unaryExpression tokens short).bind ?_
    rintro ⟨first, rest⟩ shorter
    refine ((binaryStep ?_).extend first rest (shorter.trans short)).mono shorter
    intro higher above most tokens short
    exact ih _ (by omega) higher tokens short rfl

theorem conditionalExpression (tokens : List Token) (short : tokens.length ≤ width) :
    Follows limit bound depth reach Prod.snd tokens.length
      (Counting.conditionalExpression counting tokens)
      (Surface.conditionalExpression plain tokens) := by
  refine (follows.binaryExpression 1 tokens short).bind ?_
  rintro ⟨test, rest⟩ shorter
  have shorter : rest.length ≤ tokens.length := shorter
  dsimp only
  cases isQuestion : eat? .question rest with
  | none => exact .pure _ shorter
  | some behind =>
    have passed := length_of_eat? isQuestion
    refine (follows.expression behind (by omega)).bind ?_
    rintro ⟨ifTrue, rest⟩ shorter
    have shorter : rest.length ≤ behind.length := shorter
    refine .after (expect_ne_tooDeep .colon rest) ?_
    rintro ⟨colon, other⟩ isColon
    have separated : other.length < rest.length := length_of_expect isColon
    refine (follows.expression other (by omega)).bind ?_
    rintro ⟨ifFalse, rest⟩ shorter
    exact .pure _ (shorter.trans (by omega))

theorem assignmentExpression (tokens : List Token) (short : tokens.length ≤ width) :
    Follows limit bound depth reach Prod.snd tokens.length
      (Counting.assignmentExpression counting tokens)
      (Surface.assignmentExpression plain tokens) := by
  refine (follows.conditionalExpression tokens short).bind ?_
  rintro ⟨target, rest⟩ shorter
  have shorter : rest.length ≤ tokens.length := shorter
  dsimp only
  cases isEqual : eat? .equal rest with
  | none => exact .pure _ shorter
  | some behind =>
    have passed := length_of_eat? isEqual
    refine (follows.expression behind (by omega)).bind ?_
    rintro ⟨value, rest⟩ shorter
    exact .pure _ (shorter.trans (by omega))

end Deeper.FollowsBelow

end ExprImports.Surface
