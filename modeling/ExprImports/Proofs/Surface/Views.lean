import ExprImports.Proofs.Surface.Cursor
import ExprImports.Proofs.Surface.Following

/-!
# Tokens under a cursor and tokens that are left

A parser that moves a cursor over tokens is compared with one that hands on the tokens that are
left. The cursor finds an end behind the tokens of a text, and an end is listed behind them as well,
but the two may be at different places (`View`). Then both parsers have the same outcome, apart from
the place of a fault at the end, and the cursor never passes the end (`View.Agrees`).

**Readers.** The relation is kept when one reader follows another (`View.Agrees.bind`), when a
symbol is passed (`View.Agrees.eat`) and when a token is taken (`View.Agrees.next`). Both ways of
moving the cursor need a token of the text: `next` stops at an end, and no symbol that is passed is
one. The reader of a name looks behind the token at the cursor, so it may meet the end of the text
there; that is no identifier in either view (`View.part_iff`).
-/

set_option autoImplicit false

namespace ExprImports.Surface

/-! ## Faults inside and at the end -/

/-- The fault is found at the token. -/
def ParseFault.IsAt (token : Token) : ParseFault → Prop
  | .unexpectedToken found | .expected found _ | .expectedIdentifier found => found = token
  | .tooDeep span => span = token.span
  | .unexpectedEnd _ => False

/-- The same fault: at a token of the text, or at its end. The end has the first place for the one
fault and the second place for the other. -/
inductive SameFault (text : List Token) (first second : Span) : ParseFault → ParseFault → Prop
  | token {fault : ParseFault} {token : Token} :
      token ∈ text → fault.IsAt token → SameFault text first second fault fault
  | unexpectedEnd : SameFault text first second (.unexpectedEnd first) (.unexpectedEnd second)
  | tooDeep : SameFault text first second (.tooDeep first) (.tooDeep second)

/-- The same value, or the same fault. -/
inductive SameOutcome {α : Type} (text : List Token) (first second : Span) :
    Except ParseFault α → Except ParseFault α → Prop
  | ok (value : α) : SameOutcome text first second (.ok value) (.ok value)
  | error {fault other : ParseFault} :
      SameFault text first second fault other →
        SameOutcome text first second (.error fault) (.error other)

theorem SameOutcome.eq {α : Type} {text : List Token} {place : Span}
    {first second : Except ParseFault α} (same : SameOutcome text place place first second) :
    first = second := by
  cases same with
  | ok value => rfl
  | error same => cases same <;> rfl

/-! ## Views of a text -/

/-- Tokens before an end in two views: as the cursor finds them among the tokens that are given, and
as they are listed with an end behind them. The end need not have the same place in both. -/
structure View where
  tokens : List Token
  text : List Token
  shown : Span
  listed : Span
  further : List Token
  inside : Inside text
  begins : text <+: tokens
  ends : tokenAt tokens text.length = ⟨.endOfText, shown⟩

namespace View

variable (view : View)

/-- What is listed from a place on. -/
def rest (place : Nat) : List Token :=
  view.text.drop place ++ ⟨.endOfText, view.listed⟩ :: view.further

/-- The cursor never passed the end. -/
def Holds (cursor : Cursor) : Prop :=
  cursor.place ≤ view.text.length ∧ cursor.furthest ≤ view.text.length

/-- What stands at a place in both views. -/
inductive Stands (place : Nat) : Prop
  | token (token : Token) :
      token ∈ view.text → token.kind ≠ .endOfText → place + 1 ≤ view.text.length →
        tokenAt view.tokens place = token → view.rest place = token :: view.rest (place + 1) →
          Stands place
  | ends :
      tokenAt view.tokens place = ⟨.endOfText, view.shown⟩ →
        view.rest place = ⟨.endOfText, view.listed⟩ :: view.further → Stands place

theorem stands {place : Nat} (low : place ≤ view.text.length) : view.Stands place := by
  rcases low.lt_or_eq with inside | rfl
  · have isToken : view.text[place] ∈ view.text := List.getElem_mem inside
    refine .token view.text[place] isToken (view.inside _ isToken) inside ?_ ?_
    · have found : view.tokens[place]? = some view.text[place] := by
        rw [view.begins.getElem inside, List.getElem?_eq_getElem]
      rw [tokenAt, found, Option.getD_some]
    · rw [rest, List.drop_eq_getElem_cons inside]
      rfl
  · refine .ends view.ends ?_
    rw [rest, List.drop_length, List.nil_append]

/-- Where no end is listed, the cursor finds the token that is listed, and has a place to go to. -/
theorem at_front {place : Nat} (low : place ≤ view.text.length)
    (inside : (front (view.rest place)).kind ≠ .endOfText) :
    tokenAt view.tokens place = front (view.rest place) ∧ place + 1 ≤ view.text.length ∧
      advance (view.rest place) = view.rest (place + 1) := by
  cases view.stands low with
  | token token isToken notEnd further shows lists =>
    rw [shows, lists]
    exact ⟨rfl, further, advance_cons notEnd⟩
  | ends shows lists =>
    rw [lists] at inside
    exact absurd rfl inside

theorem kind_tokenAt {place : Nat} (low : place ≤ view.text.length) :
    (tokenAt view.tokens place).kind = (front (view.rest place)).kind := by
  cases view.stands low with
  | token token isToken inside further shows lists =>
    rw [shows, lists]
    rfl
  | ends shows lists =>
    rw [shows, lists]
    rfl

theorem Holds.moved {view : View} {cursor : Cursor} (holds : view.Holds cursor)
    (inside : cursor.place + 1 ≤ view.text.length) : view.Holds cursor.moved :=
  ⟨inside, Nat.max_le.mpr ⟨holds.2, inside⟩⟩

theorem length_rest {place : Nat} (low : place ≤ view.text.length) :
    (view.rest place).length + place = view.text.length + 1 + view.further.length := by
  simp only [rest, List.length_append, List.length_drop, List.length_cons]
  omega

/-- The cursor moves on just when the list gets shorter. -/
theorem shorter_iff {place behind : Nat} (low : place ≤ view.text.length)
    (lowBehind : behind ≤ view.text.length) :
    view.tokens.length - behind < view.tokens.length - place ↔
      (view.rest behind).length < (view.rest place).length := by
  have begins := view.begins.length_le
  have before := view.length_rest low
  have after := view.length_rest lowBehind
  omega

/-! ## Agreement -/

/-- A run of a moving computation does not pass the end and has the outcome of the other one. What
is left behind a value is related. -/
inductive Agrees {α β : Type} (left : α → Cursor → β → Prop) :
    Except ParseFault α × Cursor → Except ParseFault β → Prop
  | ok {value : α} {later : Cursor} {result : β} :
      view.Holds later → left value later result → Agrees left (.ok value, later) (.ok result)
  | error {fault other : ParseFault} {later : Cursor} :
      view.Holds later → SameFault view.text view.shown view.listed fault other →
        Agrees left (.error fault, later) (.error other)

/-- The value is read, and the tokens from the cursor on are left. -/
def Reads {α : Type} (value : α) (later : Cursor) (result : α × List Token) : Prop :=
  result = (value, view.rest later.place)

/-- A step is made in both views or in none. -/
inductive Steps {α : Type} (cursor : Cursor) :
    Option α → Cursor → Option (α × List Token) → Prop
  | stop : Steps cursor none cursor none
  | more {longer : α} {later : Cursor} :
      Steps cursor (some longer) later (some (longer, view.rest later.place))

/-- The moving computation reads what the reader reads. -/
def Matches {α : Type} (computation : Moving α) (reader : Parse α) : Prop :=
  ∀ cursor, view.Holds cursor →
    view.Agrees view.Reads (computation.start cursor) (reader (view.rest cursor.place))

/-- The moving step is made just when the other one is. -/
def StepMatches (step : Expression → Moving (Option Expression))
    (plain : Expression → List Token → Except ParseFault (Option (Expression × List Token))) :
    Prop :=
  ∀ value cursor, view.Holds cursor →
    view.Agrees (view.Steps cursor) ((step value).start cursor)
      (plain value (view.rest cursor.place))

variable {view}

section Agreement

variable {α β γ δ : Type} {left : α → Cursor → γ → Prop} {cursor : Cursor}

theorem Agrees.exists_of_ok {run : Except ParseFault α × Cursor} {result : γ}
    (agrees : view.Agrees left run (.ok result)) :
    ∃ value later, run = (.ok value, later) ∧ view.Holds later ∧ left value later result := by
  cases agrees with
  | ok holds same => exact ⟨_, _, rfl, holds, same⟩

theorem Agrees.bind {first : Moving β} {plain : Except ParseFault δ}
    {next : β → Moving α} {plainNext : δ → Except ParseFault γ} {between : β → Cursor → δ → Prop}
    (agrees : view.Agrees between (first.start cursor) plain)
    (further : ∀ value later result, view.Holds later → between value later result →
      view.Agrees left ((next value).start later) (plainNext result)) :
    view.Agrees left (Moving.start (first >>= next) cursor) (plain >>= plainNext) := by
  cases ran : first.start cursor with
  | mk outcome later =>
    rw [ran] at agrees
    cases agrees with
    | ok holds same =>
      rw [Moving.start_bind_ok next ran]
      exact further _ _ _ holds same
    | error holds same =>
      rw [Moving.start_bind_error next ran]
      exact .error holds same

/-- A symbol is passed in both views or in none. -/
theorem Agrees.eat {symbol : Symbol} {passed kept : Moving α} {plain : Except ParseFault γ}
    (holds : view.Holds cursor)
    (found : ∀ later, view.Holds later →
      eat? symbol (view.rest cursor.place) = some (view.rest later.place) →
        view.Agrees left (passed.start later) plain)
    (missed : eat? symbol (view.rest cursor.place) = none →
      view.Agrees left (kept.start cursor) plain) :
    view.Agrees left
      (Moving.start (do if ← Moving.eat view.tokens symbol then passed else kept) cursor)
      plain := by
  have sameKind := view.kind_tokenAt holds.1
  by_cases isSymbol : (front (view.rest cursor.place)).kind = .symbol symbol
  · obtain ⟨-, further, behind⟩ := view.at_front holds.1 (by simp [isSymbol])
    rw [Moving.start_eat_of_eq passed kept (sameKind.trans isSymbol)]
    refine found _ (holds.moved further) ?_
    rw [eat?, if_pos isSymbol, behind]
    rfl
  · rw [Moving.start_eat_of_ne passed kept (sameKind ▸ isSymbol)]
    exact missed (eat?_eq_none isSymbol)

/-- A token that is no end is taken in both views. -/
theorem Agrees.next {next : Token → Moving α} {plain : Except ParseFault γ}
    (holds : view.Holds cursor) (inside : (front (view.rest cursor.place)).kind ≠ .endOfText)
    (taken : view.Holds cursor.moved →
      advance (view.rest cursor.place) = view.rest cursor.moved.place →
        view.Agrees left ((next (front (view.rest cursor.place))).start cursor.moved) plain) :
    view.Agrees left (Moving.start (Moving.next view.tokens >>= next) cursor) plain := by
  obtain ⟨shows, further, behind⟩ := view.at_front holds.1 inside
  rw [Moving.start_next_of_ne next (shows ▸ inside), shows]
  exact taken (holds.moved further) behind

/-- A loop goes on in both views or in none: the one sees that the cursor was moved on in its place,
the other one in the length of what is left. -/
theorem Agrees.loop {place : Nat} (low : place ≤ view.text.length) (holds : view.Holds cursor)
    {again stop : Moving α} {plainAgain plainStop : Except ParseFault γ}
    (goesOn : (view.rest cursor.place).length < (view.rest place).length →
      view.Agrees left (again.start cursor) plainAgain)
    (stops : view.Agrees left (stop.start cursor) plainStop) :
    view.Agrees left
      (Moving.start (if view.tokens.length - cursor.place < view.tokens.length - place then again
        else stop) cursor)
      (if (view.rest cursor.place).length < (view.rest place).length then plainAgain
        else plainStop) := by
  have shorter := view.shorter_iff low holds.1
  by_cases less : (view.rest cursor.place).length < (view.rest place).length
  · rw [if_pos less, if_pos (shorter.mpr less)]
    exact goesOn less
  · rw [if_neg less, if_neg (mt shorter.mp less)]
    exact stops

end Agreement

/-! ## Single tokens -/

theorem matches_expect (symbol : Symbol) :
    view.Matches (Moving.expect view.tokens symbol) (expect symbol) := by
  intro cursor holds
  unfold Moving.expect
  cases view.stands holds.1 with
  | token token isToken inside further shows lists =>
    rw [Moving.start_next_of_ne _ (shows ▸ inside), shows, lists]
    have noEnd : token.isEnd = false := by simpa [Token.isEnd] using inside
    by_cases isSymbol : token.kind = .symbol symbol
    · rw [expect_cons isSymbol, if_pos isSymbol]
      exact .ok (holds.moved further) rfl
    · simp only [expect, front, isSymbol, noEnd, if_false, Bool.false_eq_true]
      exact .error (holds.moved further) (.token isToken rfl)
  | ends shows lists =>
    rw [Moving.start_next_of_eq _ (by rw [shows]), shows, lists]
    exact .error holds .unexpectedEnd

theorem matches_expectIdentifier :
    view.Matches (Moving.expectIdentifier view.tokens) expectIdentifier := by
  intro cursor holds
  unfold Moving.expectIdentifier
  cases view.stands holds.1 with
  | token token isToken inside further shows lists =>
    rw [Moving.start_next_of_ne _ (shows ▸ inside), shows, lists]
    have passed := holds.moved further
    unfold expectIdentifier
    rw [advance_cons inside]
    cases isKind : token.kind with
    | identifier name =>
      simp only [front, isKind]
      exact .ok passed rfl
    | endOfText => exact absurd isKind inside
    | _ =>
      simp only [front, isKind]
      exact .error passed (.token isToken rfl)
  | ends shows lists =>
    rw [Moving.start_next_of_eq _ (by rw [shows]), shows, lists]
    exact .error holds .unexpectedEnd

/-! ## Lists and repetition -/

/-- A value is extended in both views by the same steps. The induction is on the tokens that are
left. -/
theorem StepMatches.extend {step : Expression → Moving (Option Expression)}
    {plain : Expression → List Token → Except ParseFault (Option (Expression × List Token))}
    (steps : view.StepMatches step plain) (value : Expression) {cursor : Cursor}
    (holds : view.Holds cursor) :
    view.Agrees view.Reads
      (Moving.start (Moving.extend view.tokens step value cursor.place) cursor)
      (Surface.extend plain value (view.rest cursor.place)) := by
  induction size : (view.rest cursor.place).length using Nat.strongRecOn
    generalizing value cursor with
  | ind size ih =>
    subst size
    rw [Moving.extend, extend_eq_bind]
    refine (steps value cursor holds).bind ?_
    rintro _ later _ kept (_ | _)
    case stop => exact .ok kept rfl
    case more longer =>
      dsimp only
      rw [Moving.start_get]
      refine Agrees.loop holds.1 kept ?_ (.ok kept rfl)
      intro less
      exact ih _ less longer kept rfl

section Lists

variable {item : Moving Expression} {plain : Parse Expression} (reads : view.Matches item plain)

include reads

theorem Matches.commaSeparated {cursor : Cursor} (holds : view.Holds cursor) :
    view.Agrees view.Reads
      (Moving.start (Moving.commaSeparated view.tokens item cursor.place) cursor)
      (Surface.commaSeparated plain (view.rest cursor.place)) := by
  induction size : (view.rest cursor.place).length using Nat.strongRecOn generalizing cursor with
  | ind size ih =>
    subst size
    rw [Moving.commaSeparated, commaSeparated_eq_bind]
    refine (reads cursor holds).bind ?_
    rintro first later _ kept rfl
    dsimp only
    refine Agrees.eat kept ?_ ?_
    · intro behind kept comma
      rw [comma, Moving.start_get]
      dsimp only
      refine Agrees.loop holds.1 kept ?_ (.ok kept rfl)
      intro less
      refine (ih _ less kept rfl).bind ?_
      rintro others later _ kept rfl
      exact .ok kept rfl
    · intro alone
      rw [alone]
      exact .ok kept rfl

theorem Matches.enclosed (close : Symbol) :
    view.Matches (Moving.enclosed view.tokens item close) (Surface.enclosed plain close) := by
  intro cursor holds
  have items : view.Agrees view.Reads
      (Moving.start (do
        let items ← Moving.commaSeparated view.tokens item (← get).place
        return (items, ← Moving.expect view.tokens close)) cursor)
      (do
        let items ← Surface.commaSeparated plain (view.rest cursor.place)
        let closing ← Surface.expect close items.2
        return ((items.1, closing.1), closing.2)) := by
    rw [Moving.start_get]
    refine (reads.commaSeparated holds).bind ?_
    rintro items later _ kept rfl
    refine (matches_expect close later kept).bind ?_
    rintro span later _ kept rfl
    exact .ok kept rfl
  unfold Moving.enclosed Surface.enclosed
  rw [Moving.start_peek, view.kind_tokenAt holds.1]
  by_cases closes : (front (view.rest cursor.place)).kind = .symbol close
  · rw [if_pos closes, eat?, if_pos closes]
    refine Agrees.next holds (by simp [closes]) ?_
    intro kept behind
    rw [behind]
    exact .ok kept rfl
  · rw [if_neg closes, eat?_eq_none closes]
    exact items

end Lists

end View

/-! ## Names of types -/

/-- Reads a dot and the part of a name behind it, if there are both. -/
def typeNamePart? (type : TypeName) : List Token → Option (TypeName × List Token)
  | ⟨.symbol .dot, _⟩ :: ⟨.identifier part, span⟩ :: rest =>
    some (⟨type.name ++ "." ++ part, type.span.cover span⟩, rest)
  | _ => none

theorem typeNamePart?_eq_none {type : TypeName} {tokens : List Token}
    (other : ∀ dot name span rest,
      tokens ≠ ⟨.symbol .dot, dot⟩ :: ⟨.identifier name, span⟩ :: rest) :
    typeNamePart? type tokens = none := by
  unfold typeNamePart?
  split
  next => exact absurd rfl (other _ _ _ _)
  next => rfl

theorem length_of_typeNamePart? {type longer : TypeName} {tokens rest : List Token}
    (done : typeNamePart? type tokens = some (longer, rest)) : rest.length < tokens.length := by
  unfold typeNamePart? at done
  split at done
  · cases done
    simp only [List.length_cons]
    omega
  · cases done

theorem typeNameParts_of_none {type : TypeName} {tokens : List Token}
    (stop : typeNamePart? type tokens = none) : typeNameParts type tokens = (type, tokens) := by
  unfold typeNamePart? at stop
  split at stop
  next => cases stop
  next other => exact typeNameParts.eq_2 type tokens other

theorem typeNameParts_of_some {type longer : TypeName} {tokens rest : List Token}
    (more : typeNamePart? type tokens = some (longer, rest)) :
    typeNameParts type tokens = typeNameParts longer rest := by
  unfold typeNamePart? at more
  split at more
  next =>
    cases more
    rfl
  next => cases more

namespace View

variable {view : View}

/-- A dot with an identifier behind it is found just when it is listed. -/
theorem part_iff {place : Nat} (low : place ≤ view.text.length) :
    ((tokenAt view.tokens place).kind = .symbol .dot ∧
        Moving.identifierFollows view.tokens place = true) ↔
      ∃ dot name span rest,
        view.rest place = ⟨.symbol .dot, dot⟩ :: ⟨.identifier name, span⟩ :: rest := by
  rw [Moving.identifierFollows_iff]
  cases view.stands low with
  | token first isToken inside further shows lists =>
    rw [shows, lists]
    cases view.stands further with
    | token second isToken inside further shows lists =>
      rw [shows, lists]
      constructor
      · rintro ⟨isDot, name, span, rfl⟩
        obtain ⟨kind, dot⟩ := first
        obtain rfl : kind = .symbol .dot := isDot
        exact ⟨dot, name, span, _, rfl⟩
      · rintro ⟨dot, name, span, rest, same⟩
        cases same
        exact ⟨rfl, name, span, rfl⟩
    | ends shows lists => simp [shows, lists]
  | ends shows lists => simp [shows, lists]

theorem agrees_typeNamePart (type : TypeName) {cursor : Cursor} (holds : view.Holds cursor) :
    view.Agrees (view.Steps cursor) (Moving.start (Moving.typeNamePart view.tokens type) cursor)
      (.ok (typeNamePart? type (view.rest cursor.place))) := by
  have partIff := view.part_iff holds.1
  unfold Moving.typeNamePart
  rw [Moving.start_peek, Moving.start_get]
  by_cases part : (tokenAt view.tokens cursor.place).kind = .symbol .dot ∧
    Moving.identifierFollows view.tokens cursor.place = true
  · obtain ⟨dot, name, span, rest, lists⟩ := partIff.mp part
    rw [if_pos part]
    refine Agrees.next holds (by simp [lists, front]) ?_
    intro kept behind
    rw [lists, advance_cons (by simp)] at behind
    have reads : Except.ok (typeNamePart? type (view.rest cursor.place)) =
        expectIdentifier (view.rest cursor.moved.place) >>= fun result =>
          .ok (some (⟨type.name ++ "." ++ result.1.1, type.span.cover result.1.2⟩, result.2)) := by
      rw [lists, ← behind, expectIdentifier_cons rfl]
      rfl
    rw [reads]
    refine (matches_expectIdentifier _ kept).bind ?_
    rintro ⟨part, span⟩ later _ kept rfl
    exact .ok kept .more
  · have missed : typeNamePart? type (view.rest cursor.place) = none := by
      refine typeNamePart?_eq_none fun dot name span rest lists => part (partIff.mpr ?_)
      exact ⟨dot, name, span, rest, lists⟩
    rw [if_neg part, missed]
    exact .ok holds .stop

theorem agrees_typeNameParts (type : TypeName) {cursor : Cursor} (holds : view.Holds cursor) :
    view.Agrees view.Reads
      (Moving.start (Moving.extend view.tokens (Moving.typeNamePart view.tokens) type cursor.place)
        cursor)
      (.ok (typeNameParts type (view.rest cursor.place))) := by
  induction size : (view.rest cursor.place).length using Nat.strongRecOn
    generalizing type cursor with
  | ind size ih =>
    subst size
    obtain ⟨step, later, ran, kept, steps⟩ := (agrees_typeNamePart type holds).exists_of_ok
    rw [Moving.extend, Moving.start_bind_ok _ ran]
    cases isPart : typeNamePart? type (view.rest cursor.place) with
    | none =>
      rw [isPart] at steps
      cases steps
      rw [typeNameParts_of_none isPart]
      exact .ok kept rfl
    | some longer =>
      rw [isPart] at steps
      cases steps
      have less := length_of_typeNamePart? isPart
      rw [typeNameParts_of_some isPart]
      dsimp only
      rw [Moving.start_get, if_pos ((view.shorter_iff holds.1 kept.1).mpr less)]
      exact ih _ less _ kept rfl

theorem matches_typeName : view.Matches (Moving.typeName view.tokens) typeName := by
  intro cursor holds
  refine (matches_expectIdentifier cursor holds).bind ?_
  rintro ⟨name, span⟩ later _ kept rfl
  exact agrees_typeNameParts _ kept

end View

end ExprImports.Surface
