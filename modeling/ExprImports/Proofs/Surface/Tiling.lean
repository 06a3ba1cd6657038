import ExprImports.Proofs.Surface.Soundness
import Mathlib.Data.List.TakeWhile
import Mathlib.Tactic.ByContra

/-!
# Tokens tile the text

A text that can be cut into tokens consists of the lexemes of its tokens and of blank
characters around them. Nothing else is skipped and no lexeme depends on its surroundings.

**A lexeme stands alone.** Every reader looks only as far as its token goes: it reads the same
token when what stands behind is cut off anywhere (`readToken?_cut`), and so from the lexeme by
itself, with nothing left (`readToken?_lexeme`). For strings this is stronger, whatever stands
behind the closing quote (`readContents?_lexeme_append`).

**Tiling.** `Tiled` describes a text from the left: a gap, a lexeme that stands alone, and so
on up to the place where no token follows. The tokens that are read from a text tile it
(`tiled_readTokens`), and what holds of a text as a whole follows by induction on the tiling
(`tiles_of_tokenize`).
-/

set_option autoImplicit false

namespace ExprImports

/-! ## Places in a text -/

/-- The offset of a character of the text, or the end of the text. -/
def IsBoundary (text : List Char) (offset : Nat) : Prop :=
  ∃ before after, text = before ++ after ∧ byteLength before = offset

namespace Span

/-- Both ends of the stretch are boundaries of characters of the text. -/
structure InText (span : Span) (text : List Char) : Prop where
  start : IsBoundary text span.offset
  stop : IsBoundary text span.stop

/-- The characters that the stretch cuts out of the text. -/
def Cuts (span : Span) (text lexeme : List Char) : Prop :=
  ∃ before after, text = before ++ lexeme ++ after ∧
    byteLength before = span.offset ∧ byteLength lexeme = span.length

/-- The byte at the offset belongs to the stretch. -/
def Covers (span : Span) (offset : Nat) : Prop :=
  span.offset ≤ offset ∧ offset < span.stop

end Span

theorem IsBoundary.le_byteLength {text : List Char} {offset : Nat}
    (boundary : IsBoundary text offset) : offset ≤ byteLength text := by
  obtain ⟨before, after, rfl, rfl⟩ := boundary
  rw [byteLength_append]
  exact Nat.le_add_right _ _

theorem Span.InText.stop_le {span : Span} {text : List Char} (inText : span.InText text) :
    span.offset + span.length ≤ byteLength text :=
  inText.stop.le_byteLength

theorem Span.Cuts.inText {span : Span} {text lexeme : List Char} (cuts : span.Cuts text lexeme) :
    span.InText text := by
  obtain ⟨before, after, same, offset, length⟩ := cuts
  refine ⟨⟨before, lexeme ++ after, ?_, offset⟩, ⟨before ++ lexeme, after, same, ?_⟩⟩
  · rw [same, List.append_assoc]
  · rw [byteLength_append, offset, length, Span.stop]

theorem Span.Cuts.byteLength_eq {span : Span} {text lexeme : List Char}
    (cuts : span.Cuts text lexeme) : byteLength lexeme = span.length := by
  obtain ⟨_, _, _, _, length⟩ := cuts
  exact length

theorem byteLength_pos {text : List Char} (filled : text ≠ []) : 0 < byteLength text := by
  cases text with
  | nil => exact absurd rfl filled
  | cons c rest => exact Nat.add_pos_left c.utf8Size_pos _

/-- A boundary has one text before it. -/
theorem eq_of_byteLength_eq {first second firstRest secondRest : List Char}
    (same : first ++ firstRest = second ++ secondRest)
    (length : byteLength first = byteLength second) :
    first = second ∧ firstRest = secondRest := by
  rcases List.append_eq_append_iff.mp same with ⟨between, rfl, rfl⟩ | ⟨between, rfl, rfl⟩ <;>
  · have empty : between = [] := by
      by_contra filled
      have positive := byteLength_pos filled
      rw [byteLength_append] at length
      omega
    subst empty
    simp

/-- A stretch cuts out one lexeme. -/
theorem Span.Cuts.unique {span : Span} {text first second : List Char}
    (cutsFirst : span.Cuts text first) (cutsSecond : span.Cuts text second) : first = second := by
  obtain ⟨before, after, rfl, offset, length⟩ := cutsFirst
  obtain ⟨before', after', same, offset', length'⟩ := cutsSecond
  rw [List.append_assoc, List.append_assoc] at same
  have behind := (eq_of_byteLength_eq same (offset.trans offset'.symm)).2
  exact (eq_of_byteLength_eq behind (length.trans length'.symm)).1

namespace Surface

/-! ## A lexeme stands alone -/

/-- Read by itself, the lexeme is a token of the kind, and nothing is left. -/
def StandsAlone (kind : TokenKind) (lexeme : List Char) : Prop :=
  readToken? lexeme = some ⟨kind, lexeme, []⟩

/-- What begins no symbol begins none when it is cut off earlier. -/
theorem readSymbol?_eq_none_of_prefix {text front : List Char} (missed : readSymbol? text = none)
    (isFront : front <+: text) : readSymbol? front = none := by
  simp only [readSymbol?, Option.map_eq_none_iff, List.find?_eq_none,
    List.isPrefixOf_iff_prefix] at missed ⊢
  intro symbol listed isPrefix
  exact missed symbol listed (isPrefix.trans isFront)

/-- No symbol begins with a character of a class in which no symbol begins. -/
theorem readSymbol?_eq_none {p : Char → Bool}
    (apart : ∀ symbol : Symbol, symbol.spelling.head?.any p = false) {c : Char}
    (rest : List Char) (holds : p c = true) : readSymbol? (c :: rest) = none := by
  simp only [readSymbol?, Option.map_eq_none_iff, List.find?_eq_none,
    List.isPrefixOf_iff_prefix]
  rintro symbol - ⟨behind, begins⟩
  have first := apart symbol
  cases spelled : symbol.spelling with
  | nil => cases symbol <;> cases spelled
  | cons d others =>
    rw [spelled] at first begins
    obtain ⟨rfl, _⟩ := List.cons.inj begins
    rw [List.head?_cons, Option.any_some, holds] at first
    cases first

theorem readNumber?_eq_none {c : Char} (rest : List Char) (noDigit : c.isDigit = false) :
    readNumber? (c :: rest) = none := by
  simp [readNumber?, noDigit]

theorem readText?_eq_none {c : Char} (rest : List Char) (noQuote : c ≠ '"') :
    readText? (c :: rest) = none := by
  unfold readText?
  split
  · rename_i body same
    exact absurd (List.cons.inj same).1 noQuote
  · rfl

section Cuts

variable {text between : List Char} {reading : Reading}

theorem lexeme_append_prefix (same : text = reading.lexeme ++ reading.rest)
    (isPrefix : between <+: reading.rest) : reading.lexeme ++ between <+: text := by
  obtain ⟨behind, rest⟩ := isPrefix
  exact ⟨behind, by rw [same, ← rest, List.append_assoc]⟩

/-- No symbol that comes before the one that was read begins the shorter text either. -/
theorem readSymbol?_cut (done : readSymbol? text = some reading)
    (isPrefix : between <+: reading.rest) :
    readSymbol? (reading.lexeme ++ between) = some { reading with rest := between } := by
  have isFront := lexeme_append_prefix (readSymbol?_text done) isPrefix
  obtain ⟨symbol, found, rfl⟩ := Option.map_eq_some_iff.mp done
  obtain ⟨_, before, after, listed, earlier⟩ := List.find?_eq_some_iff_append.mp found
  have again : (Symbol.all.find? fun other =>
      other.spelling.isPrefixOf (symbol.spelling ++ between)) = some symbol := by
    refine List.find?_eq_some_iff_append.mpr ⟨by simp, before, after, listed, ?_⟩
    intro other inside
    have missed := earlier other inside
    rw [Bool.not_eq_true', Bool.eq_false_iff, ne_eq, List.isPrefixOf_iff_prefix] at missed ⊢
    intro begins
    exact missed (begins.trans isFront)
  simp [readSymbol?, again]

end Cuts

/-! ### Runs of characters -/

section Runs

variable {p : Char → Bool} {run rest between : List Char}

/-- What ends a run ends it also when it is cut off earlier. -/
theorem takeWhile_eq_nil_of_shorter (ends : rest.takeWhile p = []) (isPrefix : between <+: rest) :
    between.takeWhile p = [] := by
  obtain ⟨behind, rfl⟩ := isPrefix
  cases between with
  | nil => rfl
  | cons c between =>
    by_cases holds : p c = true
    · simp [holds] at ends
    · exact List.takeWhile_cons_of_neg holds

theorem takeWhile_dropWhile (p : Char → Bool) (text : List Char) :
    (text.dropWhile p).takeWhile p = [] := by
  induction text with
  | nil => rfl
  | cons c text ih =>
    by_cases holds : p c = true
    · rwa [List.dropWhile_cons_of_pos holds]
    · rw [List.dropWhile_cons_of_neg holds, List.takeWhile_cons_of_neg holds]

theorem takeWhile_run (all : ∀ c ∈ run, p c = true) (ends : rest.takeWhile p = []) :
    (run ++ rest).takeWhile p = run := by
  rw [List.takeWhile_append_of_pos all, ends, List.append_nil]

theorem dropWhile_run (all : ∀ c ∈ run, p c = true) (ends : rest.takeWhile p = []) :
    (run ++ rest).dropWhile p = rest := by
  rw [List.dropWhile_append_of_pos all]
  simpa [ends] using List.takeWhile_append_dropWhile (p := p) (l := rest)

end Runs

section Numbers

variable {digits fraction rest : List Char}

theorem readNumber?_integer (filled : digits ≠ []) (allDigits : ∀ c ∈ digits, c.isDigit = true)
    (ends : rest.takeWhile Char.isDigit = [])
    (noFraction : ∀ behind, rest = '.' :: behind → behind.takeWhile Char.isDigit = [])
    (bound : decimalValue digits ≤ maxInteger) :
    readNumber? (digits ++ rest) = some ⟨.integer (decimalValue digits), digits, rest⟩ := by
  simp only [readNumber?, takeWhile_run allDigits ends, dropWhile_run allDigits ends]
  rw [if_neg (by simpa using filled), if_pos bound]
  split
  next behind => rw [if_pos (by simp [noFraction behind rfl])]
  next => rfl

theorem readNumber?_floating (filled : digits ≠ []) (allDigits : ∀ c ∈ digits, c.isDigit = true)
    (fractionFilled : fraction ≠ []) (allFraction : ∀ c ∈ fraction, c.isDigit = true)
    (ends : rest.takeWhile Char.isDigit = []) :
    readNumber? (digits ++ '.' :: (fraction ++ rest)) =
      some ⟨.floating (.ofDecimal (decimalValue (digits ++ fraction)) fraction.length),
        digits ++ '.' :: fraction, rest⟩ := by
  have point : ('.' :: (fraction ++ rest)).takeWhile Char.isDigit = [] := rfl
  simp only [readNumber?, takeWhile_run allDigits point, dropWhile_run allDigits point,
    takeWhile_run allFraction ends, dropWhile_run allFraction ends]
  simp [filled, fractionFilled]

end Numbers

section Cuts

variable {text between : List Char} {reading : Reading}

theorem readNumber?_cut (done : readNumber? text = some reading)
    (isPrefix : between <+: reading.rest) :
    readNumber? (reading.lexeme ++ between) = some { reading with rest := between } := by
  have allDigits : ∀ c ∈ text.takeWhile Char.isDigit, c.isDigit = true :=
    fun c => List.mem_takeWhile_imp
  have ends := takeWhile_dropWhile Char.isDigit text
  unfold readNumber? at done
  dsimp only at done
  split at done
  · cases done
  next filled =>
    have digits : text.takeWhile Char.isDigit ≠ [] := by simpa using filled
    split at done
    next behind point =>
      rw [point] at ends
      split at done
      next noFraction =>
        split at done
        next bound =>
          cases done
          dsimp only at isPrefix ⊢
          rw [point] at isPrefix
          refine readNumber?_integer digits allDigits
            (takeWhile_eq_nil_of_shorter ends isPrefix) ?_ bound
          rintro shorter rfl
          have isFront := (List.cons_prefix_cons.mp isPrefix).2
          exact takeWhile_eq_nil_of_shorter (by simpa using noFraction) isFront
        next => cases done
      next fractionFilled =>
        cases done
        dsimp only at isPrefix ⊢
        have fraction : behind.takeWhile Char.isDigit ≠ [] := by simpa using fractionFilled
        have behindEnds := takeWhile_eq_nil_of_shorter
          (takeWhile_dropWhile Char.isDigit behind) isPrefix
        have again := readNumber?_floating digits allDigits fraction
          (fun c => List.mem_takeWhile_imp) behindEnds
        simpa using again
    next noPoint =>
      split at done
      next bound =>
        cases done
        dsimp only at isPrefix ⊢
        refine readNumber?_integer digits allDigits
          (takeWhile_eq_nil_of_shorter ends isPrefix) ?_ bound
        rintro shorter rfl
        obtain ⟨_, same⟩ := isPrefix
        exact absurd same.symm (noPoint _)
      next => cases done

end Cuts

/-! ### Strings -/

theorem readCodePoint?_lexeme_append {text : List Char} {piece : Piece}
    (done : readCodePoint? text = some piece) (behind : List Char) :
    readPiece? (piece.lexeme ++ behind) = some { piece with rest := behind } := by
  unfold readCodePoint? at done
  dsimp only at done
  split at done
  next rest closed =>
    split at done
    · cases done
    next valid =>
      cases done
      generalize found : (text.takeWhile Text.isHexDigit).take 6 = digits at valid ⊢
      have few : digits.length ≤ 6 := found ▸ List.length_take_le 6 _
      have allHex : ∀ c ∈ digits, Text.isHexDigit c = true := by
        intro c inside
        rw [← found] at inside
        exact List.mem_takeWhile_imp (List.mem_of_mem_take inside)
      have brace : Text.isHexDigit '\x7d' = false := by decide
      have run : ((digits ++ '\x7d' :: behind).takeWhile Text.isHexDigit).take 6 = digits := by
        rw [List.takeWhile_append_of_pos allHex, List.takeWhile_cons_of_neg (by simp [brace]),
          List.append_nil, List.take_of_length_le few]
      have again : readCodePoint? (digits ++ '\x7d' :: behind) =
          some ⟨Char.ofNat (Text.hexValue digits),
            '\\' :: 'u' :: '\x7b' :: digits ++ ['\x7d'], behind⟩ := by
        simp only [readCodePoint?, run, List.drop_left]
        rw [if_neg valid]
      simpa [readPiece?] using again
  · cases done

theorem readPiece?_self {c : Char} (rest : List Char) (noEscape : c ≠ '\\') (noQuote : c ≠ '"') :
    readPiece? (c :: rest) = some ⟨c, [c], rest⟩ := by
  rw [readPiece?] <;> (intros; contradiction)

/-- A piece does not depend on what stands behind it. -/
theorem readPiece?_lexeme_append {text : List Char} {piece : Piece}
    (done : readPiece? text = some piece) (behind : List Char) :
    readPiece? (piece.lexeme ++ behind) = some { piece with rest := behind } := by
  unfold readPiece? at done
  split at done
  next => cases done; rfl
  next => cases done; rfl
  next => cases done; rfl
  next => cases done; rfl
  next => cases done; rfl
  next => exact readCodePoint?_lexeme_append done behind
  next => cases done
  next => cases done
  next c rest _ _ _ _ _ _ noEscape noQuote =>
    cases done
    exact readPiece?_self behind noEscape noQuote
  next => cases done

/-- No piece begins with a quote. -/
theorem readPiece?_head_ne_quote {text : List Char} {piece : Piece}
    (done : readPiece? text = some piece) (behind : List Char) :
    (piece.lexeme ++ behind).head? ≠ some '"' := by
  intro quoted
  obtain ⟨rest, same⟩ := List.head?_eq_some_iff.mp quoted
  have read := readPiece?_lexeme_append done behind
  rw [same] at read
  cases read

theorem readContents?_of_some {text : List Char} {piece : Piece}
    (found : readPiece? text = some piece) :
    readContents? text = (readContents? piece.rest).map fun (contents, lexeme, rest) =>
      (piece.value :: contents, piece.lexeme ++ lexeme, rest) := by
  have opened : text.head? ≠ some '"' := by
    rw [readPiece?_text found]
    exact readPiece?_head_ne_quote found piece.rest
  rw [readContents?, if_neg opened]
  split
  next missed =>
    rw [found] at missed
    cases missed
  next again =>
    rw [found] at again
    cases again
    rfl

/-- The contents of a string end with its quote, whatever stands behind it. The induction is on
the text that was read first; what stands behind the lexeme there plays no part in it. -/
theorem readContents?_lexeme_append {text contents lexeme rest : List Char}
    (done : readContents? text = some (contents, lexeme, rest)) (behind : List Char) :
    readContents? (lexeme ++ behind) = some (contents, lexeme, behind) := by
  fun_induction readContents? text generalizing contents lexeme rest with
  | case1 text closed =>
    cases done
    rw [readContents?]
    rfl
  | case2 text open_ missed => cases done
  | case3 text opened piece found ih =>
    obtain ⟨⟨inner, innerLexeme, innerRest⟩, read, same⟩ := Option.map_eq_some_iff.mp done
    cases same
    have first := readPiece?_lexeme_append found (innerLexeme ++ behind)
    rw [List.append_assoc, readContents?_of_some first, ih read]
    rfl

theorem readText?_cut {text : List Char} {reading : Reading}
    (done : readText? text = some reading) (between : List Char) :
    readText? (reading.lexeme ++ between) = some { reading with rest := between } := by
  unfold readText? at done
  split at done
  · obtain ⟨⟨contents, lexeme, rest⟩, read, rfl⟩ := Option.map_eq_some_iff.mp done
    simp [readText?, readContents?_lexeme_append read between]
  · cases done

/-! ### Words -/

theorem isWordPart_of_isWordStart {c : Char} (start : isWordStart c = true) :
    isWordPart c = true := by
  simp only [isWordStart, isWordPart, Char.isAlphanum, Bool.or_eq_true] at start ⊢
  rcases start with letter | underscore
  · exact .inl (.inl letter)
  · exact .inr underscore

/-- The two ranges of letters. -/
theorem range_of_isAlpha {c : Char} (letter : c.isAlpha = true) :
    (65 ≤ c.toNat ∧ c.toNat ≤ 90) ∨ (97 ≤ c.toNat ∧ c.toNat ≤ 122) := by
  rcases (Bool.or_eq_true _ _).mp letter with upper | lower
  · exact .inl (of_decide_eq_true upper)
  · obtain ⟨above, below⟩ := (Bool.and_eq_true _ _).mp lower
    exact .inr ⟨of_decide_eq_true above, of_decide_eq_true below⟩

/-- The range of digits. -/
theorem range_of_isDigit {c : Char} (digit : c.isDigit = true) :
    48 ≤ c.toNat ∧ c.toNat ≤ 57 := by
  obtain ⟨above, below⟩ := (Bool.and_eq_true _ _).mp digit
  exact ⟨of_decide_eq_true above, of_decide_eq_true below⟩

theorem isDigit_of_isWordStart {c : Char} (start : isWordStart c = true) : c.isDigit = false := by
  rcases (Bool.or_eq_true _ _).mp start with letter | underscore
  · refine Bool.eq_false_iff.mpr fun digit => ?_
    have ofLetter := range_of_isAlpha letter
    have ofDigit := range_of_isDigit digit
    omega
  · rw [beq_iff_eq.mp underscore]
    rfl

theorem ne_quote_of_isWordStart {c : Char} (start : isWordStart c = true) : c ≠ '"' := by
  rintro rfl
  cases start

/-- A word takes its first character and all that can go on with it. -/
theorem exists_of_readWord? {text : List Char} {reading : Reading}
    (done : readWord? text = some reading) :
    ∃ c parts, isWordStart c = true ∧ (∀ d ∈ parts, isWordPart d = true) ∧
      reading.rest.takeWhile isWordPart = [] ∧
        reading = ⟨wordKind (String.ofList (c :: parts)), c :: parts, reading.rest⟩ := by
  unfold readWord? at done
  split at done
  next c rest =>
    split at done
    next start =>
      cases done
      have taken : (c :: rest).takeWhile isWordPart = c :: rest.takeWhile isWordPart :=
        List.takeWhile_cons_of_pos (isWordPart_of_isWordStart start)
      refine ⟨c, rest.takeWhile isWordPart, start, fun d => List.mem_takeWhile_imp,
        takeWhile_dropWhile isWordPart _, ?_⟩
      dsimp only
      rw [taken]
    next => cases done
  next => cases done

theorem readWord?_word {c : Char} {parts rest : List Char} (start : isWordStart c = true)
    (allParts : ∀ d ∈ parts, isWordPart d = true) (ends : rest.takeWhile isWordPart = []) :
    readWord? (c :: parts ++ rest) =
      some ⟨wordKind (String.ofList (c :: parts)), c :: parts, rest⟩ := by
  have all : ∀ d ∈ c :: parts, isWordPart d = true :=
    List.forall_mem_cons.mpr ⟨isWordPart_of_isWordStart start, allParts⟩
  have taken := takeWhile_run all ends
  have dropped := dropWhile_run all ends
  rw [List.cons_append] at taken dropped ⊢
  simp only [readWord?, start, if_true, taken, dropped]

theorem wordKind_ne_endOfText (word : String) : wordKind word ≠ .endOfText := by
  unfold wordKind
  split <;> rintro ⟨⟩

/-! ### All tokens -/

/-- No reader gives the end of the text. -/
theorem readToken?_kind_ne_endOfText {text : List Char} {reading : Reading}
    (done : readToken? text = some reading) : reading.kind ≠ .endOfText := by
  simp only [readToken?, Option.or_eq_some_iff] at done
  rcases done with symbol | ⟨_, number | ⟨_, string | ⟨_, word⟩⟩⟩
  · obtain ⟨_, _, rfl⟩ := Option.map_eq_some_iff.mp symbol
    rintro ⟨⟩
  · unfold readNumber? at number
    dsimp only at number
    repeat' split at number
    all_goals cases number
    all_goals rintro ⟨⟩
  · unfold readText? at string
    split at string
    · obtain ⟨_, _, rfl⟩ := Option.map_eq_some_iff.mp string
      rintro ⟨⟩
    · cases string
  · obtain ⟨c, parts, _, _, _, same⟩ := exists_of_readWord? word
    rw [same]
    exact wordKind_ne_endOfText _

section Cuts

variable {text between : List Char} {reading : Reading}

/-- **A token does not depend on what is cut off behind it.** -/
theorem readToken?_cut (done : readToken? text = some reading)
    (isPrefix : between <+: reading.rest) :
    readToken? (reading.lexeme ++ between) = some { reading with rest := between } := by
  have isFront := lexeme_append_prefix (readToken?_text done) isPrefix
  simp only [readToken?, Option.or_eq_some_iff] at done
  rcases done with symbol | ⟨noSymbol, number | ⟨noNumber, string | ⟨noString, word⟩⟩⟩
  · rw [readToken?, readSymbol?_cut symbol isPrefix, Option.some_or]
  · have missed := readSymbol?_eq_none_of_prefix noSymbol isFront
    rw [readToken?, missed, readNumber?_cut number isPrefix, Option.none_or, Option.some_or]
  · have missed := readSymbol?_eq_none_of_prefix noSymbol isFront
    have again := readText?_cut string between
    obtain ⟨body, same⟩ : ∃ body, reading.lexeme = '"' :: body := by
      unfold readText? at string
      split at string
      · obtain ⟨_, _, rfl⟩ := Option.map_eq_some_iff.mp string
        exact ⟨_, rfl⟩
      · cases string
    have noDigit : readNumber? (reading.lexeme ++ between) = none := by
      rw [same]
      exact readNumber?_eq_none (body ++ between) rfl
    rw [readToken?, missed, noDigit, again, Option.none_or, Option.none_or, Option.some_or]
  · have missed := readSymbol?_eq_none_of_prefix noSymbol isFront
    obtain ⟨c, parts, start, allParts, ends, same⟩ := exists_of_readWord? word
    have again := readWord?_word start allParts (takeWhile_eq_nil_of_shorter ends isPrefix)
    rw [same] at missed ⊢
    dsimp only at missed again ⊢
    rw [readToken?, missed, again, List.cons_append,
      readNumber?_eq_none _ (isDigit_of_isWordStart start),
      readText?_eq_none _ (ne_quote_of_isWordStart start)]
    rfl

/-- **A token does not depend on its surroundings.** -/
theorem readToken?_lexeme (done : readToken? text = some reading) :
    StandsAlone reading.kind reading.lexeme := by
  have alone := readToken?_cut done List.nil_prefix
  rwa [List.append_nil] at alone

end Cuts

theorem isGap_iff {c : Char} : isGap c = true ↔ c = ' ' ∨ c = '\t' ∨ c = '\r' ∨ c = '\n' := by
  simp only [isGap, Bool.or_eq_true, beq_iff_eq, or_assoc]

theorem isBlank_of_isGap {c : Char} (gap : isGap c = true) : Text.isBlank c = true := by
  rcases isGap_iff.mp gap with rfl | rfl | rfl | rfl <;> rfl

/-- No token begins with a gap. -/
theorem readToken?_gap {c : Char} (rest : List Char) (gap : isGap c = true) :
    readToken? (c :: rest) = none := by
  rcases isGap_iff.mp gap with rfl | rfl | rfl | rfl <;> rfl

theorem StandsAlone.kind_ne_endOfText {kind : TokenKind} {lexeme : List Char}
    (alone : StandsAlone kind lexeme) : kind ≠ .endOfText :=
  readToken?_kind_ne_endOfText alone

theorem StandsAlone.ne_nil {kind : TokenKind} {lexeme : List Char}
    (alone : StandsAlone kind lexeme) : lexeme ≠ [] :=
  readToken?_lexeme_ne_nil alone

/-- There is no gap before a token where it is read. -/
theorem takeWhile_gap_of_token {text : List Char} {reading : Reading}
    (found : readToken? text = some reading) : text.takeWhile isGap = [] := by
  cases text with
  | nil => rfl
  | cons c rest =>
    by_cases gap : isGap c = true
    · rw [readToken?_gap rest gap] at found
      cases found
    · exact List.takeWhile_cons_of_neg gap

theorem StandsAlone.dropWhile_gap {kind : TokenKind} {lexeme : List Char}
    (alone : StandsAlone kind lexeme) :
    lexeme.takeWhile isGap = [] ∧ lexeme.dropWhile isGap = lexeme := by
  have noGap := takeWhile_gap_of_token alone
  have whole : lexeme.takeWhile isGap ++ lexeme.dropWhile isGap = lexeme :=
    List.takeWhile_append_dropWhile
  rw [noGap, List.nil_append] at whole
  exact ⟨noGap, whole⟩

theorem readTokens_of_none {offset : Nat} {text : List Char}
    (missed : readToken? (text.dropWhile isGap) = none) :
    readTokens offset text =
      ([], offset + byteLength (text.takeWhile isGap), text.dropWhile isGap) := by
  rw [readTokens]
  split
  next => rfl
  next found =>
    rw [missed] at found
    cases found

theorem readTokens_of_some {offset start : Nat} {text : List Char} {reading : Reading}
    (found : readToken? (text.dropWhile isGap) = some reading)
    (isStart : offset + byteLength (text.takeWhile isGap) = start) :
    readTokens offset text =
      (⟨reading.kind, ⟨start, byteLength reading.lexeme⟩⟩ ::
          (readTokens (start + byteLength reading.lexeme) reading.rest).1,
        (readTokens (start + byteLength reading.lexeme) reading.rest).2) := by
  rw [readTokens]
  subst isStart
  split
  next missed =>
    rw [found] at missed
    cases missed
  next again =>
    rw [found] at again
    cases again
    rfl

/-- A lexeme that stands alone is a text of one token. -/
theorem StandsAlone.tokenize {kind : TokenKind} {lexeme : List Char}
    (alone : StandsAlone kind lexeme) :
    tokenize (String.ofList lexeme) =
      .ok [⟨kind, ⟨0, byteLength lexeme⟩⟩, ⟨.endOfText, ⟨byteLength lexeme, 0⟩⟩] := by
  obtain ⟨noGap, front⟩ := alone.dropWhile_gap
  have found : readToken? (lexeme.dropWhile isGap) = some ⟨kind, lexeme, []⟩ := by
    rw [front]
    exact alone
  have read : readTokens 0 lexeme = ([⟨kind, ⟨0, byteLength lexeme⟩⟩], byteLength lexeme, []) := by
    rw [readTokens_of_some found (congrArg (0 + byteLength ·) noGap), readTokens_of_none rfl]
    simp [byteLength]
  simp [Surface.tokenize, read]

/-! ## Tilings -/

/-- From the offset on, the text consists of gaps and of lexemes that stand alone, one lexeme
for each of the tokens, up to the place where the rest begins. -/
inductive Tiled (stop : Nat) (rest : List Char) : Nat → List Char → List Token → Prop
  | last {offset : Nat} {gap : List Char} :
      (∀ c ∈ gap, isGap c = true) → offset + byteLength gap = stop →
      Tiled stop rest offset (gap ++ rest) []
  | next {offset : Nat} {gap lexeme behind : List Char} {kind : TokenKind}
      {tokens : List Token} :
      (∀ c ∈ gap, isGap c = true) → StandsAlone kind lexeme →
      Tiled stop rest (offset + byteLength gap + byteLength lexeme) behind tokens →
      Tiled stop rest offset (gap ++ (lexeme ++ behind))
        (⟨kind, ⟨offset + byteLength gap, byteLength lexeme⟩⟩ :: tokens)

/-- **The tokens that are read from a text tile it.** -/
theorem tiled_readTokens (offset : Nat) (text : List Char) :
    Tiled (readTokens offset text).2.1 (readTokens offset text).2.2 offset text
      (readTokens offset text).1 := by
  fun_induction readTokens offset text with
  | case1 offset text start front missed =>
    have whole : text.takeWhile isGap ++ front = text := List.takeWhile_append_dropWhile
    have tiled : Tiled start front offset (text.takeWhile isGap ++ front) [] :=
      .last (fun c => List.mem_takeWhile_imp) rfl
    rwa [whole] at tiled
  | case2 offset text start front reading found length tokens stop rest more ih =>
    rw [more] at ih
    have whole : text.takeWhile isGap ++ front = text := List.takeWhile_append_dropWhile
    have tiled : Tiled stop rest offset
        (text.takeWhile isGap ++ (reading.lexeme ++ reading.rest))
        (⟨reading.kind, ⟨start, length⟩⟩ :: tokens) :=
      .next (fun c => List.mem_takeWhile_imp) (readToken?_lexeme found) ih
    rwa [← readToken?_text found, whole] at tiled

/-- A character of two texts in a row is in the first one, or has all of it before. -/
theorem cases_of_append_eq {first second before after : List Char} {c : Char}
    (same : first ++ second = before ++ c :: after) :
    (c ∈ first ∧ byteLength before < byteLength first) ∨
      ∃ between, before = first ++ between ∧ second = between ++ c :: after := by
  rcases List.append_eq_append_iff.mp same with
    ⟨between, isBefore, isSecond⟩ | ⟨between, isFirst, isAfter⟩
  · exact .inr ⟨between, isBefore, isSecond⟩
  · cases between with
    | nil =>
      rw [List.append_nil] at isFirst
      exact .inr ⟨[], by simp [isFirst], by simpa using isAfter.symm⟩
    | cons d between =>
      obtain ⟨rfl, rfl⟩ := List.cons.inj isAfter
      subst isFirst
      refine .inl ⟨by simp, ?_⟩
      rw [byteLength_append]
      exact Nat.lt_add_of_pos_right (byteLength_pos (by simp))

section Tilings

variable {stop offset : Nat} {rest text : List Char} {tokens : List Token}

/-- Every token of a tiling cuts out a lexeme that stands alone. -/
theorem Tiled.exists_lexeme (tiled : Tiled stop rest offset text tokens) {token : Token}
    (inside : token ∈ tokens) :
    ∃ before lexeme after, text = before ++ lexeme ++ after ∧
      offset + byteLength before = token.span.offset ∧ byteLength lexeme = token.span.length ∧
        StandsAlone token.kind lexeme := by
  induction tiled with
  | last => cases inside
  | @next offset gap lexeme behind kind tokens isGap alone _ ih =>
    rcases List.mem_cons.mp inside with rfl | later
    · exact ⟨gap, lexeme, behind, by simp, rfl, rfl, alone⟩
    · obtain ⟨before, lexeme', after, rfl, start, length, alone'⟩ := ih later
      refine ⟨gap ++ (lexeme ++ before), lexeme', after, by simp, ?_, length, alone'⟩
      simp only [byteLength_append]
      omega

/-- Every character of a tiled text is in a gap, in a lexeme, or behind all lexemes. -/
theorem Tiled.character_cases (tiled : Tiled stop rest offset text tokens)
    {before after : List Char} {c : Char} (same : text = before ++ c :: after) :
    isGap c = true ∨ (∃ token ∈ tokens, token.span.Covers (offset + byteLength before)) ∨
      ∃ between, rest = between ++ c :: after := by
  induction tiled generalizing before with
  | last isGap _ =>
    rcases cases_of_append_eq same with ⟨inGap, _⟩ | ⟨between, _, isRest⟩
    · exact .inl (isGap c inGap)
    · exact .inr (.inr ⟨between, isRest⟩)
  | @next offset gap lexeme behind kind tokens isGap alone _ ih =>
    rcases cases_of_append_eq same with ⟨inGap, _⟩ | ⟨afterGap, rfl, sameFront⟩
    · exact .inl (isGap c inGap)
    rcases cases_of_append_eq sameFront with ⟨_, short⟩ | ⟨behindLexeme, rfl, sameBehind⟩
    · refine .inr (.inl ⟨_, List.mem_cons_self, ?_⟩)
      simp only [Span.Covers, Span.stop, byteLength_append]
      omega
    · rcases ih sameBehind with inGap | ⟨token, inside, covers⟩ | isRest
      · exact .inl inGap
      · refine .inr (.inl ⟨token, List.mem_cons_of_mem _ inside, ?_⟩)
        simp only [byteLength_append]
        simpa only [Nat.add_assoc] using covers
      · exact .inr (.inr isRest)

end Tilings

/-! ## Texts of tokens -/

/-- The tokens tile the text: they come in order, with the end of the text as the last one;
each of the others cuts out characters that give the same token when they are read alone; and
no character outside of them is anything but blank. -/
structure Tiles (text : String) (tokens : List Token) : Prop where
  ordered : InOrder tokens
  ended : ∃ inner, tokens = inner ++ [⟨.endOfText, ⟨byteLength text.toList, 0⟩⟩] ∧ Inside inner
  inText : ∀ token ∈ tokens, token.span.InText text.toList
  lexeme : ∀ token ∈ tokens, token.kind ≠ .endOfText → 0 < token.span.length ∧
    ∃ lexeme, token.span.Cuts text.toList lexeme ∧
      tokenize (String.ofList lexeme) =
        .ok [⟨token.kind, ⟨0, token.span.length⟩⟩, ⟨.endOfText, ⟨token.span.length, 0⟩⟩]
  blank : ∀ before c after, text.toList = before ++ c :: after →
    (∀ token ∈ tokens, ¬ token.span.Covers (byteLength before)) → Text.isBlank c = true

/-- What `tokenize` gives is read from the front of the text, with blank characters behind. -/
theorem readTokens_of_tokenize {text : String} {tokens : List Token}
    (done : tokenize text = .ok tokens) :
    ∃ stop rest inner, readTokens 0 text.toList = (inner, stop, rest) ∧
      tokens = inner ++ [⟨.endOfText, ⟨byteLength text.toList, 0⟩⟩] ∧
        ∀ c ∈ rest, Text.isBlank c = true := by
  unfold tokenize at done
  dsimp only at done
  split at done
  next blank =>
    cases done
    exact ⟨_, _, _, rfl, rfl, List.dropWhile_eq_nil_iff.mp blank⟩
  next => split at done <;> cases done

section Texts

variable {text : String} {tokens : List Token} (done : tokenize text = .ok tokens)
include done

/-- Every token before the end cuts out a lexeme that stands alone. -/
theorem exists_lexeme_of_tokenize {token : Token} (inside : token ∈ tokens) :
    token = ⟨.endOfText, ⟨byteLength text.toList, 0⟩⟩ ∨
      ∃ lexeme, token.span.Cuts text.toList lexeme ∧ StandsAlone token.kind lexeme := by
  obtain ⟨stop, rest, inner, read, rfl, _⟩ := readTokens_of_tokenize done
  have tiled := tiled_readTokens 0 text.toList
  rw [read] at tiled
  rcases List.mem_append.mp inside with isInner | isEnd
  · obtain ⟨before, lexeme, after, same, start, length, alone⟩ := tiled.exists_lexeme isInner
    rw [Nat.zero_add] at start
    exact .inr ⟨lexeme, ⟨before, after, same, start, length⟩, alone⟩
  · exact .inl (List.mem_singleton.mp isEnd)

/-- Tokens begin and end between characters of the text. -/
theorem inText_of_tokenize {token : Token} (inside : token ∈ tokens) :
    token.span.InText text.toList := by
  rcases exists_lexeme_of_tokenize done inside with rfl | ⟨lexeme, cuts, _⟩
  · exact ⟨⟨text.toList, [], by simp, rfl⟩, ⟨text.toList, [], by simp, rfl⟩⟩
  · exact cuts.inText

/-- What no token covers is blank. -/
theorem isBlank_of_uncovered {before after : List Char} {c : Char}
    (same : text.toList = before ++ c :: after)
    (uncovered : ∀ token ∈ tokens, ¬ token.span.Covers (byteLength before)) :
    Text.isBlank c = true := by
  obtain ⟨stop, rest, inner, read, rfl, blank⟩ := readTokens_of_tokenize done
  have tiled := tiled_readTokens 0 text.toList
  rw [read] at tiled
  rcases tiled.character_cases same with isGap | ⟨token, inside, covers⟩ | ⟨between, isRest⟩
  · exact isBlank_of_isGap isGap
  · rw [Nat.zero_add] at covers
    exact absurd covers (uncovered token (List.mem_append_left _ inside))
  · dsimp only at isRest
    exact blank c (by simp [isRest])

/-- **Tokens tile the text.** Whatever can be cut into tokens consists of their lexemes and of
blank characters, and each lexeme is a text of its own with the same token. -/
theorem tiles_of_tokenize : Tiles text tokens := by
  obtain ⟨stop, rest, inner, read, isAll, _⟩ := readTokens_of_tokenize done
  have tiled := tiled_readTokens 0 text.toList
  rw [read] at tiled
  refine ⟨inOrder_of_tokenize done, ⟨inner, isAll, ?_⟩, ?_, ?_, ?_⟩
  · intro token inside
    obtain ⟨_, _, _, _, _, _, alone⟩ := tiled.exists_lexeme inside
    exact alone.kind_ne_endOfText
  · intro token inside
    exact inText_of_tokenize done inside
  · intro token inside notEnd
    rcases exists_lexeme_of_tokenize done inside with rfl | ⟨lexeme, cuts, alone⟩
    · exact absurd rfl notEnd
    · rw [← cuts.byteLength_eq]
      exact ⟨byteLength_pos alone.ne_nil, lexeme, cuts, alone.tokenize⟩
  · intro before c after same uncovered
    exact isBlank_of_uncovered done same uncovered

end Texts

/-- A text with an escape, a character of two bytes and a no-break space at its end. -/
def tiledText : String := "\"\\u\x7b20AC\x7d é\" != null\u00a0"

/-- The tokens of the text. -/
def tiledTokens : List Token :=
  [ ⟨.text "€ é", ⟨0, 13⟩⟩, ⟨.symbol .notEqual, ⟨14, 2⟩⟩, ⟨.keyword .null, ⟨17, 4⟩⟩,
    ⟨.endOfText, ⟨23, 0⟩⟩ ]

theorem tiles_tiledText :
    tokenize tiledText = .ok tiledTokens ∧ Tiles tiledText tiledTokens := by
  have string : readToken? (tiledText.toList.dropWhile isGap) =
      some ⟨.text "€ é", "\"\\u\x7b20AC\x7d é\"".toList, " != null\u00a0".toList⟩ := by
    with_unfolding_all rfl
  have behind : readTokens 13 " != null\u00a0".toList =
      ([⟨.symbol .notEqual, ⟨14, 2⟩⟩, ⟨.keyword .null, ⟨17, 4⟩⟩], 21, ['\u00a0']) := by
    with_unfolding_all rfl
  have read : readTokens 0 tiledText.toList =
      (⟨.text "€ é", ⟨0, 13⟩⟩ :: (readTokens 13 " != null\u00a0".toList).1,
        (readTokens 13 " != null\u00a0".toList).2) :=
    readTokens_of_some string (by with_unfolding_all rfl)
  rw [behind] at read
  have done : tokenize tiledText = .ok tiledTokens := by
    rw [tokenize, read]
    with_unfolding_all rfl
  exact ⟨done, tiles_of_tokenize done⟩

end Surface

end ExprImports
