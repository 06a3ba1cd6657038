import ExprImports.Surface.Token
import ExprImports.Text.Blank
import ExprImports.Text.Hexadecimal

/-!
# Reading tokens

A text is cut into tokens from left to right. At every place at most one token can
be read; it is given with its lexeme, the characters that it takes, and with what
is left of the text. `Reading.text_eq` says that nothing is lost and
`Reading.rest_length_lt` that a token is never empty.
-/

set_option autoImplicit false

namespace ExprImports.Surface

/-- A token read from the front of a text, the characters that it takes, and the
characters behind it. -/
structure Reading where
  kind : TokenKind
  lexeme : List Char
  rest : List Char
  deriving DecidableEq, Inhabited

/-- The greatest value of an integer token. -/
def maxInteger : Nat := 0x7FFFFFFFFFFFFFFF

/-- The first symbol with which the text begins. -/
def readSymbol? (text : List Char) : Option Reading :=
  (Symbol.all.find? fun symbol => symbol.spelling.isPrefixOf text).map fun symbol =>
    ⟨.symbol symbol, symbol.spelling, text.drop symbol.spelling.length⟩

/-- The value of a run of decimal digits. -/
def decimalValue (digits : List Char) : Nat :=
  digits.foldl (fun value digit => value * 10 + (digit.toNat - '0'.toNat)) 0

/-- A number: digits, and digits after a point if both are there. An integer must
not exceed the greatest value. -/
def readNumber? (text : List Char) : Option Reading :=
  let digits := text.takeWhile Char.isDigit
  let rest := text.dropWhile Char.isDigit
  if digits.isEmpty then none
  else
    let whole : Option Reading :=
      if decimalValue digits ≤ maxInteger then some ⟨.integer (decimalValue digits), digits, rest⟩
      else none
    match rest with
    | '.' :: behind =>
      let fraction := behind.takeWhile Char.isDigit
      if fraction.isEmpty then whole
      else
        some
          { kind := .floating (.ofDecimal (decimalValue (digits ++ fraction)) fraction.length)
            lexeme := digits ++ '.' :: fraction
            rest := behind.dropWhile Char.isDigit }
    | _ => whole

/-! ## Strings -/

/-- A part of a string between its quotes: the character it stands for, the
characters it takes, and those behind it. -/
structure Piece where
  value : Char
  lexeme : List Char
  rest : List Char
  deriving DecidableEq, Inhabited

/-- A code point in braces, of one to six hexadecimal digits, that is a character. -/
def readCodePoint? (text : List Char) : Option Piece :=
  let digits := (text.takeWhile Text.isHexDigit).take 6
  let value := Text.hexValue digits
  match text.drop digits.length with
  | '\x7d' :: rest =>
    if digits.isEmpty || !value.isValidChar then none
    else some ⟨Char.ofNat value, '\\' :: 'u' :: '\x7b' :: digits ++ ['\x7d'], rest⟩
  | _ => none

/-- One character of a string, either itself or by an escape. -/
def readPiece? : List Char → Option Piece
  | '\\' :: '\\' :: rest => some ⟨'\\', ['\\', '\\'], rest⟩
  | '\\' :: '"' :: rest => some ⟨'"', ['\\', '"'], rest⟩
  | '\\' :: 'r' :: rest => some ⟨'\r', ['\\', 'r'], rest⟩
  | '\\' :: 'n' :: rest => some ⟨'\n', ['\\', 'n'], rest⟩
  | '\\' :: 't' :: rest => some ⟨'\t', ['\\', 't'], rest⟩
  | '\\' :: 'u' :: '\x7b' :: rest => readCodePoint? rest
  | '\\' :: _ => none
  | '"' :: _ => none
  | c :: rest => some ⟨c, [c], rest⟩
  | [] => none

theorem readCodePoint?_rest {text : List Char} {piece : Piece}
    (h : readCodePoint? text = some piece) :
    '\\' :: 'u' :: '\x7b' :: text = piece.lexeme ++ piece.rest := by
  unfold readCodePoint? at h
  simp only at h
  split at h
  · rename_i rest found
    split at h
    · simp at h
    · simp only [Option.some.injEq] at h
      subst h
      have split := List.take_append_drop ((text.takeWhile Text.isHexDigit).take 6).length text
      have front : text.take ((text.takeWhile Text.isHexDigit).take 6).length =
          (text.takeWhile Text.isHexDigit).take 6 := by
        have run : text.takeWhile Text.isHexDigit <+: text := List.takeWhile_prefix _
        have initial : (text.takeWhile Text.isHexDigit).take 6 <+: text :=
          (List.take_prefix _ _).trans run
        exact (List.prefix_iff_eq_take.mp initial).symm
      rw [front, found] at split
      exact (congrArg (fun behind => '\\' :: 'u' :: '\x7b' :: behind) split.symm).trans (by simp)
  · simp at h

/-- A piece and what is behind it make up the text. -/
theorem readPiece?_text {text : List Char} {piece : Piece} (h : readPiece? text = some piece) :
    text = piece.lexeme ++ piece.rest := by
  unfold readPiece? at h
  split at h
  all_goals first
    | (simp only [Option.some.injEq] at h; subst h; rfl)
    | exact readCodePoint?_rest h
    | simp at h

theorem readPiece?_lexeme_ne_nil {text : List Char} {piece : Piece}
    (h : readPiece? text = some piece) : piece.lexeme ≠ [] := by
  unfold readPiece? at h
  split at h
  all_goals first
    | (simp only [Option.some.injEq] at h; subst h; simp)
    | skip
  all_goals first
    | (unfold readCodePoint? at h
       simp only at h
       split at h
       · split at h
         · simp at h
         · simp only [Option.some.injEq] at h
           subst h
           simp
       · simp at h)
    | simp at h

theorem readPiece?_rest_length_lt {text : List Char} {piece : Piece}
    (h : readPiece? text = some piece) : piece.rest.length < text.length := by
  have whole := congrArg List.length (readPiece?_text h)
  have filled := List.length_pos_iff.mpr (readPiece?_lexeme_ne_nil h)
  simp only [List.length_append] at whole
  omega

/-- The pieces of a string up to the closing quote: its contents, its characters
with the closing quote, and those behind it. -/
def readContents? (text : List Char) : Option (List Char × List Char × List Char) :=
  if text.head? = some '"' then some ([], ['"'], text.tail)
  else
    match _found : readPiece? text with
    | none => none
    | some piece =>
      (readContents? piece.rest).map fun (contents, lexeme, rest) =>
        (piece.value :: contents, piece.lexeme ++ lexeme, rest)
termination_by text.length
decreasing_by exact readPiece?_rest_length_lt _found

/-- A string between quotes. -/
def readText? : List Char → Option Reading
  | '"' :: body =>
    (readContents? body).map fun (contents, lexeme, rest) =>
      ⟨.text (String.ofList contents), '"' :: lexeme, rest⟩
  | _ => none

/-! ## Words -/

/-- Whether a word can begin with the character: ASCII letters and the underscore. -/
def isWordStart (c : Char) : Bool :=
  c.isAlpha || c == '_'

/-- Whether a word can go on with the character. -/
def isWordPart (c : Char) : Bool :=
  c.isAlphanum || c == '_'

/-- The token that a word is: a keyword, or else an identifier. -/
def wordKind (word : String) : TokenKind :=
  match Keyword.all.find? fun keyword => keyword.spelling == word with
  | some keyword => .keyword keyword
  | none => .identifier word

/-- A keyword or an identifier. -/
def readWord? (text : List Char) : Option Reading :=
  match text with
  | c :: _ =>
    if isWordStart c then
      let word := text.takeWhile isWordPart
      some ⟨wordKind (String.ofList word), word, text.dropWhile isWordPart⟩
    else none
  | [] => none

/-! ## One token -/

/-- The token at the front of a text. -/
def readToken? (text : List Char) : Option Reading :=
  (readSymbol? text).or ((readNumber? text).or ((readText? text).or (readWord? text)))

theorem readSymbol?_text {text : List Char} {reading : Reading}
    (h : readSymbol? text = some reading) : text = reading.lexeme ++ reading.rest := by
  simp only [readSymbol?, Option.map_eq_some_iff] at h
  obtain ⟨symbol, found, rfl⟩ := h
  have initial := List.find?_some found
  rw [List.isPrefixOf_iff_prefix] at initial
  obtain ⟨rest, rfl⟩ := initial
  simp

theorem readSymbol?_lexeme_ne_nil {text : List Char} {reading : Reading}
    (h : readSymbol? text = some reading) : reading.lexeme ≠ [] := by
  simp only [readSymbol?, Option.map_eq_some_iff] at h
  obtain ⟨symbol, _, rfl⟩ := h
  cases symbol <;> simp [Symbol.spelling]

theorem readNumber?_text {text : List Char} {reading : Reading}
    (h : readNumber? text = some reading) : text = reading.lexeme ++ reading.rest := by
  have whole : text.takeWhile Char.isDigit ++ text.dropWhile Char.isDigit = text :=
    List.takeWhile_append_dropWhile
  unfold readNumber? at h
  simp only at h
  split at h
  · simp at h
  · split at h
    · rename_i behind rest
      split at h
      · split at h
        · simp only [Option.some.injEq] at h
          subst h
          exact whole.symm
        · simp at h
      · simp only [Option.some.injEq] at h
        subst h
        rw [rest] at whole
        exact whole.symm.trans (by simp [List.takeWhile_append_dropWhile])
    · split at h
      · simp only [Option.some.injEq] at h
        subst h
        exact whole.symm
      · simp at h

theorem readNumber?_lexeme_ne_nil {text : List Char} {reading : Reading}
    (h : readNumber? text = some reading) : reading.lexeme ≠ [] := by
  unfold readNumber? at h
  simp only at h
  split at h
  · simp at h
  · rename_i filled
    have digits : text.takeWhile Char.isDigit ≠ [] := by simpa using filled
    split at h
    · split at h
      · split at h
        · simp only [Option.some.injEq] at h
          subst h
          exact digits
        · simp at h
      · simp only [Option.some.injEq] at h
        subst h
        simp
    · split at h
      · simp only [Option.some.injEq] at h
        subst h
        exact digits
      · simp at h

theorem readContents?_text {text contents lexeme rest : List Char}
    (h : readContents? text = some (contents, lexeme, rest)) : text = lexeme ++ rest := by
  induction length : text.length using Nat.strongRecOn generalizing text contents lexeme rest with
  | ind size ih =>
    unfold readContents? at h
    split at h
    · rename_i quote
      simp only [Option.some.injEq, Prod.mk.injEq] at h
      obtain ⟨_, rfl, rfl⟩ := h
      cases text with
      | nil => simp at quote
      | cons c rest => simpa using quote
    · split at h
      · simp at h
      · rename_i piece found
        simp only [Option.map_eq_some_iff, Prod.exists, Prod.mk.injEq] at h
        obtain ⟨inner, innerLexeme, _, later, _, rfl, rfl⟩ := h
        have shorter := readPiece?_rest_length_lt found
        rw [List.append_assoc, ← ih _ (length ▸ shorter) later rfl]
        exact readPiece?_text found

theorem readText?_text {text : List Char} {reading : Reading}
    (h : readText? text = some reading) : text = reading.lexeme ++ reading.rest := by
  unfold readText? at h
  split at h
  · simp only [Option.map_eq_some_iff, Prod.exists] at h
    obtain ⟨contents, lexeme, rest, found, rfl⟩ := h
    simp [← readContents?_text found]
  · simp at h

theorem readText?_lexeme_ne_nil {text : List Char} {reading : Reading}
    (h : readText? text = some reading) : reading.lexeme ≠ [] := by
  unfold readText? at h
  split at h
  · simp only [Option.map_eq_some_iff, Prod.exists] at h
    obtain ⟨_, _, _, _, rfl⟩ := h
    simp
  · simp at h

theorem readWord?_text {text : List Char} {reading : Reading}
    (h : readWord? text = some reading) : text = reading.lexeme ++ reading.rest := by
  unfold readWord? at h
  split at h
  · split at h
    · simp only [Option.some.injEq] at h
      subst h
      exact List.takeWhile_append_dropWhile.symm
    · simp at h
  · simp at h

theorem readWord?_lexeme_ne_nil {text : List Char} {reading : Reading}
    (h : readWord? text = some reading) : reading.lexeme ≠ [] := by
  unfold readWord? at h
  split at h
  · rename_i c rest
    split at h
    · rename_i start
      simp only [Option.some.injEq] at h
      subst h
      have continues : isWordPart c = true := by
        simp only [isWordStart, isWordPart, Char.isAlphanum, Bool.or_eq_true] at start ⊢
        exact start.elim (fun letter => Or.inl (Or.inl letter)) Or.inr
      simp [continues]
    · simp at h
  · simp at h

/-- **A token and what is left make up the text.** -/
theorem readToken?_text {text : List Char} {reading : Reading}
    (h : readToken? text = some reading) : text = reading.lexeme ++ reading.rest := by
  simp only [readToken?, Option.or_eq_some_iff] at h
  rcases h with found | ⟨_, found | ⟨_, found | ⟨_, found⟩⟩⟩
  · exact readSymbol?_text found
  · exact readNumber?_text found
  · exact readText?_text found
  · exact readWord?_text found

/-- **A token takes at least one character.** -/
theorem readToken?_lexeme_ne_nil {text : List Char} {reading : Reading}
    (h : readToken? text = some reading) : reading.lexeme ≠ [] := by
  simp only [readToken?, Option.or_eq_some_iff] at h
  rcases h with found | ⟨_, found | ⟨_, found | ⟨_, found⟩⟩⟩
  · exact readSymbol?_lexeme_ne_nil found
  · exact readNumber?_lexeme_ne_nil found
  · exact readText?_lexeme_ne_nil found
  · exact readWord?_lexeme_ne_nil found

theorem readToken?_rest_length_lt {text : List Char} {reading : Reading}
    (h : readToken? text = some reading) : reading.rest.length < text.length := by
  have whole := congrArg List.length (readToken?_text h)
  have filled := List.length_pos_iff.mpr (readToken?_lexeme_ne_nil h)
  simp only [List.length_append] at whole
  omega

end ExprImports.Surface
