import ExprImports.Proofs.Surface.Tiling
import ExprImports.Proofs.Surface.Words

/-!
# Reading tokens as messages show them

A message shows a token by its text, and most such texts are read as the token again. Strings are
written with escapes of one table and read with those of another: all of the first table are in the
second but the one of the character U+0000 (`readPiece?_quotedChar`). So a string is read from its
text exactly if this character is not in it.

**Separate tokens.** A text with a space behind it is read as its token, whatever follows
(`SeparatelyRead`). So texts with single spaces between them are read as their tokens, one after
the other (`readTokens_spaced`). Any tokens that can be written are read again from what the
messages show of them, alone or spaced (`tokenize_display`).
-/

set_option autoImplicit false

namespace ExprImports

/-! ## Digits -/

namespace Text

theorem isHexDigit_of_mem_toDigits {value : Nat} {c : Char}
    (inside : c ∈ Nat.toDigits 16 value) : isHexDigit c = true := by
  induction value using Nat.strongRecOn generalizing c with
  | ind value ih =>
    by_cases small : value < 16
    · rw [Nat.toDigits_of_lt_base small] at inside
      obtain rfl := List.mem_singleton.mp inside
      exact isHexDigit_hexDigit value small
    · rw [Nat.toDigits_of_base_le (by decide) (by omega)] at inside
      rcases List.mem_append.mp inside with high | low
      · exact ih (value / 16) (by omega) high
      · obtain rfl := List.mem_singleton.mp low
        exact isHexDigit_hexDigit (value % 16) (by omega)

/-- The digits of a value have this value. -/
theorem hexValue_toDigits (value : Nat) : hexValue (Nat.toDigits 16 value) = value := by
  induction value using Nat.strongRecOn with
  | ind value ih =>
    by_cases small : value < 16
    · rw [Nat.toDigits_of_lt_base small]
      simpa [hexValue, valueInBase, hexDigit] using hexDigitValue_hexDigit value small
    · have high := ih (value / 16) (by omega)
      have low := hexDigitValue_hexDigit (value % 16) (by omega)
      rw [Nat.toDigits_of_base_le (by decide) (by omega)]
      rw [hexValue, valueInBase] at high ⊢
      rw [List.foldl_append, high, List.foldl_cons, List.foldl_nil]
      rw [hexDigit] at low
      omega

end Text

namespace Surface

theorem decimalValue_toDigits (value : Nat) : decimalValue (Nat.toDigits 10 value) = value := by
  have same : decimalValue (Nat.toDigits 10 value) =
      Nat.ofDigitChars 10 (Nat.toDigits 10 value) 0 := by
    rw [decimalValue, Nat.ofDigitChars_eq_foldl]
    congr 1
    funext total digit
    rw [Nat.mul_comm]
  rw [same, Nat.ofDigitChars_ten_toDigits]

/-! ## Strings -/

/-- A code point in braces is read as its character. -/
theorem readPiece?_codePointEscape (c : Char) (rest : List Char) :
    readPiece? (Text.codePointEscape c ++ rest) = some ⟨c, Text.codePointEscape c, rest⟩ := by
  have few : (Nat.toDigits 16 c.toNat).length ≤ 6 := by
    rw [Nat.length_toDigits_le_iff (by decide) (by decide)]
    have valid : c.toNat < 0xD800 ∨ 0xDFFF < c.toNat ∧ c.toNat < 0x110000 := c.valid
    omega
  have brace : Text.isHexDigit '\x7d' = false := by decide
  have run : ((Nat.toDigits 16 c.toNat ++ '\x7d' :: rest).takeWhile Text.isHexDigit).take 6 =
      Nat.toDigits 16 c.toNat := by
    rw [List.takeWhile_append_of_pos fun d => Text.isHexDigit_of_mem_toDigits,
      List.takeWhile_cons_of_neg (by simp [brace]), List.append_nil, List.take_of_length_le few]
  have valid : c.toNat.isValidChar := c.valid
  have read : readCodePoint? (Nat.toDigits 16 c.toNat ++ '\x7d' :: rest) =
      some ⟨c, Text.codePointEscape c, rest⟩ := by
    simp [readCodePoint?, run, Text.hexValue_toDigits, valid, Text.codePointEscape]
  simpa [Text.codePointEscape, readPiece?] using read

/-- **A written character is read back** unless it is U+0000. -/
theorem readPiece?_quotedChar {c : Char} (noNull : c ≠ '\x00') (rest : List Char) :
    readPiece? (Text.quotedChar c ++ rest) = some ⟨c, Text.quotedChar c, rest⟩ := by
  have noCode : c.toNat ≠ 0 := by
    intro code
    apply noNull
    rw [← Char.ofNat_toNat c, code]
  unfold Text.quotedChar
  split_ifs with quote backslash newline carriage tab printable
  · rw [quote]
    rfl
  · rw [backslash]
    rfl
  · rw [newline]
    rfl
  · rw [carriage]
    rfl
  · rw [tab]
    rfl
  · exact readPiece?_self rest backslash quote
  · exact readPiece?_codePointEscape c rest

theorem readPiece?_null (rest : List Char) :
    readPiece? (Text.quotedChar '\x00' ++ rest) = none := by
  rfl

theorem readContents?_of_none {text : List Char} (missed : readPiece? text = none)
    (opened : text.head? ≠ some '"') : readContents? text = none := by
  rw [readContents?, if_neg opened]
  split
  next => rfl
  next found =>
    rw [missed] at found
    cases found

section Contents

variable {text : List Char} (rest : List Char)

theorem readContents?_quoted (noNull : '\x00' ∉ text) :
    readContents? (text.flatMap Text.quotedChar ++ '"' :: rest) =
      some (text, text.flatMap Text.quotedChar ++ ['"'], rest) := by
  induction text with
  | nil =>
    rw [List.flatMap_nil, List.nil_append, readContents?]
    rfl
  | cons c text ih =>
    obtain ⟨here, later⟩ := not_or.mp (List.mem_cons.not.mp noNull)
    rw [List.flatMap_cons, List.append_assoc,
      readContents?_of_some (readPiece?_quotedChar (Ne.symm here) _), ih later,
      List.append_assoc]
    rfl

theorem readContents?_null (null : '\x00' ∈ text) :
    readContents? (text.flatMap Text.quotedChar ++ '"' :: rest) = none := by
  induction text with
  | nil => cases null
  | cons c text ih =>
    rw [List.flatMap_cons, List.append_assoc]
    by_cases here : c = '\x00'
    · subst here
      exact readContents?_of_none (readPiece?_null _) (by rintro ⟨⟩)
    · have later := (List.mem_cons.mp null).resolve_left (Ne.symm here)
      rw [readContents?_of_some (readPiece?_quotedChar here _), ih later]
      rfl

end Contents

/-! ## Separate tokens -/

/-- With a space behind it, the text is read as a token of the kind, whatever follows. -/
def SeparatelyRead (kind : TokenKind) (lexeme : List Char) : Prop :=
  ∀ behind, readToken? (lexeme ++ ' ' :: behind) = some ⟨kind, lexeme, ' ' :: behind⟩

theorem SeparatelyRead.standsAlone {kind : TokenKind} {lexeme : List Char}
    (separately : SeparatelyRead kind lexeme) : StandsAlone kind lexeme := by
  have alone := readToken?_cut (separately []) List.nil_prefix
  rwa [List.append_nil] at alone

theorem separatelyRead_symbol (sign : Symbol) : SeparatelyRead (.symbol sign) sign.spelling := by
  intro behind
  cases sign <;> rfl

/-- The name begins as a word does. -/
def BeginsWord (name : String) : Prop :=
  name.toList.head?.any isWordStart = true

theorem separatelyRead_word {name : String} (begins : BeginsWord name) (word : IsWord name) :
    SeparatelyRead (wordKind name) name.toList := by
  intro behind
  have ends : (' ' :: behind).takeWhile isWordPart = [] := rfl
  cases spelled : name.toList with
  | nil => simp [BeginsWord, spelled] at begins
  | cons c parts =>
    have start : isWordStart c = true := by simpa [BeginsWord, spelled] using begins
    have allParts : ∀ d ∈ parts, isWordPart d = true := fun d inside =>
      word d (by simp [spelled, inside])
    have read := readWord?_word start allParts ends
    rw [← spelled, String.ofList_toList, spelled] at read
    have noSymbol := readSymbol?_eq_none (p := isWordStart) (fun symbol => by cases symbol <;> rfl)
      (parts ++ ' ' :: behind) start
    rw [readToken?, read, List.cons_append, noSymbol,
      readNumber?_eq_none _ (isDigit_of_isWordStart start),
      readText?_eq_none _ (ne_quote_of_isWordStart start)]
    rfl

theorem separatelyRead_integer {value : Nat} (bound : value ≤ maxInteger) :
    SeparatelyRead (.integer value) (Nat.toDigits 10 value) := by
  intro behind
  have digits : ∀ c ∈ Nat.toDigits 10 value, c.isDigit = true := fun c =>
    Nat.isDigit_of_mem_toDigits (by decide) (by decide)
  have read : readNumber? (Nat.toDigits 10 value ++ ' ' :: behind) =
      some ⟨.integer (decimalValue (Nat.toDigits 10 value)), Nat.toDigits 10 value,
        ' ' :: behind⟩ :=
    readNumber?_integer Nat.toDigits_ne_nil digits rfl (by rintro _ ⟨⟩)
      (by rwa [decimalValue_toDigits])
  rw [decimalValue_toDigits] at read
  have noSymbol : readSymbol? (Nat.toDigits 10 value ++ ' ' :: behind) = none := by
    cases isCons : Nat.toDigits 10 value with
    | nil => exact absurd isCons Nat.toDigits_ne_nil
    | cons c others =>
      have first : c.isDigit = true := digits c (by simp [isCons])
      exact readSymbol?_eq_none (p := Char.isDigit) (fun symbol => by cases symbol <;> rfl) _
        first
  rw [readToken?, noSymbol, read]
  rfl

/-- Behind a quote only a string can be read. -/
theorem readToken?_quote (body : List Char) :
    readToken? ('"' :: body) = (readContents? body).map fun (contents, lexeme, rest) =>
      ⟨.text (String.ofList contents), '"' :: lexeme, rest⟩ := by
  have noSymbol : readSymbol? ('"' :: body) = none :=
    readSymbol?_eq_none (p := (· == '"')) (fun symbol => by cases symbol <;> rfl) body rfl
  rw [readToken?, noSymbol, readNumber?_eq_none _ rfl, Option.none_or, Option.none_or]
  exact Option.or_none

theorem toList_quoted (contents : String) :
    (Text.quoted contents).toList = '"' :: (contents.toList.flatMap Text.quotedChar ++ ['"']) := by
  rw [Text.quoted, String.toList_ofList, List.cons_append]

theorem separatelyRead_text {contents : String} (noNull : '\x00' ∉ contents.toList) :
    SeparatelyRead (.text contents) (Text.quoted contents).toList := by
  intro behind
  have read := readContents?_quoted (' ' :: behind) noNull
  rw [toList_quoted, List.cons_append, List.append_assoc, List.singleton_append,
    readToken?_quote, read]
  simp only [Option.map_some, String.ofList_toList]

/-- A word that is no keyword. -/
structure IsIdentifier (name : String) : Prop where
  begins : BeginsWord name
  word : IsWord name
  noKeyword : ∀ keyword : Keyword, keyword.spelling ≠ name

theorem beginsWord_keyword (keyword : Keyword) : BeginsWord keyword.spelling := by
  cases keyword <;> rfl

theorem isWord_keyword (keyword : Keyword) : IsWord keyword.spelling := by
  have all : keyword.spelling.toList.all isWordPart = true := by cases keyword <;> rfl
  exact fun c inside => List.all_eq_true.mp all c inside

theorem wordKind_keyword (keyword : Keyword) : wordKind keyword.spelling = .keyword keyword := by
  cases keyword <;> rfl

theorem IsIdentifier.wordKind_eq {name : String} (isIdentifier : IsIdentifier name) :
    wordKind name = .identifier name := by
  have missed : (Keyword.all.find? fun keyword => keyword.spelling == name) = none := by
    rw [List.find?_eq_none]
    intro keyword _
    simpa using isIdentifier.noKeyword keyword
  rw [wordKind, missed]

/-- The tokens that are shown as they may be written. The end of the text is none of them, and
numbers with a fraction are left out. -/
def TokenKind.IsWritable : TokenKind → Prop
  | .symbol _ | .keyword _ => True
  | .identifier name => IsIdentifier name
  | .integer value => 0 ≤ value ∧ value ≤ maxInteger
  | .text contents => '\x00' ∉ contents.toList
  | .floating _ | .endOfText => False

/-- **A token is read from the text that shows it.** -/
theorem TokenKind.IsWritable.separatelyRead {kind : TokenKind} (writable : kind.IsWritable) :
    SeparatelyRead kind kind.display.toList := by
  cases kind with
  | symbol sign =>
    rw [TokenKind.display, String.toList_ofList]
    exact separatelyRead_symbol sign
  | keyword word =>
    have read := separatelyRead_word (beginsWord_keyword word) (isWord_keyword word)
    rwa [wordKind_keyword] at read
  | identifier name =>
    have read := separatelyRead_word writable.begins writable.word
    rwa [writable.wordKind_eq] at read
  | integer value =>
    obtain ⟨value, rfl⟩ := Int.eq_ofNat_of_zero_le writable.1
    have read := separatelyRead_integer (Int.ofNat_le.mp writable.2)
    rwa [← Nat.toList_repr] at read
  | text contents => exact separatelyRead_text writable
  | floating value => cases writable
  | endOfText => cases writable

/-! ## Texts of tokens with spaces between them -/

/-- The texts of tokens, each behind a space. -/
def spaced (kinds : List TokenKind) : List Char :=
  kinds.flatMap fun kind => ' ' :: kind.display.toList

theorem readToken?_spaced {kind : TokenKind} (writable : kind.IsWritable)
    (others : List TokenKind) :
    readToken? (kind.display.toList ++ spaced others) =
      some ⟨kind, kind.display.toList, spaced others⟩ := by
  cases others with
  | nil =>
    rw [spaced, List.flatMap_nil, List.append_nil]
    exact writable.separatelyRead.standsAlone
  | cons next others => exact writable.separatelyRead _

/-- The tokens that are read from a text are of these kinds, and nothing is left. -/
structure ReadAs (kinds : List TokenKind) (read : List Token × Nat × List Char) : Prop where
  kinds : read.1.map Token.kind = kinds
  nothing : read.2.2 = []

theorem ReadAs.of_token {offset : Nat} (gap : List Char) {text : List Char}
    (isGap : ∀ c ∈ gap, isGap c = true) {reading : Reading}
    (found : readToken? text = some reading) {kinds : List TokenKind}
    (behind : ∀ offset, ReadAs kinds (readTokens offset reading.rest)) :
    ReadAs (reading.kind :: kinds) (readTokens offset (gap ++ text)) := by
  have front : (gap ++ text).dropWhile Surface.isGap = text :=
    dropWhile_run isGap (takeWhile_gap_of_token found)
  rw [← front] at found
  rw [readTokens_of_some found rfl]
  refine ⟨?_, (behind _).nothing⟩
  rw [List.map_cons, (behind _).kinds]

/-- Texts with spaces between them are read as their tokens. -/
theorem readTokens_spaced {kinds : List TokenKind} (writable : ∀ kind ∈ kinds, kind.IsWritable)
    (offset : Nat) : ReadAs kinds (readTokens offset (spaced kinds)) := by
  induction kinds generalizing offset with
  | nil =>
    rw [spaced, List.flatMap_nil, readTokens_of_none rfl]
    exact ⟨rfl, rfl⟩
  | cons kind kinds ih =>
    obtain ⟨here, later⟩ := List.forall_mem_cons.mp writable
    exact ReadAs.of_token [' '] (by simp [isGap]) (readToken?_spaced here kinds) (ih later)

theorem toList_intercalate_display (kind : TokenKind) (kinds : List TokenKind) :
    (" ".intercalate ((kind :: kinds).map TokenKind.display)).toList =
      kind.display.toList ++ spaced kinds := by
  induction kinds generalizing kind with
  | nil => simp [spaced]
  | cons next kinds ih =>
    rw [List.map_cons, List.map_cons, String.intercalate_cons_cons, String.toList_append,
      String.toList_append, ← List.map_cons, ih]
    simp [spaced]

theorem tokenize_of_readAs {text : String} {kinds : List TokenKind}
    (read : ReadAs kinds (readTokens 0 text.toList)) :
    (tokenize text).map (·.map Token.kind) = .ok (kinds ++ [.endOfText]) := by
  have done : tokenize text = .ok ((readTokens 0 text.toList).1 ++
      [⟨.endOfText, ⟨byteLength text.toList, 0⟩⟩]) := by
    simp [tokenize, read.nothing]
  rw [done, Except.map, List.map_append, read.kinds]
  rfl

theorem tokenize_intercalate {kinds : List TokenKind}
    (writable : ∀ kind ∈ kinds, kind.IsWritable) :
    (tokenize (" ".intercalate (kinds.map TokenKind.display))).map (·.map Token.kind) =
      .ok (kinds ++ [.endOfText]) := by
  apply tokenize_of_readAs
  cases kinds with
  | nil => exact readTokens_spaced writable 0
  | cons kind kinds =>
    obtain ⟨here, later⟩ := List.forall_mem_cons.mp writable
    rw [toList_intercalate_display]
    exact ReadAs.of_token [] (List.forall_mem_nil _) (readToken?_spaced here kinds)
      (readTokens_spaced later)

/-- A text that begins with no token, no digit and nothing blank has its fault at once. -/
theorem tokenize_of_none {text : String} {c : Char} {rest : List Char}
    (spelled : text.toList = c :: rest) (missed : readToken? (c :: rest) = none)
    (dark : Text.isBlank c = false) (noDigit : c.isDigit = false) :
    tokenize text = .error (.unexpectedCharacter 0 c) := by
  have noGap : isGap c = false := by
    by_contra gap
    rw [isBlank_of_isGap (Bool.not_eq_false _ ▸ gap)] at dark
    cases dark
  have front : (c :: rest).dropWhile isGap = c :: rest :=
    List.dropWhile_cons_of_neg (by simp [noGap])
  have read : readTokens 0 text.toList = ([], 0, c :: rest) := by
    rw [spelled, readTokens_of_none (by rwa [front]), front,
      List.takeWhile_cons_of_neg (by simp [noGap])]
    rfl
  simp [tokenize, read, dark, noDigit, byteLength]

/-- A string with the character U+0000 is not read from its text: no token begins there. -/
theorem tokenize_display_null {contents : String} (null : '\x00' ∈ contents.toList) :
    tokenize (TokenKind.text contents).display = .error (.unexpectedCharacter 0 '"') := by
  refine tokenize_of_none (toList_quoted contents) ?_ rfl rfl
  rw [readToken?_quote, readContents?_null [] null, Option.map_none]

/-- **Tokens are read from the texts that show them.** -/
theorem tokenize_display :
    (∀ contents : String,
      (tokenize (TokenKind.text contents).display).map (·.map Token.kind) =
          .ok [.text contents, .endOfText] ↔ '\x00' ∉ contents.toList) ∧
      ∀ kinds : List TokenKind, (∀ kind ∈ kinds, kind.IsWritable) →
        (tokenize (" ".intercalate (kinds.map TokenKind.display))).map (·.map Token.kind) =
          .ok (kinds ++ [.endOfText]) := by
  refine ⟨fun contents => ⟨fun read null => ?_, fun noNull => ?_⟩, fun kinds writable => ?_⟩
  · rw [tokenize_display_null null] at read
    cases read
  · have whole := tokenize_intercalate (List.forall_mem_singleton.mpr
      (show (TokenKind.text contents).IsWritable from noNull))
    rwa [List.map_singleton, String.intercalate_singleton] at whole
  · exact tokenize_intercalate writable

/-- Tokens of every kind of spelling, with a mark that is not shown as it stands. -/
def mixedKinds : List TokenKind :=
  [ .identifier "x", .symbol .lessEqual, .integer 9223372036854775807, .symbol .andAnd,
    .keyword .null, .text "e\u0301\"" ]

theorem tokenize_display_mixedKinds :
    (∀ kind ∈ mixedKinds, kind.IsWritable) ∧
      (tokenize "x <= 9223372036854775807 && null \"e\\u\x7b301\x7d\\\"\"").map
        (·.map Token.kind) = .ok (mixedKinds ++ [.endOfText]) := by
  have name : IsIdentifier "x" :=
    ⟨rfl, List.forall_mem_singleton.mpr rfl, fun keyword => by cases keyword <;> decide⟩
  have writable : ∀ kind ∈ mixedKinds, kind.IsWritable := by
    have marked : '\x00' ∉ "e\u0301\"".toList := by decide
    simp only [mixedKinds, List.forall_mem_cons]
    exact ⟨name, trivial, ⟨by decide, by decide⟩, trivial, trivial, marked, List.forall_mem_nil _⟩
  have shown : " ".intercalate (mixedKinds.map TokenKind.display) =
      "x <= 9223372036854775807 && null \"e\\u\x7b301\x7d\\\"\"" := by
    decide +kernel
  have read := tokenize_display.2 mixedKinds writable
  rw [shown] at read
  exact ⟨writable, read⟩

end Surface

end ExprImports
