import ExprImports.Proofs.Surface.Tiling

/-!
# What a fault in a text points at

A text that cannot be cut into tokens is reported with the place of a character, or of an
integer that is too great. What a reader expects of the place is `PointsAtCulprit`: all before
it are tokens, no token begins there, and an integer is reported exactly where one stands that
is too great.

**Up to the fault.** `TokenSequence` describes the texts that are read to their end: gaps, and
tokens that are read where they stand. What is read from a text does not change when the text
is cut off behind it (`readTokens_cut`), so what stands before a fault is such a sequence by
itself.

**Blanks that are no gaps.** Tokens stand apart by spaces, tabs and line ends, but the fault is
looked for behind every blank character of Unicode. Where another one stands behind the last
token, a no-break space or a vertical tab, it is passed over, and the fault is that of the next
character even where a token begins with it. `exists_culprit` says where the fault lies in all
texts and that it points at its culprit exactly if nothing is passed over.
-/

set_option autoImplicit false

namespace ExprImports.Surface

/-! ## Sequences of tokens -/

/-- The text consists of gaps and of tokens, each of them read where it stands. -/
inductive TokenSequence : List Char → Prop
  | gap {gap : List Char} : (∀ c ∈ gap, isGap c = true) → TokenSequence gap
  | token {gap front : List Char} {reading : Reading} :
      (∀ c ∈ gap, isGap c = true) → readToken? front = some reading →
      TokenSequence reading.rest → TokenSequence (gap ++ front)

/-- A sequence of tokens is what is read to its end. -/
theorem tokenSequence_iff (offset : Nat) (text : List Char) :
    TokenSequence text ↔ (readTokens offset text).2.2 = [] := by
  constructor
  · intro sequence
    induction sequence generalizing offset with
    | gap isGap =>
      have nothing := List.dropWhile_eq_nil_iff.mpr isGap
      rw [readTokens_of_none (by rw [nothing]; rfl), nothing]
    | @token gap front reading isGap found _ ih =>
      have dropped := dropWhile_run isGap (takeWhile_gap_of_token found)
      rw [readTokens_of_some (by rw [dropped]; exact found) rfl]
      exact ih _
  · intro ended
    have gap : ∀ c ∈ text.takeWhile isGap, isGap c = true := fun c => List.mem_takeWhile_imp
    have whole : text.takeWhile isGap ++ text.dropWhile isGap = text :=
      List.takeWhile_append_dropWhile
    fun_induction readTokens offset text with
    | case1 offset text start front missed =>
      rw [← whole, show text.dropWhile isGap = [] from ended, List.append_nil]
      exact .gap gap
    | case2 offset text start front reading found length tokens stop rest more ih =>
      rw [more] at ih
      rw [← whole]
      exact .token gap found
        (ih ended (fun c => List.mem_takeWhile_imp) List.takeWhile_append_dropWhile)

/-- No token can be read where reading stops, and no gap is left there. -/
theorem readTokens_rest (offset : Nat) (text : List Char) :
    readToken? (readTokens offset text).2.2 = none ∧
      (readTokens offset text).2.2.takeWhile isGap = [] := by
  fun_induction readTokens offset text with
  | case1 offset text start front missed => exact ⟨missed, takeWhile_dropWhile isGap text⟩
  | case2 offset text start front reading found length tokens stop rest more ih =>
    rwa [more] at ih

/-- **What is read does not depend on what is cut off behind it.** -/
theorem readTokens_cut (offset : Nat) (text : List Char) :
    ∃ front, text = front ++ (readTokens offset text).2.2 ∧
      offset + byteLength front = (readTokens offset text).2.1 ∧
      ∀ extra, extra <+: (readTokens offset text).2.2 → readToken? extra = none →
        readTokens offset (front ++ extra) =
          ((readTokens offset text).1, (readTokens offset text).2.1, extra) := by
  have gap : ∀ c ∈ text.takeWhile isGap, isGap c = true := fun c => List.mem_takeWhile_imp
  have whole : text = text.takeWhile isGap ++ text.dropWhile isGap :=
    List.takeWhile_append_dropWhile.symm
  fun_induction readTokens offset text with
  | case1 offset text start front missed =>
    refine ⟨text.takeWhile isGap, whole, rfl, ?_⟩
    intro extra isPrefix missed
    have noGap := takeWhile_eq_nil_of_shorter (takeWhile_dropWhile isGap text) isPrefix
    have dropped := dropWhile_run gap noGap
    rw [readTokens_of_none (by rw [dropped]; exact missed), dropped, takeWhile_run gap noGap]
  | case2 offset text start front reading found length tokens stop rest more ih =>
    rw [more] at ih
    obtain ⟨further, isRest, isStop, cut⟩ :=
      ih (fun c => List.mem_takeWhile_imp) List.takeWhile_append_dropWhile.symm
    dsimp only at isRest isStop cut ⊢
    have lexeme := readToken?_text found
    refine ⟨text.takeWhile isGap ++ (reading.lexeme ++ further), ?_, ?_, ?_⟩
    · rw [List.append_assoc, List.append_assoc, ← isRest, ← lexeme]
      exact whole
    · rw [← isStop, byteLength_append, byteLength_append]
      omega
    · intro extra isPrefix missed
      have isFront : further ++ extra <+: reading.rest := by
        rw [isRest]
        exact (List.prefix_append_right_inj further).mpr isPrefix
      have again := readToken?_cut found isFront
      have noGap := takeWhile_gap_of_token again
      have dropped := dropWhile_run gap noGap
      rw [List.append_assoc, List.append_assoc,
        readTokens_of_some (by rw [dropped]; exact again) (by rw [takeWhile_run gap noGap])]
      rw [cut extra isPrefix missed]

/-! ## Integers that are too great -/

/-- At the front of the text stands an integer, with no digit and no decimals behind it, that
exceeds the greatest value. -/
structure OutOfRange (digits text : List Char) : Prop where
  filled : digits ≠ []
  allDigits : ∀ c ∈ digits, c.isDigit = true
  ends : ∃ rest, text = digits ++ rest ∧ rest.takeWhile Char.isDigit = [] ∧
    ∀ behind, rest = '.' :: behind → behind.takeWhile Char.isDigit = []
  exceeds : maxInteger < decimalValue digits

section Integers

variable {digits rest text : List Char}

theorem OutOfRange.takeWhile_eq (outOfRange : OutOfRange digits text) :
    text.takeWhile Char.isDigit = digits := by
  obtain ⟨rest, rfl, ends, _⟩ := outOfRange.ends
  exact takeWhile_run outOfRange.allDigits ends

/-- Digits of which no number is read are too great an integer. -/
theorem outOfRange_of_none (filled : digits ≠ []) (allDigits : ∀ c ∈ digits, c.isDigit = true)
    (ends : rest.takeWhile Char.isDigit = []) (missed : readNumber? (digits ++ rest) = none) :
    OutOfRange digits (digits ++ rest) := by
  have noFraction : ∀ behind, rest = '.' :: behind → behind.takeWhile Char.isDigit = [] := by
    rintro behind rfl
    by_contra fraction
    have read := readNumber?_floating filled allDigits fraction
      (fun c => List.mem_takeWhile_imp) (takeWhile_dropWhile Char.isDigit behind)
    rw [List.takeWhile_append_dropWhile, missed] at read
    cases read
  refine ⟨filled, allDigits, ⟨rest, rfl, ends, noFraction⟩, ?_⟩
  by_contra small
  have read := readNumber?_integer filled allDigits ends noFraction (Nat.le_of_not_lt small)
  rw [missed] at read
  cases read

end Integers

/-! ## Where a fault lies -/

/-- The characters of the text that a fault shows. -/
def TokenFault.lexeme : TokenFault → List Char
  | unexpectedCharacter _ character => [character]
  | integerOutOfRange _ digits => digits

/-- The fault is that of what stands behind the front: the run of digits there, or else the
next character. -/
inductive FoundAt (front : List Char) : List Char → TokenFault → Prop
  | character {c : Char} {behind : List Char} :
      c.isDigit = false → FoundAt front (c :: behind) (.unexpectedCharacter (byteLength front) c)
  | integer {digits rest : List Char} :
      digits ≠ [] → (∀ c ∈ digits, c.isDigit = true) → rest.takeWhile Char.isDigit = [] →
      FoundAt front (digits ++ rest) (.integerOutOfRange (byteLength front) digits)

/-- The text is at fault behind the front, which is a sequence of tokens, and behind blank
characters that no gap takes. -/
structure FaultLies (text : List Char) (fault : TokenFault) (front blanks culprit : List Char) :
    Prop where
  whole : text = front ++ blanks ++ culprit
  sequence : TokenSequence front
  noToken : readToken? (blanks ++ culprit) = none
  noGap : (blanks ++ culprit).takeWhile isGap = []
  blank : ∀ c ∈ blanks, Text.isBlank c = true
  notBlank : culprit.takeWhile Text.isBlank = []
  passedOver : blanks ≠ [] → ¬ TokenSequence (front ++ blanks)
  found : FoundAt (front ++ blanks) culprit fault

/-- The fault shows what stands at its place: before it are tokens and gaps, no token begins
there, and it is that of an integer exactly if an integer stands there that is too great. -/
structure PointsAtCulprit (text : List Char) (fault : TokenFault) : Prop where
  shown : fault.span.Cuts text fault.lexeme
  place : ∃ front culprit, text = front ++ culprit ∧ byteLength front = fault.span.offset ∧
    TokenSequence front ∧ readToken? culprit = none ∧
      ∀ digits, (∃ offset, fault = .integerOutOfRange offset digits) ↔ OutOfRange digits culprit

/-- A digit takes one byte. -/
theorem byteLength_digits {digits : List Char} (allDigits : ∀ c ∈ digits, c.isDigit = true) :
    byteLength digits = digits.length := by
  induction digits with
  | nil => rfl
  | cons c rest ih =>
    obtain ⟨isDigit, restDigits⟩ := List.forall_mem_cons.mp allDigits
    have oneByte : c.utf8Size = 1 := by
      have isAscii : c.toNat ≤ 127 := Nat.le_trans (range_of_isDigit isDigit).2 (by decide)
      exact if_pos isAscii
    rw [byteLength, ih restDigits, oneByte, List.length_cons, Nat.add_comm]

section Places

variable {text front blanks culprit : List Char} {fault : TokenFault}

theorem FoundAt.cuts (found : FoundAt front culprit fault) :
    fault.span.Cuts (front ++ culprit) fault.lexeme := by
  cases found with
  | @character c behind => exact ⟨front, behind, by simp [TokenFault.lexeme], rfl, rfl⟩
  | @integer digits rest _ allDigits _ =>
    exact ⟨front, rest, by simp [TokenFault.lexeme], rfl, byteLength_digits allDigits⟩

theorem FoundAt.offset_eq (found : FoundAt front culprit fault) :
    fault.span.offset = byteLength front := by
  cases found <;> rfl

/-- Where no token can be read, a run of digits is an integer that is too great. -/
theorem FoundAt.integer_iff (found : FoundAt front culprit fault)
    (missed : readToken? culprit = none) (digits : List Char) :
    (∃ offset, fault = .integerOutOfRange offset digits) ↔ OutOfRange digits culprit := by
  cases found with
  | @character c behind noDigit =>
    constructor
    · rintro ⟨_, ⟨⟩⟩
    · intro outOfRange
      have none := outOfRange.takeWhile_eq
      rw [List.takeWhile_cons_of_neg (by simp [noDigit])] at none
      exact absurd none.symm outOfRange.filled
  | @integer run rest filled allDigits ends =>
    have taken := takeWhile_run allDigits ends
    simp only [readToken?, Option.or_eq_none_iff] at missed
    constructor
    · rintro ⟨_, ⟨⟩⟩
      exact outOfRange_of_none filled allDigits ends missed.2.1
    · intro outOfRange
      rw [← taken, outOfRange.takeWhile_eq]
      exact ⟨_, rfl⟩

theorem FaultLies.shown (lies : FaultLies text fault front blanks culprit) :
    fault.span.Cuts text fault.lexeme := by
  rw [lies.whole]
  exact lies.found.cuts

theorem FaultLies.pointsAtCulprit_iff (lies : FaultLies text fault front blanks culprit) :
    PointsAtCulprit text fault ↔ blanks = [] := by
  constructor
  · rintro ⟨_, before, after, same, offset, sequence, _⟩
    by_contra filled
    rw [lies.whole] at same
    have atPlace := (eq_of_byteLength_eq same (lies.found.offset_eq.symm.trans offset.symm)).1
    exact lies.passedOver filled (atPlace ▸ sequence)
  · rintro rfl
    have whole := lies.whole
    have found := lies.found
    rw [List.append_nil] at whole found
    exact ⟨lies.shown, front, culprit, whole, found.offset_eq.symm, lies.sequence, lies.noToken,
      found.integer_iff lies.noToken⟩

end Places

/-! ## Texts that cannot be cut into tokens -/

/-- Every symbol begins with a character that is not blank. -/
theorem readSymbol?_blank {c : Char} (rest : List Char) (blank : Text.isBlank c = true) :
    readSymbol? (c :: rest) = none :=
  readSymbol?_eq_none (p := Text.isBlank) (fun symbol => by cases symbol <;> rfl) rest blank

theorem not_isWordPart_of_isBlank {c : Char} (blank : Text.isBlank c = true) :
    isWordPart c = false := by
  refine Bool.eq_false_iff.mpr fun part => ?_
  simp only [isWordPart, Char.isAlphanum, Bool.or_eq_true, beq_iff_eq] at part
  simp only [Text.isBlank, Bool.or_eq_true, Bool.and_eq_true, decide_eq_true_eq,
    beq_iff_eq] at blank
  rcases part with (letter | digit) | rfl
  · have ofLetter := range_of_isAlpha letter
    omega
  · have ofDigit := range_of_isDigit digit
    omega
  · simp at blank

/-- A blank character begins no token. -/
theorem readToken?_blank {c : Char} (rest : List Char) (blank : Text.isBlank c = true) :
    readToken? (c :: rest) = none := by
  have noPart := not_isWordPart_of_isBlank blank
  have noDigit : c.isDigit = false := by
    simp only [isWordPart, Char.isAlphanum, Bool.or_eq_false_iff] at noPart
    exact noPart.1.2
  have noQuote : c ≠ '"' := by
    rintro rfl
    cases blank
  have noWord : readWord? (c :: rest) = none := by
    refine if_neg ?_
    intro start
    rw [isWordPart_of_isWordStart start] at noPart
    cases noPart
  rw [readToken?, readSymbol?_blank rest blank, readNumber?_eq_none rest noDigit,
    readText?_eq_none rest noQuote, noWord]
  rfl

/-- The fault is told from the run of digits behind the front, which may be empty. -/
theorem foundAt_of_error {front behind : List Char} {c : Char} {fault : TokenFault}
    (failed :
      (if ((c :: behind).takeWhile Char.isDigit).isEmpty then
          .error (.unexpectedCharacter (byteLength front) c)
        else .error (.integerOutOfRange (byteLength front) ((c :: behind).takeWhile Char.isDigit)) :
          Except TokenFault (List Token)) = .error fault) :
    FoundAt front (c :: behind) fault := by
  split at failed
  next empty =>
    cases failed
    refine .character ?_
    by_contra digit
    rw [Bool.not_eq_false] at digit
    rw [List.takeWhile_cons_of_pos digit] at empty
    cases empty
  next filled =>
    cases failed
    have digits : (c :: behind).takeWhile Char.isDigit ≠ [] := by simpa using filled
    have whole : (c :: behind).takeWhile Char.isDigit ++ (c :: behind).dropWhile Char.isDigit =
        c :: behind := List.takeWhile_append_dropWhile
    have found : FoundAt front
        ((c :: behind).takeWhile Char.isDigit ++ (c :: behind).dropWhile Char.isDigit)
        (.integerOutOfRange (byteLength front) ((c :: behind).takeWhile Char.isDigit)) :=
      .integer digits (fun d => List.mem_takeWhile_imp) (takeWhile_dropWhile Char.isDigit _)
    rwa [whole] at found

/-- The fault is found behind the tokens that can be read and all blank characters there. -/
theorem faultLies_of_tokenize_error {text : String} {fault : TokenFault}
    (failed : tokenize text = .error fault) :
    ∃ front blanks culprit, FaultLies text.toList fault front blanks culprit := by
  obtain ⟨front, isText, isStop, cut⟩ := readTokens_cut 0 text.toList
  obtain ⟨missed, noGap⟩ := readTokens_rest 0 text.toList
  unfold tokenize at failed
  dsimp only at failed
  generalize readTokens 0 text.toList = read at isText isStop cut missed noGap failed
  obtain ⟨tokens, stop, rest⟩ := read
  dsimp only at isText isStop cut missed noGap failed
  rw [Nat.zero_add] at isStop
  have whole : rest.takeWhile Text.isBlank ++ rest.dropWhile Text.isBlank = rest :=
    List.takeWhile_append_dropWhile
  have isPrefix := List.takeWhile_prefix Text.isBlank (l := rest)
  have blank : ∀ c ∈ rest.takeWhile Text.isBlank, Text.isBlank c = true :=
    fun c => List.mem_takeWhile_imp
  have notBlank := takeWhile_dropWhile Text.isBlank rest
  have start : stop + byteLength (rest.takeWhile Text.isBlank) =
      byteLength (front ++ rest.takeWhile Text.isBlank) := by
    rw [byteLength_append, isStop]
  generalize rest.takeWhile Text.isBlank = blanks at whole isPrefix blank start failed
  generalize rest.dropWhile Text.isBlank = culprit at whole notBlank failed
  subst whole
  have sequence : TokenSequence front := by
    rw [tokenSequence_iff 0]
    have again := cut [] List.nil_prefix rfl
    rw [List.append_nil] at again
    rw [again]
  have passedOver : blanks ≠ [] → ¬ TokenSequence (front ++ blanks) := by
    intro filled sequence
    have missed : readToken? blanks = none := by
      cases blanks with
      | nil => rfl
      | cons c blanks => exact readToken?_blank blanks (blank c List.mem_cons_self)
    rw [tokenSequence_iff 0, cut blanks isPrefix missed] at sequence
    exact filled sequence
  have found : FoundAt (front ++ blanks) culprit fault := by
    rw [start] at failed
    split at failed
    next => cases failed
    next => exact foundAt_of_error failed
  exact ⟨front, blanks, culprit, by rw [isText, List.append_assoc], sequence, missed, noGap, blank,
    notBlank, passedOver, found⟩

/-- A text in which all blank characters are spaces, tabs and line ends has its fault where the
culprit stands. -/
theorem pointsAtCulprit_of_gaps {text : String} {fault : TokenFault}
    (gaps : ∀ c ∈ text.toList, Text.isBlank c = true → isGap c = true)
    (failed : tokenize text = .error fault) : PointsAtCulprit text.toList fault := by
  obtain ⟨front, blanks, culprit, lies⟩ := faultLies_of_tokenize_error failed
  rw [lies.pointsAtCulprit_iff]
  cases blanks with
  | nil => rfl
  | cons c blanks =>
    have inside : c ∈ text.toList := by simp [lies.whole]
    have isGap := gaps c inside (lies.blank c List.mem_cons_self)
    have noGap := lies.noGap
    rw [List.cons_append, List.takeWhile_cons_of_pos isGap] at noGap
    cases noGap

/-- **A fault points at its culprit exactly if no blank character is passed over.** In every text
that cannot be cut, the fault lies behind a sequence of tokens and the blank characters that
follow it and are no gap. -/
theorem exists_culprit {text : String} {fault : TokenFault}
    (failed : tokenize text = .error fault) :
    ∃ front blanks culprit, FaultLies text.toList fault front blanks culprit ∧
      (PointsAtCulprit text.toList fault ↔ blanks = []) := by
  obtain ⟨front, blanks, culprit, lies⟩ := faultLies_of_tokenize_error failed
  exact ⟨front, blanks, culprit, lies, lies.pointsAtCulprit_iff⟩

/-- The integer 23 behind a vertical tab. -/
def tabbedText : String := "1\u000b 23"

/-- The integer is reported though it is small. -/
def tabbedFault : TokenFault := .integerOutOfRange 3 ['2', '3']

theorem exists_culprit_tabbedText :
    tokenize tabbedText = .error tabbedFault ∧
      (∃ front blanks culprit, FaultLies tabbedText.toList tabbedFault front blanks culprit ∧
        (PointsAtCulprit tabbedText.toList tabbedFault ↔ blanks = [])) ∧
      ¬ PointsAtCulprit tabbedText.toList tabbedFault := by
  have failed : tokenize tabbedText = .error tabbedFault := by with_unfolding_all rfl
  refine ⟨failed, exists_culprit failed, ?_⟩
  rintro ⟨_, front, culprit, whole, offset, _, missed, _⟩
  have whole' : "1\u000b ".toList ++ ['2', '3'] = front ++ culprit := whole
  have isCulprit := (eq_of_byteLength_eq whole' (by rw [offset]; rfl)).2
  rw [← isCulprit] at missed
  cases missed

end ExprImports.Surface
