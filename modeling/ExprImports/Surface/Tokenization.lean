import ExprImports.Surface.Lexeme

/-!
# Cutting a text into tokens

Tokens may stand apart by spaces, tabs and line ends. The list of tokens closes
with the end of the text. Where no token can be read, the fault lies at the first
character that is not blank.
-/

set_option autoImplicit false

namespace ExprImports.Surface

/-- The characters that may stand between tokens. -/
def isGap (c : Char) : Bool :=
  c == ' ' || c == '\t' || c == '\r' || c == '\n'

/-- Why a text cannot be cut into tokens, and the offset of the fault. -/
inductive TokenFault where
  | unexpectedCharacter (offset : Nat) (character : Char)
  | integerOutOfRange (offset : Nat) (digits : List Char)
  deriving DecidableEq, Inhabited

namespace TokenFault

/-- The text of a fault. -/
def message : TokenFault → String
  | unexpectedCharacter _ character =>
    "Unexpected character `" ++ String.ofList [character] ++ "`"
  | integerOutOfRange _ digits => "Integer literal `" ++ String.ofList digits ++ "` is out of range"

/-- The stretch of the text that is at fault. -/
def span : TokenFault → Span
  | unexpectedCharacter offset character => ⟨offset, character.utf8Size⟩
  | integerOutOfRange offset digits => ⟨offset, digits.length⟩

end TokenFault

/-- The tokens that can be read from a place on, and the place where no further one
can, after the gap. -/
def readTokens (offset : Nat) (text : List Char) : List Token × Nat × List Char :=
  let start := offset + byteLength (text.takeWhile isGap)
  let front := text.dropWhile isGap
  match _found : readToken? front with
  | none => ([], start, front)
  | some reading =>
    let length := byteLength reading.lexeme
    let (tokens, stop, rest) := readTokens (start + length) reading.rest
    (⟨reading.kind, ⟨start, length⟩⟩ :: tokens, stop, rest)
termination_by text.length
decreasing_by
  have shorter : reading.rest.length < (text.dropWhile isGap).length :=
    readToken?_rest_length_lt _found
  have gap := (List.dropWhile_sublist isGap (l := text)).length_le
  omega

/-- The tokens of a text, closed by its end. -/
def tokenize (text : String) : Except TokenFault (List Token) :=
  let (tokens, offset, rest) := readTokens 0 text.toList
  let start := offset + byteLength (rest.takeWhile Text.isBlank)
  match rest.dropWhile Text.isBlank with
  | [] => .ok (tokens ++ [⟨.endOfText, ⟨byteLength text.toList, 0⟩⟩])
  | c :: behind =>
    let digits := (c :: behind).takeWhile Char.isDigit
    if digits.isEmpty then .error (.unexpectedCharacter start c)
    else .error (.integerOutOfRange start digits)

end ExprImports.Surface
