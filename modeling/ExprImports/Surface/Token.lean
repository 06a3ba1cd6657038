import ExprImports.Span
import ExprImports.Number.Binary64
import ExprImports.Text.Quoted

/-!
# Tokens

The smallest parts of the text of an expression. Every kind of token has a text;
for all but strings and numbers it is the only spelling of the token.
-/

set_option autoImplicit false

namespace ExprImports.Surface

/-- Operators and punctuation. -/
inductive Symbol where
  | andAnd
  | orOr
  | lessEqual
  | greaterEqual
  | equalEqual
  | notEqual
  | leftParen
  | rightParen
  | leftBracket
  | rightBracket
  | leftBrace
  | rightBrace
  | comma
  | dot
  | question
  | colon
  | plus
  | minus
  | star
  | slash
  | percent
  | less
  | greater
  | bang
  | equal
  deriving DecidableEq, Inhabited

/-- How a symbol is written. -/
def Symbol.spelling : Symbol → List Char
  | andAnd => ['&', '&']
  | orOr => ['|', '|']
  | lessEqual => ['<', '=']
  | greaterEqual => ['>', '=']
  | equalEqual => ['=', '=']
  | notEqual => ['!', '=']
  | leftParen => ['(']
  | rightParen => [')']
  | leftBracket => ['[']
  | rightBracket => [']']
  | leftBrace => ['\x7b']
  | rightBrace => ['\x7d']
  | comma => [',']
  | dot => ['.']
  | question => ['?']
  | colon => [':']
  | plus => ['+']
  | minus => ['-']
  | star => ['*']
  | slash => ['/']
  | percent => ['%']
  | less => ['<']
  | greater => ['>']
  | bang => ['!']
  | equal => ['=']

/-- All symbols, those of two characters first. -/
def Symbol.all : List Symbol :=
  [ andAnd, orOr, lessEqual, greaterEqual, equalEqual, notEqual, leftParen, rightParen,
    leftBracket, rightBracket, leftBrace, rightBrace, comma, dot, question, colon, plus, minus,
    star, slash, percent, less, greater, bang, equal ]

/-- Words that are not identifiers. -/
inductive Keyword where
  | true
  | false
  | null
  | new
  | typeOf
  | is
  | as
  deriving DecidableEq, Inhabited

/-- How a keyword is written. -/
def Keyword.spelling : Keyword → String
  | .true => "true"
  | .false => "false"
  | .null => "null"
  | .new => "new"
  | .typeOf => "typeof"
  | .is => "is"
  | .as => "as"

/-- All keywords. -/
def Keyword.all : List Keyword :=
  [.true, .false, .null, .new, .typeOf, .is, .as]

/-- What a token is. The end of the text counts as a token. -/
inductive TokenKind where
  | symbol (symbol : Symbol)
  | keyword (keyword : Keyword)
  | identifier (name : String)
  | integer (value : Int)
  | floating (value : Binary64)
  | text (value : String)
  | endOfText
  deriving DecidableEq, Inhabited

/-- The text of a token as messages show it. -/
def TokenKind.display : TokenKind → String
  | .symbol sign => String.ofList sign.spelling
  | .keyword word => word.spelling
  | .identifier name => name
  | .integer value => toString value
  | .floating value => value.shortest
  | .text value => Text.quoted value
  | .endOfText => "EOF"

/-- A token with its place in the text. -/
structure Token where
  kind : TokenKind
  span : Span
  deriving DecidableEq, Inhabited

/-- Whether the token is the end of the text. -/
def Token.isEnd (token : Token) : Bool :=
  token.kind = .endOfText

end ExprImports.Surface
