import ExprImports.Text.Printable

/-!
# Quoted text

A quoted text stands between double quotes. Inside, quotes and backslashes follow
a backslash, the usual controls have short escapes, and every other character that
is not printable is written by its code point in hexadecimal.
-/

set_option autoImplicit false

namespace ExprImports.Text

/-- The escape of a character by its code point, in as few hexadecimal digits as
it takes. -/
def codePointEscape (c : Char) : List Char :=
  '\\' :: 'u' :: '\x7b' :: Nat.toDigits 16 c.toNat ++ ['\x7d']

/-- A character as it is written between quotes. -/
def quotedChar (c : Char) : List Char :=
  if c = '"' then ['\\', '"']
  else if c = '\\' then ['\\', '\\']
  else if c = '\n' then ['\\', 'n']
  else if c = '\r' then ['\\', 'r']
  else if c = '\t' then ['\\', 't']
  else if c.toNat = 0 then ['\\', '0']
  else if isPrintable c then [c]
  else codePointEscape c

/-- A text between quotes. -/
def quoted (text : String) : String :=
  String.ofList ('"' :: text.toList.flatMap quotedChar ++ ['"'])

end ExprImports.Text
