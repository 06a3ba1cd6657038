/-!
# Blank characters and trimming

A character is blank when Unicode gives it the property `White_Space`. Trimming
removes the blank characters at both ends of a text and nothing in its middle.
-/

set_option autoImplicit false

namespace ExprImports.Text

/-- The characters that Unicode calls `White_Space`. -/
def isBlank (c : Char) : Bool :=
  let code := c.toNat
  (9 ≤ code && code ≤ 13) || code == 0x20 || code == 0x85 || code == 0xA0 || code == 0x1680 ||
    (0x2000 ≤ code && code ≤ 0x200A) || code == 0x2028 || code == 0x2029 || code == 0x202F ||
    code == 0x205F || code == 0x3000

/-- The text from its first character that is not blank. -/
def trimStartChars (text : List Char) : List Char :=
  text.dropWhile isBlank

/-- The text up to its last character that is not blank. -/
def trimEndChars (text : List Char) : List Char :=
  (text.reverse.dropWhile isBlank).reverse

/-- The text without the blank characters at its ends. -/
def trimChars (text : List Char) : List Char :=
  trimEndChars (trimStartChars text)

/-- The text without the blank characters at its ends. -/
def trim (text : String) : String :=
  String.ofList (trimChars text.toList)

end ExprImports.Text
