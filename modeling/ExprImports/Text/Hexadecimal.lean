/-!
# Hexadecimal digits

The values of hexadecimal digits and the characters that are given by their code
points.
-/

set_option autoImplicit false

namespace ExprImports.Text

/-- Whether a character is a hexadecimal digit, in small or capital letters. -/
def isHexDigit (c : Char) : Bool :=
  c.isDigit || ('a' ≤ c && c ≤ 'f') || ('A' ≤ c && c ≤ 'F')

/-- The value of a hexadecimal digit. -/
def hexDigitValue (c : Char) : Nat :=
  if c.isDigit then c.toNat - '0'.toNat
  else if 'a' ≤ c then c.toNat - 'a'.toNat + 10
  else c.toNat - 'A'.toNat + 10

/-- The value of a run of digits in a base up to sixteen. -/
def valueInBase (base : Nat) (digits : List Char) : Nat :=
  digits.foldl (fun value digit => value * base + hexDigitValue digit) 0

/-- The value of a run of hexadecimal digits. -/
def hexValue (digits : List Char) : Nat :=
  valueInBase 16 digits

/-- The value of a text if it has hexadecimal digits only. -/
def hexNumber? (digits : List Char) : Option Nat :=
  if digits.all isHexDigit then some (hexValue digits) else none

/-- The hexadecimal digit in small letters with this value. -/
def hexDigit (value : Nat) : Char :=
  Nat.digitChar value

/-- The character with this code point. -/
def charOf? (code : Nat) : Option Char :=
  if code.isValidChar then some (Char.ofNat code) else none

/-- Every hexadecimal digit that is written can be read. -/
theorem isHexDigit_hexDigit : ∀ value < 16, isHexDigit (hexDigit value) = true := by
  decide

/-- Reading a written digit gives its value. -/
theorem hexDigitValue_hexDigit : ∀ value < 16, hexDigitValue (hexDigit value) = value := by
  decide

/-- A character is found under its own code point. -/
theorem charOf?_toNat (c : Char) : charOf? c.toNat = some c := by
  have valid : c.toNat.isValidChar := c.valid
  simp [charOf?, valid]

end ExprImports.Text
