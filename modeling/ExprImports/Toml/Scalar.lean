import ExprImports.Number.Binary64
import ExprImports.Text.Pieces
import ExprImports.Toml.DateTime
import ExprImports.Toml.Value

/-!
# TOML scalars

Truth values, numbers, dates and times: everything that is written without quotes
or brackets. Underscores may stand between the digits of a number. Whether a number
has a value is not looked at before the number is used: one that is too large, or a
decimal integer with a letter behind an underscore, is well formed and has none.
-/

set_option autoImplicit false

namespace ExprImports.Toml

/-- The parts of a number between underscores, if every underscore stands between
two digits. -/
def digitGroups? (isDigit : Char → Bool) (text : List Char) : Option (List (List Char)) :=
  let groups := Text.pieces '_' text
  let begins (group : List Char) : Bool := group.head?.any isDigit
  let ends (group : List Char) : Bool := group.getLast?.any isDigit
  if groups.length ≤ 1 || (groups.drop 1).all begins && groups.dropLast.all ends then some groups
  else none

/-- A text without its sign, and the sign. -/
def signed : List Char → List Char × List Char
  | '+' :: rest => (['+'], rest)
  | '-' :: rest => (['-'], rest)
  | text => ([], text)

/-! ## Integers -/

/-- Whether a digit belongs to a base up to sixteen. -/
def isDigitOf (base : Nat) (c : Char) : Bool :=
  Text.isHexDigit c && Text.hexDigitValue c < base

/-- Whether a number is among those that can be told apart, which go from
`-2 ^ 127` to `2 ^ 128 - 1`. -/
def inRange (negative : Bool) (magnitude : Nat) : Bool :=
  if negative then magnitude ≤ 0x80000000000000000000000000000000
  else magnitude ≤ 0xFFFFFFFFFFFFFFFFFFFFFFFFFFFFFFFF

/-- Whether the digits of an integer give it a value. -/
def hasIntegerValue (base : Nat) (negative : Bool) (digits : List Char) : Bool :=
  !digits.isEmpty && digits.all (isDigitOf base) && inRange negative (Text.valueInBase base digits)

/-- An integer in another base, whose digits may be missing. -/
def basedInteger? (base : Nat) (digits : List Char) : Option Value := do
  let groups ← digitGroups? Text.isHexDigit digits
  if groups.flatten.all (isDigitOf base) then
    return .number (hasIntegerValue base false groups.flatten)
  else none

/-- A decimal integer. -/
def decimalInteger? (sign digits : List Char) : Option Value := do
  let groups ← digitGroups? Text.isHexDigit digits
  return .number (hasIntegerValue 10 (sign = ['-']) groups.flatten)

/-! ## Floating-point numbers -/

/-- Whether a number with these digits before the point and behind it and this power
of ten is finite as a floating-point number. -/
def isFinite (whole fraction : List Char) (exponent : Int) : Bool :=
  let digits := Text.valueInBase 10 (whole ++ fraction)
  let scaled := exponent - fraction.length
  let size : Int := (toString digits).length + scaled
  if digits = 0 || size < 300 then true
  else if 310 < size then false
  else
    let number :=
      if 0 ≤ scaled then .ofDecimal (digits * Binary64.tenTo scaled.toNat) 0
      else Binary64.ofDecimal digits (-scaled).toNat
    number.bits.toNat ≠ Binary64.infinityBits

/-- Whether a character can stand in the digits of a number. -/
def isDecimalPart (c : Char) : Bool :=
  c.isDigit || c == '_'

/-- Reads digits, of which there is at least one. -/
def decimals? (text : List Char) : Option (List Char × List Char) :=
  let digits := (text.takeWhile isDecimalPart).filter Char.isDigit
  if digits.isEmpty then none else some (digits, text.dropWhile isDecimalPart)

/-- Whether digits have a needless zero in front. -/
def hasLeadingZero : List Char → Bool
  | '0' :: _ :: _ => true
  | _ => false

/-- Reads a point with digits behind it, if there is a point. -/
def fraction? : List Char → Option (List Char × List Char)
  | '.' :: rest => decimals? rest
  | rest => some ([], rest)

/-- Reads a power of ten, if there is one. -/
def exponent? : List Char → Option (Int × List Char)
  | [] => some (0, [])
  | c :: rest =>
    if c = 'e' || c = 'E' then do
      let (sign, rest) := signed rest
      let (digits, rest) ← decimals? rest
      let value : Int := Text.valueInBase 10 digits
      return (if sign = ['-'] then -value else value, rest)
    else some (0, c :: rest)

/-- A floating-point number without its sign. -/
def floating? (text : List Char) : Option Value := do
  let _ ← digitGroups? Char.isDigit text
  let (whole, rest) ← decimals? text
  let (fraction, rest) ← fraction? rest
  let (exponent, rest) ← exponent? rest
  if hasLeadingZero whole || !rest.isEmpty then none
  else return .number (isFinite whole fraction exponent)

/-! ## All scalars -/

/-- A decimal number without its sign, or the date or time that the whole text writes.
What follows the first digits decides which of them it is. -/
def decimalOrDate? (text sign unsigned : List Char) : Option Value :=
  let rest := unsigned.dropWhile Char.isDigit
  let isInteger := rest.isEmpty || rest.head? = some '_'
  if rest.head? = some '-' || rest.head? = some ':' then
    (dateTime? text).map fun dateTime => .date dateTime.display
  else if rest.contains ' ' then none
  else if rest.any fun c => c = '.' || c = 'e' || c = 'E' then floating? unsigned
  else if isInteger && !hasLeadingZero unsigned then decimalInteger? sign unsigned
  else none

/-- A number, a date or a time. -/
def numberOrDate? (text : List Char) : Option Value :=
  let (sign, unsigned) := signed text
  match unsigned with
  | '0' :: 'x' :: digits => if sign.isEmpty then basedInteger? 16 digits else none
  | '0' :: 'o' :: digits => if sign.isEmpty then basedInteger? 8 digits else none
  | '0' :: 'b' :: digits => if sign.isEmpty then basedInteger? 2 digits else none
  | c :: _ => if c.isDigit then decimalOrDate? text sign unsigned else none
  | [] => none

/-- The value of a text without quotes and brackets. -/
def scalar? (text : List Char) : Option Value :=
  let (_, unsigned) := signed text
  if text = "true".toList then some (.boolean true)
  else if text = "false".toList then some (.boolean false)
  else if unsigned = "inf".toList || unsigned = "nan".toList then some (.number true)
  else numberOrDate? text

end ExprImports.Toml
