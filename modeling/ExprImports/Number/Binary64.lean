/-!
# Binary floating-point numbers

A number in the 64-bit binary format, kept as its bits. `ofDecimal` rounds a
decimal fraction to the nearest such number, a tie going to the even neighbour.
`shortest` writes a number with the fewest decimal digits that round back to it,
always in positional notation.
-/

set_option autoImplicit false

namespace ExprImports

/-- A floating-point number by its bits: sign, eleven bits of exponent, fraction. -/
structure Binary64 where
  bits : UInt64
  deriving DecidableEq, Inhabited

namespace Binary64

/-- A power of two. -/
def twoTo (exponent : Nat) : Nat := Nat.pow 2 exponent

/-- A power of ten. -/
def tenTo (exponent : Nat) : Nat := Nat.pow 10 exponent

/-- The number of significands that share an exponent. -/
def significands : Nat := 0x10000000000000

/-- The number of values of the field of the exponent. -/
def exponents : Nat := 0x800

/-- The bits of positive infinity. -/
def infinityBits : Nat := 0x7FF0000000000000

/-- The quotient rounded to the nearest integer, a tie going to the even one. -/
def roundQuotient (numerator denominator : Nat) : Nat :=
  let quotient := numerator / denominator
  let twiceRest := 2 * (numerator % denominator)
  if twiceRest < denominator then quotient
  else if twiceRest = denominator then quotient + quotient % 2
  else quotient + 1

/-- The exponent of the greatest power of two that is at most the quotient of two
positive numbers. -/
def floorLog2 (numerator denominator : Nat) : Int :=
  let guess : Int := (Nat.log2 numerator : Int) - (Nat.log2 denominator : Int)
  let reached :=
    if guess < 0 then denominator ≤ numerator * twoTo (-guess).toNat
    else denominator * twoTo guess.toNat ≤ numerator
  if reached then guess else guess - 1

/-- The number nearest to `digits / 10 ^ places`. From the middle between the
greatest finite number and the next power of two on, that is infinity. -/
def ofDecimal (digits places : Nat) : Binary64 :=
  if digits = 0 then ⟨0⟩
  else
    let denominator := tenTo places
    let exponent := max (floorLog2 digits denominator - 52) (-1074)
    let significand :=
      if exponent < 0 then roundQuotient (digits * twoTo (-exponent).toNat) denominator
      else roundQuotient digits (denominator * twoTo exponent.toNat)
    ⟨.ofNat (min ((exponent + 1074).toNat * significands + significand) infinityBits)⟩

/-! ## The fewest digits that read back -/

/-- The decimal number `digits * 10 ^ exponent`. -/
structure Decimal where
  digits : Nat
  exponent : Int
  deriving DecidableEq, Inhabited

/-- A decimal number in positional notation, without zeros at the end of the
fraction. -/
def Decimal.positional (decimal : Decimal) : String :=
  let digits := (toString decimal.digits).toList
  if 0 ≤ decimal.exponent then
    String.ofList (digits ++ List.replicate decimal.exponent.toNat '0')
  else
    let places := (-decimal.exponent).toNat
    let padded := List.replicate (places + 1 - digits.length) '0' ++ digits
    let whole := padded.take (padded.length - places)
    let fraction :=
      ((padded.drop (padded.length - places)).reverse.dropWhile (· == '0')).reverse
    String.ofList (if fraction.isEmpty then whole else whole ++ '.' :: fraction)

/-- The reals that round to a positive number: four times their least and greatest
significand, both at the number's binary exponent, and whether these two belong
to them. -/
structure Interval where
  least : Nat
  middle : Nat
  greatest : Nat
  closed : Bool
  exponent : Int
  deriving DecidableEq, Inhabited

/-- The interval of a positive finite number. Below a power of two the numbers are
twice as dense. -/
def interval (fraction exponentField : Nat) : Interval :=
  let significand := if exponentField = 0 then fraction else fraction + significands
  let below := if fraction = 0 && 1 < exponentField then 1 else 2
  { least := 4 * significand - below
    middle := 4 * significand
    greatest := 4 * significand + 2
    closed := significand % 2 == 0
    exponent := (max exponentField 1 : Nat) - 1077 }

/-- The numerator and the denominator of `2 ^ binary / 10 ^ decimal`. -/
def scale (binary decimal : Int) : Nat × Nat :=
  (twoTo binary.toNat * tenTo (-decimal).toNat, twoTo (-binary).toNat * tenTo decimal.toNat)

/-- The nearer of the two multiples of a power of ten beside the number, if one of
them lies in the interval. In the middle between two the greater is taken. -/
def Interval.onGrid? (interval : Interval) (exponent : Int) : Option Decimal :=
  let (numerator, denominator) := scale interval.exponent exponent
  let inside (candidate : Nat) : Bool :=
    let point := candidate * denominator
    let least := interval.least * numerator
    let greatest := interval.greatest * numerator
    if interval.closed then least ≤ point && point ≤ greatest
    else least < point && point < greatest
  let lower := interval.middle * numerator / denominator
  let lowerIsNearer := 2 * (interval.middle * numerator) < (2 * lower + 1) * denominator
  let candidates := if lowerIsNearer then [lower, lower + 1] else [lower + 1, lower]
  (candidates.find? fun candidate => 0 < candidate && inside candidate).map (⟨·, exponent⟩)

/-- The power of ten just above the number, at which the coarsest grid begins. -/
def Interval.magnitude (interval : Interval) : Int :=
  let (numerator, denominator) := scale interval.exponent 0
  let value := interval.middle * numerator
  if denominator ≤ value then ((toString (value / denominator)).length : Int)
  else
    let reaches (zeros : Nat) : Bool := denominator ≤ value * tenTo (zeros + 1)
    let zeros : Nat := ((List.range 400).find? reaches).getD 400
    0 - (zeros : Int)

/-- The decimal of fewest digits in the interval, seventeen being always enough. -/
def Interval.shortest (interval : Interval) : Decimal :=
  let magnitude := interval.magnitude
  let found := (List.range 17).findSome? fun count =>
    interval.onGrid? (magnitude - ((count + 1 : Nat) : Int))
  found.getD ⟨0, 0⟩

/-- The text of a number: the fewest digits that round back to it, in positional
notation and without a fraction if it is whole. -/
def shortest (number : Binary64) : String :=
  let bits := number.bits.toNat
  let sign := if bits < exponents * significands then "" else "-"
  let exponentField := bits / significands % exponents
  let fraction := bits % significands
  if exponentField = 2047 then
    if fraction = 0 then sign ++ "inf" else "NaN"
  else if exponentField = 0 && fraction = 0 then sign ++ "0"
  else sign ++ (interval fraction exponentField).shortest.positional

end Binary64

end ExprImports
