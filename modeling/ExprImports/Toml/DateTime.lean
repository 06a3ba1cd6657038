import ExprImports.Text.Hexadecimal

/-!
# TOML dates and times

A date, a time of day, or both with or without an offset from universal time. A
date and a time are joined by a letter or by one space. Seconds may be left out, and
a fraction of a second counts to nine digits. `DateTime.display` is the one text that
stands for all spellings of the same value.
-/

set_option autoImplicit false

namespace ExprImports.Toml

/-- A day of a calendar that is extended to year zero. -/
structure Date where
  year : Nat
  month : Nat
  day : Nat
  deriving DecidableEq, Inhabited

/-- A time of day. The fraction of a second is given in nanoseconds. -/
structure Time where
  hour : Nat
  minute : Nat
  second : Option Nat := none
  nanosecond : Option Nat := none
  deriving DecidableEq, Inhabited

/-- How far a local time is from universal time. -/
inductive TimeOffset where
  | zulu
  | minutes (east : Int)
  deriving DecidableEq, Inhabited

/-- A date, a time, or both. Only if there are both, there may be an offset. -/
inductive DateTime where
  | dateOnly (date : Date)
  | timeOnly (time : Time)
  | both (date : Date) (time : Time) (offset : Option TimeOffset)
  deriving DecidableEq, Inhabited

/-! ## Writing -/

/-- A number with zeros before it, as many as make up the width. -/
def padded (width value : Nat) : List Char :=
  let digits := (toString value).toList
  List.replicate (width - digits.length) '0' ++ digits

/-- A date as year, month and day. -/
def Date.display (date : Date) : List Char :=
  padded 4 date.year ++ '-' :: padded 2 date.month ++ '-' :: padded 2 date.day

/-- A fraction of a second without needless zeros at its end. -/
def fractionDigits (nanosecond : Nat) : List Char :=
  let digits := ((padded 9 nanosecond).reverse.dropWhile (· == '0')).reverse
  if digits.isEmpty then ['0'] else digits

/-- A time as hours, minutes and whatever more is known. -/
def Time.display (time : Time) : List Char :=
  let seconds :=
    match time.second with
    | some second => ':' :: padded 2 second
    | none => []
  let fraction :=
    match time.nanosecond with
    | some nanosecond => '.' :: fractionDigits nanosecond
    | none => []
  padded 2 time.hour ++ ':' :: padded 2 time.minute ++ seconds ++ fraction

/-- An offset as a letter or as signed hours and minutes. -/
def TimeOffset.display : TimeOffset → List Char
  | zulu => ['Z']
  | minutes east =>
    let sign := if east < 0 then '-' else '+'
    sign :: padded 2 (east.natAbs / 60) ++ ':' :: padded 2 (east.natAbs % 60)

/-- The text of a date, a time, or both. -/
def DateTime.display : DateTime → String
  | .dateOnly date => String.ofList date.display
  | .timeOnly time => String.ofList time.display
  | .both date time offset =>
    let offset := (offset.map TimeOffset.display).getD []
    String.ofList (date.display ++ 'T' :: time.display ++ offset)

/-! ## Reading -/

/-- Reads a number of so many digits and no more, between two bounds. -/
def numeral? (width least greatest : Nat) (text : List Char) : Option (Nat × List Char) :=
  let digits := text.takeWhile Char.isDigit
  let value := Text.valueInBase 10 digits
  if digits.length = width && least ≤ value && value ≤ greatest then
    some (value, text.dropWhile Char.isDigit)
  else none

/-- Reads one character. -/
def mark? (mark : Char) : List Char → Option (List Char)
  | [] => none
  | c :: rest => if c = mark then some rest else none

/-- The number of days of a month. -/
def daysIn (year month : Nat) : Nat :=
  let isLeap := year % 4 = 0 && (year % 100 ≠ 0 || year % 400 = 0)
  if month = 2 then if isLeap then 29 else 28
  else if month = 4 || month = 6 || month = 9 || month = 11 then 30
  else 31

/-- Reads a date. -/
def date? (text : List Char) : Option (Date × List Char) := do
  let (year, rest) ← numeral? 4 0 9999 text
  let rest ← mark? '-' rest
  let (month, rest) ← numeral? 2 1 12 rest
  let rest ← mark? '-' rest
  let (day, rest) ← numeral? 2 1 (daysIn year month) rest
  return ({ year, month, day }, rest)

/-- The nanoseconds that a fraction of a second has, by its first nine digits. -/
def nanosecondsOf (digits : List Char) : Nat :=
  Text.valueInBase 10 ((digits ++ List.replicate 9 '0').take 9)

/-- Reads a fraction of a second, if there is one. -/
def fractionOfSecond? : List Char → Option (Option Nat × List Char)
  | '.' :: rest =>
    let digits := rest.takeWhile Char.isDigit
    if digits.isEmpty then none
    else some (some (nanosecondsOf digits), rest.dropWhile Char.isDigit)
  | rest => some (none, rest)

/-- Reads a time of day. -/
def time? (text : List Char) : Option (Time × List Char) := do
  let (hour, rest) ← numeral? 2 0 23 text
  let rest ← mark? ':' rest
  let (minute, rest) ← numeral? 2 0 59 rest
  match rest with
  | ':' :: rest => do
    let (second, rest) ← numeral? 2 0 60 rest
    let (nanosecond, rest) ← fractionOfSecond? rest
    return ({ hour, minute, second := some second, nanosecond }, rest)
  | _ => return ({ hour, minute }, rest)

/-- Reads an offset, if there is one. -/
def offset? : List Char → Option (Option TimeOffset × List Char)
  | [] => some (none, [])
  | c :: rest =>
    if c = 'Z' || c = 'z' then some (some .zulu, rest)
    else if c = '+' || c = '-' then do
      let (hours, rest) ← numeral? 2 0 23 rest
      let rest ← mark? ':' rest
      let (minutes, rest) ← numeral? 2 0 59 rest
      let east : Int := hours * 60 + minutes
      return (some (.minutes (if c = '-' then -east else east)), rest)
    else none

/-- The date and the time that a text writes from its first to its last character. -/
def dateTime? (text : List Char) : Option DateTime :=
  match date? text with
  | none =>
    match time? text with
    | some (time, []) => some (.timeOnly time)
    | _ => none
  | some (date, []) => some (.dateOnly date)
  | some (date, mark :: rest) =>
    if mark = 'T' || mark = 't' || mark = ' ' then do
      let (time, rest) ← time? rest
      let (offset, rest) ← offset? rest
      if rest.isEmpty then return .both date time offset else none
    else none

end ExprImports.Toml
