import ExprImports.Json.Quoted
import ExprImports.Json.Value

/-!
# Reading JSON

A text is read to its end: one value, with blanks around it and around every sign
in it. Values may be nested to any depth.
-/

set_option autoImplicit false

namespace ExprImports.Json

/-- Reads something from the front of a text and gives what follows. -/
abbrev Read (α : Type) := List Char → Option (α × List Char)

/-- Whether a character may stand between the signs of a value. -/
def isBlank (c : Char) : Bool :=
  c == ' ' || c == '\n' || c == '\t' || c == '\r'

/-- The text from its first character that is not blank. -/
def skipBlanks (text : List Char) : List Char :=
  text.dropWhile isBlank

/-! ## Numbers -/

/-- Reads one or more digits. -/
def digits? : Read (List Char) := fun text =>
  let digits := text.takeWhile Char.isDigit
  if digits.isEmpty then none else some (digits, text.dropWhile Char.isDigit)

/-- Reads digits of which the first is no zero, or a zero alone. -/
def whole? : Read (List Char)
  | '0' :: rest => some (['0'], rest)
  | text => digits? text

/-- Reads a point with digits behind it, if there is a point. -/
def fraction? : Read (List Char)
  | '.' :: rest => (digits? rest).map fun (digits, rest) => ('.' :: digits, rest)
  | text => some ([], text)

/-- Reads a sign, if there is one. -/
def sign : List Char → List Char × List Char
  | '+' :: rest => (['+'], rest)
  | '-' :: rest => (['-'], rest)
  | text => ([], text)

/-- Reads an exponent, if there is one. -/
def exponent? : Read (List Char)
  | c :: rest =>
    if c = 'e' || c = 'E' then
      let (sign, rest) := sign rest
      (digits? rest).map fun (digits, rest) => (c :: sign ++ digits, rest)
    else some ([], c :: rest)
  | [] => some ([], [])

/-- Reads a number without a sign. -/
def unsigned? : Read (List Char) := fun text => do
  let (whole, rest) ← whole? text
  let (fraction, rest) ← fraction? rest
  let (exponent, rest) ← exponent? rest
  return (whole ++ fraction ++ exponent, rest)

/-- Reads a number, which may be negative but has no other sign. -/
def number? : Read (List Char)
  | '-' :: rest => (unsigned? rest).map fun (written, rest) => ('-' :: written, rest)
  | text => unsigned? text

/-! ## Values -/

/-- Reads one or more items with commas between them, up to a closing character. -/
def items? {α : Type} (item : Read α) (close : Char) (text : List Char) :
    Option (List α × List Char) :=
  match item text with
  | none => none
  | some (first, behind) =>
    match skipBlanks behind with
    | [] => none
    | ',' :: next =>
      if next.length < text.length then
        (items? item close next).map fun (others, rest) => (first :: others, rest)
      else none
    | last :: rest => if last = close then some ([first], rest) else none
termination_by text.length

/-- Reads any number of items with commas between them, up to a closing character. -/
def listing? {α : Type} (item : Read α) (close : Char) (text : List Char) :
    Option (List α × List Char) :=
  match skipBlanks text with
  | [] => none
  | c :: rest => if c = close then some ([], rest) else items? item close (c :: rest)

/-- Reads a key, if it stands for a text, and its value. -/
def pair? (value : Read Value) : Read (Option String × Value) := fun text =>
  match skipBlanks text with
  | '"' :: rest => do
    let (key, rest) ← contents? rest
    match skipBlanks rest with
    | ':' :: rest => do
      let (value, rest) ← value rest
      return ((key.map String.ofList, value), rest)
    | _ => none
  | _ => none

/-- The object with these entries. -/
def objectOf (entries : List (Option String × Value)) : Value :=
  match entries.mapM fun (key, value) => key.map (·, value) with
  | some entries => .object entries
  | none => .unreadable

/-- Reads a value that opens at most so many brackets, and the blanks before it. -/
def valueWithin : Nat → Read Value
  | depth, text =>
    match skipBlanks text with
    | 'n' :: 'u' :: 'l' :: 'l' :: rest => some (.null, rest)
    | 't' :: 'r' :: 'u' :: 'e' :: rest => some (.boolean true, rest)
    | 'f' :: 'a' :: 'l' :: 's' :: 'e' :: rest => some (.boolean false, rest)
    | '"' :: rest =>
      (contents? rest).map fun (contents, rest) =>
        match contents with
        | some contents => (.text (String.ofList contents), rest)
        | none => (.unreadable, rest)
    | '[' :: rest =>
      match depth with
      | 0 => none
      | depth + 1 =>
        (listing? (valueWithin depth) ']' rest).map fun (items, rest) => (.array items, rest)
    | '\x7b' :: rest =>
      match depth with
      | 0 => none
      | depth + 1 =>
        (listing? (pair? (valueWithin depth)) '\x7d' rest).map fun (entries, rest) =>
          (objectOf entries, rest)
    | text => (number? text).map fun (written, rest) => (.number (String.ofList written), rest)

/-- The value of a text, or nothing if the text is no JSON. A text cannot open more
brackets than it has characters. -/
def parse? (text : String) : Option Value :=
  match valueWithin text.toList.length text.toList with
  | some (value, rest) => if rest.all isBlank then some value else none
  | none => none

end ExprImports.Json
