import ExprImports.Text.Hexadecimal

/-!
# JSON strings

A string stands between double quotes. Quotes and backslashes follow a backslash,
five control characters have short escapes and the others are written by their code
in four hexadecimal digits. Reading takes every character in such a form, and those
beyond the first 65536 as two of them, the halves of a surrogate pair.
-/

set_option autoImplicit false

namespace ExprImports.Json

/-! ## Writing -/

/-- The escape of a character below 256 by its code. -/
def codeEscape (c : Char) : List Char :=
  ['\\', 'u', '0', '0', Text.hexDigit (c.toNat / 16), Text.hexDigit (c.toNat % 16)]

/-- A character as it is written between quotes. -/
def quotedChar (c : Char) : List Char :=
  if c = '"' then ['\\', '"']
  else if c = '\\' then ['\\', '\\']
  else if c.toNat = 8 then ['\\', 'b']
  else if c = '\t' then ['\\', 't']
  else if c = '\n' then ['\\', 'n']
  else if c.toNat = 12 then ['\\', 'f']
  else if c = '\r' then ['\\', 'r']
  else if c.toNat < 0x20 then codeEscape c
  else [c]

/-- A text between quotes. -/
def quoted (text : String) : List Char :=
  '"' :: text.toList.flatMap quotedChar ++ ['"']

/-! ## Reading -/

/-- Reads a code of four hexadecimal digits. -/
def code? : List Char → Option (Nat × List Char)
  | a :: b :: c :: d :: rest => (Text.hexNumber? [a, b, c, d]).map (·, rest)
  | _ => none

/-- Whether a code is the first half of a surrogate pair. -/
def isHighHalf (code : Nat) : Bool :=
  0xD800 ≤ code && code ≤ 0xDBFF

/-- Whether a code is the second half of a surrogate pair. -/
def isLowHalf (code : Nat) : Bool :=
  0xDC00 ≤ code && code ≤ 0xDFFF

/-- Reads the escape of a second half. -/
def lowHalf? : List Char → Option (Nat × List Char)
  | '\\' :: 'u' :: rest => (code? rest).filter fun (code, _) => isLowHalf code
  | _ => none

/-- The code point of a surrogate pair. -/
def pairCode (high low : Nat) : Nat :=
  0x10000 + (high - 0xD800) * 0x400 + (low - 0xDC00)

/-- The character that an escape stands for, and what follows the escape. The
backslash has been read. A half without the other stands for no character. -/
def escaped? : List Char → Option (Option Char × List Char)
  | '"' :: rest => some (some '"', rest)
  | '\\' :: rest => some (some '\\', rest)
  | '/' :: rest => some (some '/', rest)
  | 'b' :: rest => some (some (Char.ofNat 8), rest)
  | 'f' :: rest => some (some (Char.ofNat 12), rest)
  | 'n' :: rest => some (some '\n', rest)
  | 'r' :: rest => some (some '\r', rest)
  | 't' :: rest => some (some '\t', rest)
  | 'u' :: rest =>
    match code? rest with
    | none => none
    | some (code, rest) =>
      if isHighHalf code then
        match lowHalf? rest with
        | some (low, rest) => some (Text.charOf? (pairCode code low), rest)
        | none => some (none, rest)
      else some (Text.charOf? code, rest)
  | _ => none

/-- The contents up to the closing quote, if they stand for a text, and what follows
it. The opening quote has been read. -/
def contents? (text : List Char) : Option (Option (List Char) × List Char) :=
  match text with
  | [] => none
  | '"' :: rest => some (some [], rest)
  | '\\' :: rest =>
    match escaped? rest with
    | none => none
    | some (c, behind) =>
      if behind.length ≤ rest.length then
        (contents? behind).map fun (contents, rest) =>
          (c.bind fun c => contents.map (c :: ·), rest)
      else none
  | c :: rest =>
    if c.toNat < 0x20 then none
    else (contents? rest).map fun (contents, rest) => (contents.map (c :: ·), rest)
termination_by text.length

end ExprImports.Json
