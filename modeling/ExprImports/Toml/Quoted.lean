import ExprImports.Text.Hexadecimal

/-!
# TOML strings

Four forms of strings: between double quotes with escapes or between single quotes
without, and each of them on one line or, with three quotes, on several.
-/

set_option autoImplicit false

namespace ExprImports.Toml

/-- Whether a character may stand in a line: no control character but the tab. -/
def isLineChar (c : Char) : Bool :=
  c == '\t' || (0x20 ≤ c.toNat && c.toNat ≠ 0x7F)

/-- The character that an escape stands for, and what follows the escape. The
backslash has been read. -/
def escaped? : List Char → Option (Char × List Char)
  | 'b' :: rest => some (Char.ofNat 8, rest)
  | 't' :: rest => some ('\t', rest)
  | 'n' :: rest => some ('\n', rest)
  | 'f' :: rest => some (Char.ofNat 12, rest)
  | 'r' :: rest => some ('\r', rest)
  | 'e' :: rest => some (Char.ofNat 27, rest)
  | '"' :: rest => some ('"', rest)
  | '\\' :: rest => some ('\\', rest)
  | 'x' :: a :: b :: rest => do
    let c ← Text.charOf? (← Text.hexNumber? [a, b])
    return (c, rest)
  | 'u' :: a :: b :: c :: d :: rest => do
    let c ← Text.charOf? (← Text.hexNumber? [a, b, c, d])
    return (c, rest)
  | 'U' :: a :: b :: c :: d :: e :: f :: g :: h :: rest => do
    let c ← Text.charOf? (← Text.hexNumber? [a, b, c, d, e, f, g, h])
    return (c, rest)
  | _ => none

/-- The contents up to a closing double quote on the same line, and what follows. -/
def basic? (text : List Char) : Option (List Char × List Char) :=
  match text with
  | [] => none
  | '"' :: rest => some ([], rest)
  | '\\' :: rest =>
    match escaped? rest with
    | none => none
    | some (c, behind) =>
      if behind.length ≤ rest.length then
        (basic? behind).map fun (contents, rest) => (c :: contents, rest)
      else none
  | c :: rest =>
    if isLineChar c then (basic? rest).map fun (contents, rest) => (c :: contents, rest)
    else none
termination_by text.length

/-- The contents up to a closing single quote on the same line, and what follows. -/
def literal? : List Char → Option (List Char × List Char)
  | [] => none
  | '\'' :: rest => some ([], rest)
  | c :: rest =>
    if isLineChar c then (literal? rest).map fun (contents, rest) => (c :: contents, rest)
    else none

/-- The text behind a line end at its front, if there is one. -/
def afterNewline? : List Char → Option (List Char)
  | '\n' :: rest => some rest
  | '\r' :: '\n' :: rest => some rest
  | _ => none

/-- The text without a line end at its front. -/
def withoutNewline (text : List Char) : List Char :=
  (afterNewline? text).getD text

/-- Whether a character is a space or a tab. -/
def isSpace (c : Char) : Bool :=
  c == ' ' || c == '\t'

/-- The text from its first character that is neither a space nor a line end. -/
def skipLines : List Char → List Char
  | '\n' :: rest => skipLines rest
  | '\r' :: '\n' :: rest => skipLines rest
  | c :: rest => if isSpace c then skipLines rest else c :: rest
  | [] => []

theorem skipLines_length_le (text : List Char) : (skipLines text).length ≤ text.length := by
  fun_induction skipLines text <;> simp_all <;> omega

/-- The quotes that belong to the contents before three closing ones, and what
follows: of up to five quotes the last three close. -/
def closing? (quote : Char) (text : List Char) : Option (List Char × List Char) :=
  let count := (text.takeWhile (· == quote)).length
  if count < 3 then none
  else
    let kept := min (count - 3) 2
    some (List.replicate kept quote, text.drop (kept + 3))

/-- The contents up to three closing quotes, on several lines. Line ends are kept as
they are written, but a backslash at the end of a line joins it with the next one
that is not blank. -/
def multiline? (quote : Char) (escapes : Bool) (text : List Char) :
    Option (List Char × List Char) :=
  match closing? quote text with
  | some closed => some closed
  | none =>
    match text with
    | [] => none
    | '\n' :: rest =>
      (multiline? quote escapes rest).map fun (contents, rest) => ('\n' :: contents, rest)
    | '\r' :: '\n' :: rest =>
      (multiline? quote escapes rest).map fun (contents, rest) => ('\r' :: '\n' :: contents, rest)
    | c :: rest =>
      if escapes && c == '\\' then
        if (afterNewline? (rest.dropWhile isSpace)).isSome then
          have _shorter := skipLines_length_le rest
          multiline? quote escapes (skipLines rest)
        else
          match escaped? rest with
          | none => none
          | some (c, behind) =>
            if behind.length ≤ rest.length then
              (multiline? quote escapes behind).map fun (contents, rest) => (c :: contents, rest)
            else none
      else if isLineChar c then
        (multiline? quote escapes rest).map fun (contents, rest) => (c :: contents, rest)
      else none
termination_by text.length

/-- A string in one of its four forms, and what follows. -/
def string? : List Char → Option (String × List Char)
  | '"' :: '"' :: '"' :: rest =>
    (multiline? '"' true (withoutNewline rest)).map fun (contents, rest) =>
      (String.ofList contents, rest)
  | '\'' :: '\'' :: '\'' :: rest =>
    (multiline? '\'' false (withoutNewline rest)).map fun (contents, rest) =>
      (String.ofList contents, rest)
  | '"' :: rest => (basic? rest).map fun (contents, rest) => (String.ofList contents, rest)
  | '\'' :: rest => (literal? rest).map fun (contents, rest) => (String.ofList contents, rest)
  | _ => none

end ExprImports.Toml
