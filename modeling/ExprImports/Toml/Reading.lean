import ExprImports.Toml.Document
import ExprImports.Toml.Quoted
import ExprImports.Toml.Scalar

/-!
# Reading TOML

A document is a sequence of lines: headers and keys with values. Values may be
nested only so deep.
-/

set_option autoImplicit false

namespace ExprImports.Toml

/-- Reads a value from the front of a text and gives what follows. -/
abbrev Read (α : Type) := List Char → Option (α × List Char)

/-- The text from its first character that is neither blank, a line end nor part of a
comment. A comment ends with its line. -/
def skipTrivia (inComment : Bool) : List Char → Option (List Char)
  | [] => some []
  | '\n' :: rest => skipTrivia false rest
  | '\r' :: '\n' :: rest => skipTrivia false rest
  | c :: rest =>
    if inComment then if isLineChar c then skipTrivia true rest else none
    else if isSpace c then skipTrivia false rest
    else if c == '#' then skipTrivia true rest
    else some (c :: rest)

/-- The text from the next line on, if nothing but a comment is left on this one. -/
def finishLine (text : List Char) : Option (List Char) :=
  let comment (text : List Char) : Option (List Char) :=
    let behind := text.dropWhile isLineChar
    if behind.isEmpty then some [] else afterNewline? behind
  match text.dropWhile isSpace with
  | [] => some []
  | '#' :: rest => comment rest
  | rest => afterNewline? rest

/-! ## Keys -/

/-- Whether a character may stand in a key without quotes. -/
def isBareKeyChar (c : Char) : Bool :=
  c.isAlphanum || c == '_' || c == '-'

/-- Reads one part of a key. -/
def simpleKey : Read String
  | '"' :: rest => (basic? rest).map fun (contents, rest) => (String.ofList contents, rest)
  | '\'' :: rest => (literal? rest).map fun (contents, rest) => (String.ofList contents, rest)
  | text =>
    let key := text.takeWhile isBareKeyChar
    if key.isEmpty then none else some (String.ofList key, text.dropWhile isBareKeyChar)

/-- Reads the parts of a key with dots between them, and the spaces behind. -/
def keyParts (text : List Char) : Option (List String × List Char) :=
  match simpleKey text with
  | none => none
  | some (key, rest) =>
    match rest.dropWhile isSpace with
    | '.' :: behind =>
      let next := behind.dropWhile isSpace
      if next.length < text.length then
        (keyParts next).map fun (keys, rest) => (key :: keys, rest)
      else none
    | rest => some ([key], rest)
termination_by text.length

/-- The number of brackets that may be open at once, and of parts that a key may have. -/
def maxNesting : Nat := 80

/-- Reads a key, and the spaces behind. -/
def dottedKey : Read (List String) := fun text =>
  (keyParts text).filter fun (path, _) => path.length ≤ maxNesting

/-! ## Values -/

/-- Whether a value without quotes and brackets cannot go on with the character. -/
def endsScalar (c : Char) : Bool :=
  c == '\n' || c == '\r' || c == ',' || c == '=' || c == '#' || c == '[' || c == ']' ||
    c == '\x7b' || c == '\x7d'

/-- Whether a value without quotes and brackets goes on behind spaces. -/
def continuesScalar : List Char → Bool
  | [] => false
  | c :: _ => !endsScalar c && c ≠ '.' && c ≠ '"' && c ≠ '\''

/-- The text of a value without quotes and brackets, and what follows. Spaces belong
to it if it goes on behind them. -/
def scalarText : List Char → List Char × List Char
  | [] => ([], [])
  | c :: rest =>
    let goesOn := if isSpace c then continuesScalar (rest.dropWhile isSpace) else !endsScalar c
    if goesOn then
      let (text, behind) := scalarText rest
      (c :: text, behind)
    else ([], c :: rest)

/-- Reads a value without quotes and brackets. -/
def scalar : Read Value := fun text =>
  let (written, rest) := scalarText text
  (scalar? written).map (·, rest)

/-- Reads items with commas between them up to a closing character. A comma may stand
behind the last item, and items may stand on several lines. -/
def separated {α : Type} (item : Read α) (close : Char) (text : List Char) :
    Option (List α × List Char) :=
  match skipTrivia false text with
  | none => none
  | some [] => none
  | some (c :: rest) =>
    if c = close then some ([], rest)
    else
      match item (c :: rest) with
      | none => none
      | some (first, behind) =>
        match skipTrivia false behind with
        | some (',' :: next) =>
          if next.length < text.length then
            (separated item close next).map fun (others, rest) => (first :: others, rest)
          else none
        | some (last :: rest) => if last = close then some ([first], rest) else none
        | _ => none
termination_by text.length

/-- Reads a key with its value. On both sides of the equals sign a gap may stand. -/
def keyValue (skipGap : List Char → Option (List Char)) (value : Read Value) :
    Read (List String × Value) := fun text => do
  let (path, rest) ← dottedKey text
  match ← skipGap rest with
  | '=' :: rest => do
    let (value, rest) ← value (← skipGap rest)
    return ((path, value), rest)
  | _ => none

/-- The text from its first character that is not a space. -/
def skipSpaces (text : List Char) : Option (List Char) :=
  some (text.dropWhile isSpace)

/-- Reads a value that opens at most so many brackets. -/
def valueWithin : Nat → Read Value
  | depth, text =>
    match text with
    | '"' :: _ => (string? text).map fun (value, rest) => (.text value, rest)
    | '\'' :: _ => (string? text).map fun (value, rest) => (.text value, rest)
    | '[' :: rest =>
      match depth with
      | 0 => none
      | depth + 1 => do
        let (items, rest) ← separated (valueWithin depth) ']' rest
        return (.array false items, rest)
    | '\x7b' :: rest =>
      match depth with
      | 0 => none
      | depth + 1 => do
        let (pairs, rest) ← separated (keyValue (skipTrivia false) (valueWithin depth)) '\x7d' rest
        let entries ← pairs.foldlM (fun entries (path, value) => assign path value entries) []
        return (.table .inline entries, rest)
    | _ => scalar text

/-! ## Documents -/

/-- Reads the header of a table or of the next table of an array. -/
def header (document : Document) : List Char → Option (Document × List Char)
  | '[' :: '[' :: rest => do
    let (path, rest) ← dottedKey (rest.dropWhile isSpace)
    match rest with
    | ']' :: ']' :: rest => do
      let root ← openArrayTable path document.root
      return ({ root, header := path }, rest)
    | _ => none
  | '[' :: rest => do
    let (path, rest) ← dottedKey (rest.dropWhile isSpace)
    match rest with
    | ']' :: rest => do
      let root ← openTable path document.root
      return ({ root, header := path }, rest)
    | _ => none
  | _ => none

/-- Reads one statement: a header, or a key with its value. -/
def statement (document : Document) (text : List Char) : Option (Document × List Char) :=
  match text with
  | '[' :: _ => header document text
  | _ => do
    let ((path, value), rest) ← keyValue skipSpaces (valueWithin maxNesting) text
    let document ← document.assign path value
    return (document, rest)

/-- Reads the statements of a document to the end of the text. -/
def statements (document : Document) (text : List Char) : Option Document :=
  match skipTrivia false text with
  | none => none
  | some [] => some document
  | some (c :: rest) =>
    match statement document (c :: rest) with
    | none => none
    | some (document, rest) =>
      match finishLine rest with
      | none => none
      | some behind =>
        if behind.length < text.length then statements document behind else none
termination_by text.length

/-- The code point that may mark the beginning of a text. -/
def byteOrderMark : Char := '\ufeff'

/-- The entries of the root table of a document, or nothing if the text is no TOML. -/
def parse? (text : String) : Option Entries :=
  let characters :=
    match text.toList with
    | c :: rest => if c = byteOrderMark then rest else c :: rest
    | [] => []
  (statements {} characters).map (·.root)

end ExprImports.Toml
