import ExprImports.Json.Quoted
import ExprImports.Json.Value

/-!
# Writing JSON

A value is written on one line, or with every item and every entry on a line of its
own. The two differ only in the blanks between the same signs.
-/

set_option autoImplicit false

namespace ExprImports.Json

/-- The blanks of a written value: what stands before an item or a closing bracket at
a level of nesting, and what stands between a colon and a value. -/
structure Layout where
  lineBreak : Nat → List Char
  afterColon : List Char

namespace Layout

/-- All on one line and without blanks. -/
def compact : Layout :=
  ⟨fun _ => [], []⟩

/-- Every item on a line of its own, two spaces further in than what it is part of. -/
def indented : Layout :=
  ⟨fun level => '\n' :: List.replicate (2 * level) ' ', [' ']⟩

end Layout

mutual

/-- A value as it is written at a level of nesting. -/
def Value.write (layout : Layout) (level : Nat) : Value → List Char
  | .null => "null".toList
  | .boolean true => "true".toList
  | .boolean false => "false".toList
  | .number written => written.toList
  | .text contents => quoted contents
  | .unreadable => "\"\\ud800\"".toList
  | .array [] => ['[', ']']
  | .array (item :: items) =>
    '[' :: layout.lineBreak (level + 1) ++ item.write layout (level + 1) ++
      writeItems layout (level + 1) items ++ layout.lineBreak level ++ [']']
  | .object [] => ['\x7b', '\x7d']
  | .object ((key, value) :: entries) =>
    '\x7b' :: layout.lineBreak (level + 1) ++ quoted key ++ ':' :: layout.afterColon ++
      value.write layout (level + 1) ++ writeEntries layout (level + 1) entries ++
      layout.lineBreak level ++ ['\x7d']

/-- Items as they are written behind another one. -/
def writeItems (layout : Layout) (level : Nat) : List Value → List Char
  | [] => []
  | item :: items =>
    ',' :: layout.lineBreak level ++ item.write layout level ++ writeItems layout level items

/-- Entries as they are written behind another one. -/
def writeEntries (layout : Layout) (level : Nat) : List (String × Value) → List Char
  | [] => []
  | (key, value) :: entries =>
    ',' :: layout.lineBreak level ++ quoted key ++ ':' :: layout.afterColon ++
      value.write layout level ++ writeEntries layout level entries

end

/-- A value on one line. -/
def Value.compact (value : Value) : String :=
  String.ofList (value.write .compact 0)

/-- A value on several lines. -/
def Value.indented (value : Value) : String :=
  String.ofList (value.write .indented 0)

end ExprImports.Json
