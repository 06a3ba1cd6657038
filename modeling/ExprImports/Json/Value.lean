/-!
# JSON values

What a JSON text holds. Numbers are kept as they are written. A string may escape
one half of a surrogate pair alone; then it is well formed and yet stands for no
text, and neither it nor an object with such a key can be read.

A record is a value with known fields: an object, in which other keys say nothing
and no known key stands twice, or an array that gives the fields in order.
-/

set_option autoImplicit false

namespace ExprImports.Json

/-- A JSON value. -/
inductive Value where
  | null
  | boolean (value : Bool)
  | number (written : String)
  | text (contents : String)
  | unreadable
  | array (items : List Value)
  | object (entries : List (String × Value))
  deriving Inhabited

/-- A field of a record. -/
structure Field where
  name : String
  isRequired : Bool
  deriving DecidableEq, Inhabited

/-- The fields of a record that is written as an object. -/
def recordOfEntries? (fields : List Field) (entries : List (String × Value)) :
    Option (List (Option Value)) :=
  fields.mapM fun field =>
    match entries.filter fun (key, _) => key = field.name with
    | [] => if field.isRequired then none else some none
    | [(_, value)] => some (some value)
    | _ => none

/-- The fields of a record that is written as an array. It has no more items than
there are fields. -/
def recordOfItems? : List Field → List Value → Option (List (Option Value))
  | [], [] => some []
  | [], _ :: _ => none
  | _ :: fields, item :: items => (recordOfItems? fields items).map (some item :: ·)
  | field :: fields, [] =>
    if field.isRequired then none else (recordOfItems? fields []).map (none :: ·)

namespace Value

/-- The fields of a record, each with its value if it is written. -/
def record? (fields : List Field) : Value → Option (List (Option Value))
  | .object entries => recordOfEntries? fields entries
  | .array items => recordOfItems? fields items
  | _ => none

/-- The contents of a string. -/
def text? : Value → Option String
  | .text contents => some contents
  | _ => none

/-- The items of an array. -/
def items? : Value → Option (List Value)
  | .array items => some items
  | _ => none

end Value

end ExprImports.Json
