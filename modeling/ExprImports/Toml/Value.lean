/-!
# TOML values

What a TOML document holds. A table remembers how it came about, because that
decides whether later lines may add to it. A record is a value with known fields:
a table in which no other key occurs, or an array that gives the fields in order and
may have items behind them, which are not looked at.
-/

set_option autoImplicit false

namespace ExprImports.Toml

/-- How a table came about: in braces, as a step of a header, as a step of a dotted
key, or by a header of its own. -/
inductive TableOrigin where
  | inline
  | implied
  | dotted
  | header
  deriving DecidableEq, Inhabited

/-- A TOML value. Of a number nothing is kept but whether it has a value, and a date
is kept as its text. -/
inductive Value where
  | text (value : String)
  | number (hasValue : Bool)
  | boolean (value : Bool)
  | date (display : String)
  | array (ofTables : Bool) (items : List Value)
  | table (origin : TableOrigin) (entries : List (String × Value))
  deriving Inhabited

/-- The entries of a table in the order in which they were first written. -/
abbrev Entries := List (String × Value)

/-- The entries with another value under a key that is among them. -/
def Entries.replace (entries : Entries) (key : String) (value : Value) : Entries :=
  entries.map fun (known, old) => if known = key then (known, value) else (known, old)

/-! ## Records -/

/-- Whether a field of a record must be written. One that may be left out in a table
may still be required in an array. -/
inductive Presence where
  | required
  | optional
  | defaulted
  deriving DecidableEq, Inhabited

/-- A field of a record. -/
structure Field where
  name : String
  presence : Presence
  deriving DecidableEq, Inhabited

/-- The fields of a record that is written as a table. -/
def recordOfEntries? (fields : List Field) (entries : Entries) : Option (List (Option Value)) :=
  if entries.all fun (key, _) => fields.any (·.name == key) then
    fields.mapM fun field =>
      match entries.lookup field.name with
      | some value => some (some value)
      | none => if field.presence = .required then none else some none
  else none

/-- The fields of a record that is written as an array. Items behind the last field
say nothing. -/
def recordOfItems? : List Field → List Value → Option (List (Option Value))
  | [], _ => some []
  | _ :: fields, item :: items => (recordOfItems? fields items).map (some item :: ·)
  | field :: fields, [] =>
    if field.presence = .defaulted then (recordOfItems? fields []).map (none :: ·) else none

namespace Value

/-- The fields of a record, each with its value if it is written. -/
def record? (fields : List Field) : Value → Option (List (Option Value))
  | .table _ entries => recordOfEntries? fields entries
  | .array _ items => recordOfItems? fields items
  | _ => none

/-- The text of a string. -/
def text? : Value → Option String
  | .text value => some value
  | _ => none

/-- A truth value. -/
def boolean? : Value → Option Bool
  | .boolean value => some value
  | _ => none

/-- The items of an array. -/
def items? : Value → Option (List Value)
  | .array _ items => some items
  | _ => none

/-- The key under which a date has its text if it is read as a table. -/
def dateKey : String := "$__toml_private_datetime"

/-- The entries of a table. A date can be read as a table with one entry. -/
def entries? : Value → Option Entries
  | .table _ entries => some entries
  | .date display => some [(dateKey, .text display)]
  | _ => none

/-- The texts of an array of strings. -/
def texts? (value : Value) : Option (List String) :=
  value.items?.bind (·.mapM text?)

/-! ## Passing over values -/

mutual

/-- Whether a value can be passed over: every number in it has a value. -/
def isSound : Value → Bool
  | .number hasValue => hasValue
  | .array _ items => areSound items
  | .table _ entries => entriesAreSound entries
  | _ => true

/-- Whether all items can be passed over. -/
def areSound : List Value → Bool
  | [] => true
  | item :: items => item.isSound && areSound items

/-- Whether the values of all entries can be passed over. -/
def entriesAreSound : List (String × Value) → Bool
  | [] => true
  | (_, value) :: entries => value.isSound && entriesAreSound entries

end

end Value

end ExprImports.Toml
