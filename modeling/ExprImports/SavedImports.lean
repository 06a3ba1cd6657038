import ExprImports.Imports
import ExprImports.Json.Reading
import ExprImports.Json.Writing

/-!
# Saved imports

Import records are saved with an expression as a JSON object whose only entry lists
the records. A record is an object with the assembly and, if there is one, the
namespace. On loading, records that stand twice are taken once.
-/

set_option autoImplicit false

namespace ExprImports

namespace ImportRecord

/-- The key of the assembly. -/
def assemblyKey : String := "assembly"

/-- The key of the namespace. -/
def namespaceKey : String := "import"

/-- The fields of a saved record. -/
def fields : List Json.Field :=
  [⟨assemblyKey, true⟩, ⟨namespaceKey, false⟩]

/-- A record as it is saved. -/
def toJson (record : ImportRecord) : Json.Value :=
  match record.namespaceName with
  | none => .object [(assemblyKey, .text record.assembly)]
  | some name => .object [(assemblyKey, .text record.assembly), (namespaceKey, .text name)]

/-- The namespace of a saved record. A null is none. -/
def namespaceOfJson? : Option Json.Value → Option (Option String)
  | none => some none
  | some .null => some none
  | some value => value.text?.map some

/-- The record that was saved. -/
def ofJson? (value : Json.Value) : Option ImportRecord :=
  match value.record? fields with
  | some [some assembly, name] => do
    let assembly ← assembly.text?
    let namespaceName ← namespaceOfJson? name
    return { assembly, namespaceName }
  | _ => none

end ImportRecord

namespace ImportSettings

/-- The key of the list of records. -/
def recordsKey : String := "import-references"

/-- The fields of saved settings. -/
def fields : List Json.Field :=
  [⟨recordsKey, true⟩]

/-- The entries of saved settings. -/
def toEntries (settings : ImportSettings) : List (String × Json.Value) :=
  [(recordsKey, .array (settings.records.map ImportRecord.toJson))]

/-- Settings as they are saved. -/
def toJson (settings : ImportSettings) : Json.Value :=
  .object settings.toEntries

/-- The settings that were saved. -/
def ofJson? (value : Json.Value) : Option ImportSettings :=
  match value.record? fields with
  | some [some list] => do
    let items ← list.items?
    let records ← items.mapM ImportRecord.ofJson?
    return ofRecords records
  | _ => none

/-- The text under which settings are saved. -/
def save (settings : ImportSettings) : String :=
  settings.toJson.compact

/-- The settings that a text saves, or nothing if it saves none. -/
def load? (text : String) : Option ImportSettings :=
  (Json.parse? text).bind ofJson?

end ImportSettings

end ExprImports
