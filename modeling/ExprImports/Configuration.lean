import ExprImports.DefaultAssemblies
import ExprImports.Toml.Reading

/-!
# Configuration

A configuration document may name the default assemblies. Whatever else it holds is
passed over, but no number in it may lack a value.
-/

set_option autoImplicit false

namespace ExprImports

/-- What can be configured. Without names the built-in default assemblies are taken. -/
structure Configuration where
  defaultAssemblies : Option (List String) := none
  deriving DecidableEq, Inhabited

namespace Configuration

/-- The key of the names of the default assemblies. -/
def defaultAssembliesKey : String := "default-assemblies"

/-- The configuration of a document, unless that is malformed. -/
def ofText? (text : String) : Option Configuration := do
  let entries ← Toml.parse? text
  let others := entries.filter fun (key, _) => key ≠ defaultAssembliesKey
  guard (Toml.Value.entriesAreSound others)
  match entries.lookup defaultAssembliesKey with
  | none => return {}
  | some value => do
    let names ← value.texts?
    return { defaultAssemblies := some names }

/-- The default assemblies that a configuration selects. -/
def defaults (configuration : Configuration) : DefaultAssemblies :=
  match configuration.defaultAssemblies with
  | some names => .ofList names
  | none => .builtin

end Configuration

end ExprImports
