import ExprImports.Text.Blank
import ExprImports.Text.Pieces

/-!
# Assembly names

An assembly is identified by a simple name and, optionally, a version, a culture
and a public key token. The display form writes the simple name first and each
attribute that is present after a comma, as in
`Contoso.Crm, Version=1.0.0.0, Culture=neutral, PublicKeyToken=null`.
-/

set_option autoImplicit false

namespace ExprImports

/-- The identity of an assembly. -/
structure AssemblyName where
  name : String
  version : Option String := none
  culture : Option String := none
  publicKeyToken : Option String := none
  deriving DecidableEq, Inhabited

namespace AssemblyName

/-- The display form: the simple name, then the attributes that are present. -/
def display (assembly : AssemblyName) : String :=
  let written (key : String) (value : Option String) : String :=
    match value with
    | some text => ", " ++ key ++ "=" ++ text
    | none => ""
  assembly.name ++ written "Version" assembly.version ++ written "Culture" assembly.culture ++
    written "PublicKeyToken" assembly.publicKeyToken

/-- Takes one attribute of a display form into account. Keys are compared without
regard to ASCII case, and a part without an equals sign or with another key says
nothing. -/
def withAttribute (assembly : AssemblyName) (part : List Char) : AssemblyName :=
  match Text.cut? '=' part with
  | none => assembly
  | some (key, value) =>
    let key := (Text.trimChars key).map Char.toLower
    let value := some (String.ofList (Text.trimChars value))
    if key = "version".toList then { assembly with version := value }
    else if key = "culture".toList then { assembly with culture := value }
    else if key = "publickeytoken".toList then { assembly with publicKeyToken := value }
    else assembly

/-- Reads a display form. Of two values for one attribute the later one holds. A
text whose simple name is empty names no assembly. -/
def ofDisplay? (text : String) : Option AssemblyName :=
  match (Text.pieces ',' text.toList).map Text.trimChars with
  | [] => none
  | name :: attributes =>
    if name.isEmpty then none
    else some (attributes.foldl withAttribute { name := String.ofList name })

end AssemblyName

end ExprImports
