import ExprImports.Binding.Alias
import ExprImports.Catalog.Declaration
import ExprImports.Text.Blank
import ExprImports.Text.Pieces

/-!
# Types as schemas write them

A schema refers to a type by its name, to an array of a type by brackets behind it,
and to an instantiation by arguments in angle brackets, all nested to any depth and
with any blanks around the parts. Resolving a reference creates the arrays and
instantiations that it mentions.
-/

set_option autoImplicit false

namespace ExprImports.Schema

/-- A reference to a type. An application keeps the text that it was read from. -/
inductive TypeReference where
  | name (text : String)
  | array (element : TypeReference)
  | application (written definition : String) (arguments : List TypeReference)
  deriving Inhabited

/-! ## Reading -/

/-- The text before a suffix. -/
def stripSuffix? (suffix text : List Char) : Option (List Char) :=
  if suffix.isSuffixOf text then some (text.take (text.length - suffix.length)) else none

/-- The parts of a text between the commas that are not inside angle brackets. A
closing bracket too many changes nothing. -/
def topLevelParts (depth : Nat) : List Char → List (List Char)
  | [] => [[]]
  | c :: rest =>
    let inner :=
      if c = '<' then depth + 1 else if c = '>' then depth - 1 else depth
    if c = ',' && depth = 0 then [] :: topLevelParts 0 rest
    else
      match topLevelParts inner rest with
      | [] => [[c]]
      | first :: others => (c :: first) :: others

/-- The definition and the text of the arguments, if a text is an application. -/
def application? (text : List Char) : Option (List Char × List Char) :=
  match Text.cut? '<' text with
  | none => none
  | some (definition, rest) => (stripSuffix? ['>'] rest).map (definition, ·)

/-- The reference that a text writes, its parts nested at most so deep. -/
def readWithin : Nat → List Char → TypeReference
  | 0, text => .name (String.ofList (Text.trimChars text))
  | depth + 1, text =>
    let trimmed := Text.trimChars text
    match stripSuffix? ['[', ']'] trimmed with
    | some element => .array (readWithin depth element)
    | none =>
      match application? trimmed with
      | some (definition, arguments) =>
        .application (String.ofList trimmed) (String.ofList (Text.trimChars definition))
          ((topLevelParts 0 arguments).map (readWithin depth))
      | none => .name (String.ofList trimmed)

/-- The reference that a text writes. A part is shorter than the whole, so the length
of the text bounds the nesting. -/
def TypeReference.ofText (text : String) : TypeReference :=
  readWithin text.toList.length text.toList

/-! ## Resolving -/

/-- The type with a name as it stands, in the given namespace, or in `System`. -/
def lookupType? (catalog : Catalog) (namespaceName : Option String) (name : String) :
    Option TypeId :=
  catalog.resolveName? name (namespaceName.toList ++ ["System"])

mutual

/-- The type that a reference stands for, and the catalog with all types it mentions.
If there is none, the text of the part that could not be resolved. -/
def TypeReference.resolve (namespaceName : Option String) (catalog : Catalog) :
    TypeReference → Except String (TypeId × Catalog)
  | .name text =>
    match lookupType? catalog namespaceName (Binding.expandAlias text) with
    | some type => .ok (type, catalog)
    | none => .error text
  | .array element =>
    match element.resolve namespaceName catalog with
    | .error text => .error text
    | .ok (element, catalog) => .ok (catalog.arrayOf element 1)
  | .application written definition arguments =>
    match resolveReferences namespaceName catalog arguments with
    | .error text => .error text
    | .ok (arguments, catalog) =>
      let genericName := definition ++ "`" ++ toString arguments.length
      match lookupType? catalog namespaceName genericName with
      | none => .error written
      | some generic =>
        match catalog.instantiate? generic arguments with
        | none => .error written
        | some instantiated => .ok instantiated

/-- The types that references stand for, resolved from left to right. -/
def resolveReferences (namespaceName : Option String) (catalog : Catalog) :
    List TypeReference → Except String (List TypeId × Catalog)
  | [] => .ok ([], catalog)
  | reference :: rest =>
    match reference.resolve namespaceName catalog with
    | .error text => .error text
    | .ok (type, catalog) =>
      match resolveReferences namespaceName catalog rest with
      | .error text => .error text
      | .ok (types, catalog) => .ok (type :: types, catalog)

end

end ExprImports.Schema
