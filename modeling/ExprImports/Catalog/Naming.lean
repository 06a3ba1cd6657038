import ExprImports.Catalog.Basic

/-!
# Names of types

A full name qualifies every type with its namespace; a display name leaves the
namespaces out. An open definition is followed by a backquote and the number of
its parameters, an instantiation by its arguments between angle brackets, and an
array by its brackets with one comma less than it has dimensions.
-/

set_option autoImplicit false

namespace ExprImports.Catalog

/-- How a type is written that the catalog does not know. -/
def unknownName : String := "<unknown>"

/-- The brackets of an array type. -/
def arrayBrackets (rank : Nat) : String :=
  "[" ++ String.ofList (List.replicate (rank - 1) ',') ++ "]"

/-- The name of a type, with or without namespaces. Element types and arguments
are older than the type they occur in. -/
def nameOf (catalog : Catalog) (qualified : Bool) (type : TypeId) : String :=
  match catalog.find? type with
  | none => unknownName
  | some entry =>
    let part (older : TypeId) : String :=
      if older.height < type.height then nameOf catalog qualified older else unknownName
    match entry.kind with
    | .array element rank => part element ++ arrayBrackets rank
    | _ =>
      let bare :=
        match entry.namespaceName, qualified with
        | some namespaceName, true => namespaceName ++ "." ++ entry.name
        | _, _ => entry.name
      match entry.genericity with
      | .plain => bare
      | .definition parameters => bare ++ "`" ++ toString parameters.length
      | .instantiation _ arguments =>
        bare ++ "<" ++ ", ".intercalate (arguments.map part) ++ ">"
termination_by type.height

/-- The name of a type with its namespace, as in `Contoso.Box<System.Int32>`. -/
def fullName (catalog : Catalog) (type : TypeId) : String :=
  catalog.nameOf true type

/-- The name of a type without namespaces, as in `Box<Int32>`. -/
def displayName (catalog : Catalog) (type : TypeId) : String :=
  catalog.nameOf false type

end ExprImports.Catalog
