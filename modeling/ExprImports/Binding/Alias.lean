/-!
# Short names of core types

Six core types can be named by a word without a namespace.
-/

set_option autoImplicit false

namespace ExprImports.Binding

/-- The short names with the full names that they stand for. -/
def aliases : List (String × String) :=
  [ ("bool", "System.Boolean"),
    ("int", "System.Int32"),
    ("long", "System.Int64"),
    ("double", "System.Double"),
    ("string", "System.String"),
    ("object", "System.Object") ]

/-- The name that a short name stands for; any other name stands for itself. -/
def expandAlias (name : String) : String :=
  (aliases.lookup name).getD name

end ExprImports.Binding
