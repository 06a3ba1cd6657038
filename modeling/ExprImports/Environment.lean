import ExprImports.Catalog.Basic

/-!
# Environments

The variables that are visible at one point of an activity graph. An environment
is a chain of scopes; a name means its binding in the innermost scope that has
one. Binding a name a second time in one scope changes its type and keeps its
place.
-/

set_option autoImplicit false

namespace ExprImports

/-- The variables that one scope binds, in order of first binding. -/
abbrev Scope := List (String × TypeId)

/-- Binds a name in a scope. -/
def Scope.insert (scope : Scope) (name : String) (type : TypeId) : Scope :=
  match scope with
  | [] => [(name, type)]
  | (known, old) :: rest =>
    if known = name then (name, type) :: rest else (known, old) :: Scope.insert rest name type

/-- A chain of scopes: the innermost one, and those around it from the inside out. -/
structure Environment where
  innermost : Scope := []
  enclosing : List Scope := []
  deriving DecidableEq, Inhabited

namespace Environment

/-- The environment with a new scope, as yet empty, inside. -/
def nested (environment : Environment) : Environment :=
  { innermost := [], enclosing := environment.innermost :: environment.enclosing }

/-- Binds a name in the innermost scope. -/
def insert (environment : Environment) (name : String) (type : TypeId) : Environment :=
  { environment with innermost := environment.innermost.insert name type }

/-- The bindings of all scopes from the inside out, shadowed ones included. -/
def bindings (environment : Environment) : List (String × TypeId) :=
  environment.innermost ++ environment.enclosing.flatten

/-- The type of a variable. -/
def lookup (environment : Environment) (name : String) : Option TypeId :=
  environment.bindings.lookup name

/-- Leaves out the bindings of the given names and of names already listed. -/
def firstBindings (seen : List String) : List (String × TypeId) → List (String × TypeId)
  | [] => []
  | (name, type) :: rest =>
    if name ∈ seen then firstBindings seen rest
    else (name, type) :: firstBindings (name :: seen) rest

/-- Every visible variable once, those of inner scopes first. -/
def visibleBindings (environment : Environment) : List (String × TypeId) :=
  firstBindings [] environment.bindings

/-- Whether no scope binds anything. -/
def isEmpty (environment : Environment) : Bool :=
  environment.innermost.isEmpty && environment.enclosing.all (·.isEmpty)

/-- Whether there is a scope around the innermost one. -/
def hasParent (environment : Environment) : Bool :=
  !environment.enclosing.isEmpty

end Environment

end ExprImports
