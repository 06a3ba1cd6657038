import ExprImports.Span

/-!
# Diagnostics

A diagnostic reports a fault in the text of an expression. It carries the whole
text and, if the fault has a place, that place.
-/

set_option autoImplicit false

namespace ExprImports

/-- A fault in the text of an expression. -/
structure Diagnostic where
  message : String
  text : String
  span : Option Span := none
  deriving DecidableEq, Inhabited

/-- The code under which diagnostics are reported. -/
def Diagnostic.code : String := "flowexpr::source_expression"

/-- The diagnostic for a well-typed expression that is no storage location. An
explanation follows a colon. -/
def Diagnostic.invalidLocation (text : String) (explanation : Option String) : Diagnostic :=
  let detail :=
    match explanation with
    | some fragment => ":" ++ fragment
    | none => ""
  { message :=
      "Compiler error(s) encountered processing expression \"" ++ text ++
        "\". Invalid L-value expression." ++ detail
    text }

end ExprImports
