import ExprImports.Catalog.Basic

/-!
# The core types

Every catalog begins with one assembly and sixteen types, created in a fixed
order, so their identities are constants.
-/

set_option autoImplicit false

namespace ExprImports

/-- The simple name of the assembly that defines the core types. -/
def coreAssemblyName : String := "System.Private.CoreLib"

/-- The assembly that defines the core types. -/
def coreAssembly : AssemblyId := .entry 0

namespace CoreType

/-- The root of the hierarchy. -/
def object : TypeId := .entry 0

def comparable : TypeId := .entry 1

def convertible : TypeId := .entry 2

def cloneable : TypeId := .entry 3

def enumerable : TypeId := .entry 4

def valueType : TypeId := .entry 5

def enum : TypeId := .entry 6

def boolean : TypeId := .entry 7

def int32 : TypeId := .entry 8

def int64 : TypeId := .entry 9

def double : TypeId := .entry 10

def string : TypeId := .entry 11

/-- The type of type values. -/
def type : TypeId := .entry 12

def void : TypeId := .entry 13

/-- The base of all array types. -/
def array : TypeId := .entry 14

def math : TypeId := .entry 15

/-- The number of core types. -/
def count : Nat := 16

end CoreType

end ExprImports
