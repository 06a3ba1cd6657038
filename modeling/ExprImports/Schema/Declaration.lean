import ExprImports.Catalog.Basic
import ExprImports.Toml.Value

/-!
# Declarations of a schema

What a schema document declares: assemblies, types with their members, and
variables. Keys that are not known are refused, at every level of the document.
-/

set_option autoImplicit false

namespace ExprImports.Schema

open Toml (Value Field)

/-- A declared assembly. -/
structure DeclaredAssembly where
  name : String
  version : Option String := none
  isDynamic : Bool := false
  deriving DecidableEq, Inhabited

structure DeclaredProperty where
  name : String
  type : String
  settable : Bool := false
  isStatic : Bool := false
  deriving DecidableEq, Inhabited

structure DeclaredField where
  name : String
  type : String
  readOnly : Bool := false
  isStatic : Bool := false
  deriving DecidableEq, Inhabited

/-- A declared method. Without a type to return it returns nothing. -/
structure DeclaredMethod where
  name : String
  parameters : List String := []
  returns : Option String := none
  isStatic : Bool := false
  deriving DecidableEq, Inhabited

structure DeclaredConstructor where
  parameters : List String := []
  deriving DecidableEq, Inhabited

structure DeclaredIndexer where
  parameters : List String
  type : String
  settable : Bool := false
  deriving DecidableEq, Inhabited

/-- A declared type. The empty namespace stands for none. -/
structure DeclaredType where
  name : String
  namespaceName : String := ""
  assembly : String
  kind : NominalKind := .classType
  base : Option String := none
  interfaces : List String := []
  genericParameters : List String := []
  properties : List DeclaredProperty := []
  fields : List DeclaredField := []
  methods : List DeclaredMethod := []
  constructors : List DeclaredConstructor := []
  indexers : List DeclaredIndexer := []
  deriving DecidableEq, Inhabited

/-- The contents of a schema document. A binding gives a variable its type; bindings
are in order of the variables' names. -/
structure Declarations where
  assemblies : List DeclaredAssembly := []
  types : List DeclaredType := []
  bindings : List (String × String) := []
  deriving DecidableEq, Inhabited

/-! ## Reading -/

/-- A field that must be there. -/
def must {α : Type} (read : Value → Option α) (value : Option Value) : Option α :=
  value.bind read

/-- A field that may be missing. -/
def optional {α : Type} (read : Value → Option α) : Option Value → Option (Option α)
  | none => some none
  | some value => (read value).map some

/-- A field with a value that it has if it is missing. -/
def orElse {α : Type} (default : α) (read : Value → Option α) : Option Value → Option α
  | none => some default
  | some value => read value

/-- The items of an array, each read in the same way. -/
def each {α : Type} (read : Value → Option α) (value : Value) : Option (List α) :=
  value.items?.bind (·.mapM read)

/-- A field that must be written, one that may be left out of a table, and one that may
be left out anywhere. -/
def requiredField (name : String) : Field := ⟨name, .required⟩

def optionalField (name : String) : Field := ⟨name, .optional⟩

def defaultedField (name : String) : Field := ⟨name, .defaulted⟩

def readAssembly (value : Value) : Option DeclaredAssembly := do
  let fields ←
    value.record? [requiredField "name", optionalField "version", defaultedField "dynamic"]
  match fields with
  | [name, version, dynamic] => do
    let name ← must Value.text? name
    let version ← optional Value.text? version
    let isDynamic ← orElse false Value.boolean? dynamic
    return { name, version, isDynamic }
  | _ => none

def readProperty (value : Value) : Option DeclaredProperty := do
  let fields ← value.record?
    [requiredField "name", requiredField "type", defaultedField "settable",
      defaultedField "static"]
  match fields with
  | [name, type, settable, isStatic] => do
    let name ← must Value.text? name
    let type ← must Value.text? type
    let settable ← orElse false Value.boolean? settable
    let isStatic ← orElse false Value.boolean? isStatic
    return { name, type, settable, isStatic }
  | _ => none

def readField (value : Value) : Option DeclaredField := do
  let fields ← value.record?
    [requiredField "name", requiredField "type", defaultedField "read-only",
      defaultedField "static"]
  match fields with
  | [name, type, readOnly, isStatic] => do
    let name ← must Value.text? name
    let type ← must Value.text? type
    let readOnly ← orElse false Value.boolean? readOnly
    let isStatic ← orElse false Value.boolean? isStatic
    return { name, type, readOnly, isStatic }
  | _ => none

def readMethod (value : Value) : Option DeclaredMethod := do
  let fields ← value.record?
    [requiredField "name", defaultedField "parameters", optionalField "returns",
      defaultedField "static"]
  match fields with
  | [name, parameters, returns, isStatic] => do
    let name ← must Value.text? name
    let parameters ← orElse [] Value.texts? parameters
    let returns ← optional Value.text? returns
    let isStatic ← orElse false Value.boolean? isStatic
    return { name, parameters, returns, isStatic }
  | _ => none

def readConstructor (value : Value) : Option DeclaredConstructor := do
  let fields ← value.record? [defaultedField "parameters"]
  match fields with
  | [parameters] => do
    let parameters ← orElse [] Value.texts? parameters
    return { parameters }
  | _ => none

def readIndexer (value : Value) : Option DeclaredIndexer := do
  let fields ← value.record?
    [requiredField "parameters", requiredField "type", defaultedField "settable"]
  match fields with
  | [parameters, type, settable] => do
    let parameters ← must Value.texts? parameters
    let type ← must Value.text? type
    let settable ← orElse false Value.boolean? settable
    return { parameters, type, settable }
  | _ => none

/-- The kind with this name. -/
def kindOfName? : String → Option NominalKind
  | "class" => some .classType
  | "struct" => some .structType
  | "interface" => some .interfaceType
  | "enum" => some .enumType
  | _ => none

/-- A kind by its name, which may also be the only key of a table with nothing under
it. -/
def readKind : Value → Option NominalKind
  | .text name => kindOfName? name
  | .table _ [(name, .table _ [])] => kindOfName? name
  | .table _ [(name, .array _ [])] => kindOfName? name
  | _ => none

def readType (value : Value) : Option DeclaredType := do
  let fields ← value.record?
    [requiredField "name", defaultedField "namespace", requiredField "assembly",
      defaultedField "kind", optionalField "base", defaultedField "interfaces",
      defaultedField "generic-parameters", defaultedField "property", defaultedField "field",
      defaultedField "method", defaultedField "constructor", defaultedField "indexer"]
  match fields with
  | [name, namespaceName, assembly, kind, base, interfaces, genericParameters, properties,
      members, methods, constructors, indexers] => do
    let name ← must Value.text? name
    let namespaceName ← orElse "" Value.text? namespaceName
    let assembly ← must Value.text? assembly
    let kind ← orElse .classType readKind kind
    let base ← optional Value.text? base
    let interfaces ← orElse [] Value.texts? interfaces
    let genericParameters ← orElse [] Value.texts? genericParameters
    let properties ← orElse [] (each readProperty) properties
    let fields ← orElse [] (each readField) members
    let methods ← orElse [] (each readMethod) methods
    let constructors ← orElse [] (each readConstructor) constructors
    let indexers ← orElse [] (each readIndexer) indexers
    return {
      name, namespaceName, assembly, kind, base, interfaces, genericParameters, properties
      fields, methods, constructors, indexers }
  | _ => none

/-- The variables with their types, in order of their names. -/
def readBindings (value : Value) : Option (List (String × String)) := do
  let entries ← value.entries?
  let bindings ← entries.mapM fun (name, type) => type.text?.map fun type => (name, type)
  return bindings.mergeSort fun first second => first.1 ≤ second.1

/-- The declarations of a document with these entries. -/
def Declarations.ofEntries? (entries : Toml.Entries) : Option Declarations := do
  let fields ← Toml.recordOfEntries?
    [defaultedField "assembly", defaultedField "type", defaultedField "variables"] entries
  match fields with
  | [assemblies, types, bindings] => do
    let assemblies ← orElse [] (each readAssembly) assemblies
    let types ← orElse [] (each readType) types
    let bindings ← orElse [] readBindings bindings
    return { assemblies, types, bindings }
  | _ => none

end ExprImports.Schema
