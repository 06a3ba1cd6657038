import ExprImports.Binding.Expression

/-!
# What a text names, and what of it is evaluated

An expression names types where it creates objects or arrays, tests or converts to a
type, uses a type as a value, or has a path that stands for a type before a dot
(`Context.namedBy?`). Such a path is not evaluated; all other parts of an expression
are (`Context.valueParts`).
-/

set_option autoImplicit false

namespace ExprImports.Binding

open Surface

namespace Context

/-- The type that an expression itself names, its parts apart. -/
def namedBy? (context : Context) : Expression → Option TypeId
  | .member target _ _ => context.receiverType? target
  | .methodCall target _ _ _ => context.receiverType? target
  | .create type _ _ => context.uniqueType? type.name
  | .createArray element _ _ => context.uniqueType? element.name
  | .typeOf type _ => context.uniqueType? type.name
  | .typeIs _ type _ => context.uniqueType? type.name
  | .typeAs _ type _ => context.uniqueType? type.name
  | _ => none

/-- What stands before a dot, unless it names a type. -/
def receiverParts (context : Context) (target : Expression) : List Expression :=
  match context.receiverType? target with
  | some _ => []
  | none => [target]

/-- The expressions directly below an expression that are evaluated, from left to right. -/
def valueParts (context : Context) : Expression → List Expression
  | .literal _ _ => []
  | .identifier _ _ => []
  | .member target _ _ => context.receiverParts target
  | .methodCall target _ arguments _ => context.receiverParts target ++ arguments
  | .index target arguments _ => target :: arguments
  | .create _ arguments _ => arguments
  | .createArray _ items _ => items
  | .typeOf _ _ => []
  | .typeIs operand _ _ => [operand]
  | .typeAs operand _ _ => [operand]
  | .unary _ operand _ => [operand]
  | .binary _ left right _ => [left, right]
  | .conditional test ifTrue ifFalse _ => [test, ifTrue, ifFalse]
  | .assign target value _ => [target, value]

/-- The part is the expression itself or is evaluated anywhere inside it. -/
inductive Evaluates (context : Context) (part : Expression) : Expression → Prop where
  | root : Evaluates context part part
  | inPart {whole child : Expression} (isPart : child ∈ context.valueParts whole)
      (inside : Evaluates context part child) : Evaluates context part whole

theorem mem_receiverParts {context : Context} {target part : Expression}
    (isPart : part ∈ context.receiverParts target) : part = target := by
  unfold receiverParts at isPart
  split at isPart
  · exact absurd isPart List.not_mem_nil
  · exact List.mem_singleton.mp isPart

theorem mem_receiverParts_self {context : Context} {target : Expression}
    (noType : context.receiverType? target = none) : target ∈ context.receiverParts target := by
  rw [receiverParts, noType]
  exact List.mem_cons_self

/-- A part is smaller than the expression. -/
theorem sizeOf_lt_of_mem_valueParts {context : Context} {whole part : Expression}
    (isPart : part ∈ context.valueParts whole) : sizeOf part < sizeOf whole := by
  have inList (parts : List Expression) : part ∈ parts → sizeOf part < sizeOf parts :=
    List.sizeOf_lt_of_mem
  have isReceiver (target : Expression) : part ∈ context.receiverParts target → part = target :=
    mem_receiverParts
  cases whole <;> rw [valueParts] at isPart <;> grind

/-! ## Names of types -/

theorem visible_eq_ok_iff {context : Context} {type found : TypeId} {span : Span} :
    context.visible type span = .ok found ↔
      type = found ∧ context.missingAssembly? found = none := by
  unfold visible
  constructor
  · intro done
    split at done
    · rename_i visible
      cases done
      exact ⟨rfl, visible⟩
    · cases done
  · rintro ⟨rfl, visible⟩
    rw [visible]

theorem mem_searchedNamespaces {context : Context} {place : String} :
    place ∈ context.searchedNamespaces ↔
      place = systemNamespace ∨ place ∈ context.namespaces := by
  simp only [searchedNamespaces, List.mem_cons, List.mem_mergeSort, List.mem_filter, ne_eq,
    decide_not, Bool.not_eq_true', decide_eq_false_iff_not]
  by_cases same : place = systemNamespace
  · simp [same]
  · simp [same]

/-- What a name may stand for that is no full name. -/
theorem mem_candidates_iff {context : Context} {name : String} {type : TypeId}
    (short : context.catalog.findType? (expandAlias name) = none) :
    type ∈ context.candidates name ↔
      ∃ place, (place = systemNamespace ∨ place ∈ context.namespaces) ∧
        context.catalog.findType? (place ++ "." ++ expandAlias name) = some type := by
  unfold candidates
  dsimp only
  rw [short]
  simp only [mem_distinct, List.mem_filterMap, mem_searchedNamespaces]

theorem mem_candidates_of_uniqueType? {context : Context} {name : String} {type : TypeId}
    (unique : context.uniqueType? name = some type) : type ∈ context.candidates name := by
  unfold uniqueType? at unique
  split at unique
  · rename_i single
    cases unique
    rw [single]
    exact List.mem_cons_self
  · cases unique

/-- What a name stands for has this as its full name, or has it behind a namespace. -/
theorem findType?_of_uniqueType? {context : Context} {name : String} {type : TypeId}
    (unique : context.uniqueType? name = some type) :
    context.catalog.findType? (expandAlias name) = some type ∨
      ∃ place, context.catalog.findType? (place ++ "." ++ expandAlias name) = some type := by
  have offered := mem_candidates_of_uniqueType? unique
  unfold candidates at offered
  dsimp only at offered
  split at offered
  · rename_i found
    exact .inl (List.mem_singleton.mp offered ▸ found)
  · obtain ⟨place, _, found⟩ := List.mem_filterMap.mp (mem_distinct.mp offered)
    exact .inr ⟨place, found⟩

/-- A type name is resolved to the only type that it can stand for, if the hints allow that
type to be named. -/
theorem resolve_eq_ok_iff {context : Context} {named : TypeName} {type : TypeId} :
    context.resolve named = .ok type ↔
      context.uniqueType? named.name = some type ∧ context.missingAssembly? type = none := by
  unfold resolve uniqueType?
  rcases context.candidates named.name with _ | ⟨first, _ | ⟨second, others⟩⟩
  · exact ⟨fun done => (by cases done), fun ⟨found, _⟩ => (by cases found)⟩
  · exact visible_eq_ok_iff.trans (and_congr_left' Option.some_inj.symm)
  · exact ⟨fun done => (by cases done), fun ⟨found, _⟩ => (by cases found)⟩

end Context

end ExprImports.Binding
