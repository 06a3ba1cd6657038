import ExprImports.Proofs.Binding.Assembly
import ExprImports.Proofs.Binding.Paths

/-!
# One expression in two contexts

A context is looked at in three ways while an expression is bound: for the types that a name
may stand for, for the types that can be seen under the hints, and for the types of the
variables that the expression mentions. If two contexts over the same types differ only in that
one of them sees fewer types, then the narrow one binds an expression to the same tree and
reports the same faults as the wide one, or it stops at a named type that only the wide one sees
(`bind_restricted`).

**What is seen.** In an expression that is bound, every type that an evaluated part names can
be seen (`sees_of_evaluates`).
-/

set_option autoImplicit false

namespace ExprImports.Binding

open Surface

/-! ## Contexts that are alike -/

/-- The contexts have the same types and find the same types under every name, they give the
same types to the variables with these names, and what the narrow one sees the wide one sees. -/
structure Context.Narrows (narrow wide : Context) (names : List String) : Prop where
  catalog : narrow.catalog = wide.catalog
  candidates : ∀ name, narrow.candidates name = wide.candidates name
  lookups : ∀ name ∈ names, narrow.environment.lookup name = wide.environment.lookup name
  sees : ∀ type, narrow.Sees type → wide.Sees type

/-- The fault reports a type that an evaluated part of the expression names, and that the wide
context does not miss in this way. -/
inductive Context.Hides (narrow wide : Context) (expression : Expression) : Fault → Prop where
  | intro {part : Expression} {type : TypeId} {assembly : String} (span : Span)
      (evaluates : wide.Evaluates part expression) (isNamed : wide.namedBy? part = some type)
      (hidden : narrow.missingAssembly? type = some assembly)
      (only : wide.missingAssembly? type ≠ some assembly) :
      Hides narrow wide expression ⟨.assemblyNotReferenced type assembly, span⟩

/-- Contexts that miss the same assemblies hide nothing from each other. -/
theorem Context.not_hides {narrow wide : Context}
    (alike : ∀ type, narrow.missingAssembly? type = wide.missingAssembly? type)
    (expression : Expression) (fault : Fault) : ¬ narrow.Hides wide expression fault := by
  rintro ⟨span, evaluates, isNamed, hidden, only⟩
  exact only ((alike _).symm.trans hidden)

/-- The first result is the second one, or it is one of these faults. -/
inductive Restricts {α : Type} (hidden : Fault → Prop) : Result α → Result α → Prop where
  | same {result : Result α} : Restricts hidden result result
  | hidden {fault : Fault} {result : Result α} (isHidden : hidden fault) :
      Restricts hidden (.error fault) result

theorem Restricts.of_eq {α : Type} {hidden : Fault → Prop} {first second : Result α}
    (equal : first = second) : Restricts hidden first second :=
  equal ▸ .same

theorem Restricts.bind {α β : Type} {hidden : Fault → Prop} {first second : Result α}
    {next other : α → Result β} (restricts : Restricts hidden first second)
    (further : ∀ value, Restricts hidden (next value) (other value)) :
    Restricts hidden (first >>= next) (second >>= other) := by
  cases restricts with
  | same =>
      cases first with
      | error fault => exact .same
      | ok value => exact further value
  | hidden isHidden => exact .hidden isHidden

theorem Restricts.map {α β : Type} {hidden : Fault → Prop} {first second : Result α}
    {change : α → β} (restricts : Restricts hidden first second) :
    Restricts hidden (first.map change) (second.map change) := by
  cases restricts with
  | same => exact .same
  | hidden isHidden => exact .hidden isHidden

theorem Restricts.eq_or_error {α : Type} {hidden : Fault → Prop} {first second : Result α}
    (restricts : Restricts hidden first second) :
    first = second ∨ ∃ fault, hidden fault ∧ first = .error fault := by
  cases restricts with
  | same => exact .inl rfl
  | hidden isHidden => exact .inr ⟨_, isHidden, rfl⟩

section Parts

variable {narrow wide : Context} {names : List String}

theorem Context.Narrows.mono {fewer : List String} (narrows : narrow.Narrows wide names)
    (inside : fewer ⊆ names) : narrow.Narrows wide fewer :=
  { narrows with lookups := fun name isName => narrows.lookups name (inside isName) }

/-- What is hidden in an evaluated part is hidden in the whole. -/
theorem Restricts.of_part {α : Type} {whole part : Expression} {first second : Result α}
    (restricts : Restricts (narrow.Hides wide part) first second)
    (isPart : part ∈ wide.valueParts whole) :
    Restricts (narrow.Hides wide whole) first second := by
  cases restricts with
  | same => exact .same
  | hidden isHidden =>
      cases isHidden with
      | intro span evaluates isNamed hidden only =>
          exact .hidden (.intro span (.inPart isPart evaluates) isNamed hidden only)

/-! ## Names of types -/

theorem uniqueType?_narrow (narrows : narrow.Narrows wide names) (name : String) :
    narrow.uniqueType? name = wide.uniqueType? name := by
  rw [Context.uniqueType?, Context.uniqueType?, narrows.candidates]

/-- The first name of a path is mentioned in it. -/
theorem mem_identifiers_of_rootIdentifier? {expression : Expression} {root : String}
    (isRoot : expression.rootIdentifier? = some root) : root ∈ expression.identifiers := by
  induction expression using Expression.rootIdentifier?.induct with
  | case1 name span =>
      cases isRoot
      exact List.mem_singleton_self _
  | case2 target name span ih => exact ih isRoot
  | case3 other noIdentifier noMember =>
      rw [Expression.rootIdentifier?.eq_3 _ noIdentifier noMember] at isRoot
      cases isRoot

theorem receiverType?_narrow {target : Expression}
    (narrows : narrow.Narrows wide target.identifiers) :
    narrow.receiverType? target = wide.receiverType? target := by
  unfold Context.receiverType?
  split
  · rename_i root path isRoot isPath
    rw [narrows.lookups root (mem_identifiers_of_rootIdentifier? isRoot),
      uniqueType?_narrow narrows]
  · rfl

/-- A type that the expression itself names is seen in both contexts or in none, or it is
hidden. -/
theorem restricts_visible (narrows : narrow.Narrows wide names) {whole : Expression}
    {type : TypeId} (isNamed : wide.namedBy? whole = some type) (span : Span) :
    Restricts (narrow.Hides wide whole) (narrow.visible type span) (wide.visible type span) := by
  unfold Context.visible
  cases missing : narrow.missingAssembly? type with
  | none =>
      have seen := narrows.sees type (Context.missingAssembly?_eq_none_iff.mp missing)
      rw [Context.missingAssembly?_eq_none_iff.mpr seen]
      exact .same
  | some assembly =>
      by_cases same : wide.missingAssembly? type = some assembly
      · rw [same]
        exact .same
      · exact .hidden (.intro span .root isNamed missing same)

theorem restricts_resolve (narrows : narrow.Narrows wide names) {whole : Expression}
    {named : TypeName} (isNamed : wide.namedBy? whole = wide.uniqueType? named.name) :
    Restricts (narrow.Hides wide whole) (narrow.resolve named) (wide.resolve named) := by
  unfold Context.resolve
  rw [narrows.candidates]
  split
  · exact .same
  · rename_i type single
    refine restricts_visible narrows (isNamed.trans ?_) named.span
    rw [Context.uniqueType?, single]
  · exact .same

theorem restricts_receiverOf {whole target : Expression}
    (narrows : narrow.Narrows wide target.identifiers)
    (isNamed : wide.namedBy? whole = wide.receiverType? target)
    {first second : Unit → Result Tree}
    (value : wide.receiverType? target = none →
      Restricts (narrow.Hides wide whole) (first ()) (second ())) :
    Restricts (narrow.Hides wide whole) (receiverOf narrow target first)
      (receiverOf wide target second) := by
  unfold receiverOf
  rw [receiverType?_narrow narrows]
  cases isType : wide.receiverType? target with
  | some type => exact (restricts_visible narrows (isNamed.trans isType) target.span).map
  | none => exact (value isType).map

theorem bindIdentifier_narrow {name : String} (narrows : narrow.Narrows wide [name])
    (span : Span) : bindIdentifier narrow name span = bindIdentifier wide name span := by
  unfold bindIdentifier
  rw [narrows.lookups name (List.mem_singleton_self _), uniqueType?_narrow narrows]

end Parts

/-! ## Whole expressions -/

mutual

/-- **A narrow context binds what a wide one binds, or stops at a type that it hides.** -/
theorem bind_restricted {narrow wide : Context} (expression : Expression)
    (narrows : narrow.Narrows wide expression.identifiers) :
    Restricts (narrow.Hides wide expression) (bind narrow expression) (bind wide expression) := by
  -- all nodes but identifiers and names of types depend on the types only
  obtain ⟨catalog, environment, assemblies, namespaces⟩ := narrow
  obtain ⟨other, _, _, _⟩ := wide
  obtain rfl : catalog = other := narrows.catalog
  cases expression with
  | literal value span => exact .same
  | identifier name span =>
      rw [bind, bind]
      exact .of_eq (bindIdentifier_narrow narrows span)
  | member target name span =>
      rw [Expression.identifiers] at narrows
      rw [bind, bind]
      refine (restricts_receiverOf narrows rfl fun isValue => ?_).bind fun receiver => .same
      exact (bind_restricted target narrows).of_part (Context.mem_receiverParts_self isValue)
  | methodCall target name arguments span =>
      rw [Expression.identifiers] at narrows
      have before := narrows.mono (List.subset_append_left _ _)
      have behind := narrows.mono (List.subset_append_right _ _)
      rw [bind, bind]
      refine (restricts_receiverOf before rfl fun isValue => ?_).bind fun receiver => ?_
      · exact (bind_restricted target before).of_part
          (List.mem_append_left _ (Context.mem_receiverParts_self isValue))
      · refine Restricts.bind (bindAll_restricted arguments behind ?_) fun trees => .same
        exact fun argument => List.mem_append_right _
  | index target arguments span =>
      rw [Expression.identifiers] at narrows
      have before := narrows.mono (List.subset_append_left _ _)
      have behind := narrows.mono (List.subset_append_right _ _)
      rw [bind, bind]
      refine ((bind_restricted target before).of_part List.mem_cons_self).bind fun indexed => ?_
      refine Restricts.bind (bindAll_restricted arguments behind ?_) fun trees => .same
      exact fun argument => List.mem_cons_of_mem _
  | create type arguments span =>
      rw [bind, bind]
      refine (restricts_resolve narrows rfl).bind fun created => ?_
      exact (bindAll_restricted arguments narrows fun argument => id).bind fun trees => .same
  | createArray element items span =>
      rw [bind, bind]
      refine (restricts_resolve narrows rfl).bind fun type => ?_
      refine Restricts.bind .same fun array => ?_
      exact (bindItems_restricted items type narrows fun item => id).bind fun trees => .same
  | typeOf type span =>
      rw [bind, bind]
      exact (restricts_resolve narrows rfl).bind fun found => .same
  | typeIs operand type span =>
      rw [bind, bind]
      refine ((bind_restricted operand narrows).of_part List.mem_cons_self).bind fun tested => ?_
      exact (restricts_resolve narrows rfl).bind fun found => .same
  | typeAs operand type span =>
      rw [bind, bind]
      refine ((bind_restricted operand narrows).of_part List.mem_cons_self).bind fun below => ?_
      exact (restricts_resolve narrows rfl).bind fun found => .same
  | unary operator operand span =>
      rw [bind, bind]
      exact ((bind_restricted operand narrows).of_part List.mem_cons_self).bind fun below => .same
  | binary operator left right span =>
      rw [Expression.identifiers] at narrows
      have first := bind_restricted left (narrows.mono (List.subset_append_left _ _))
      have second := bind_restricted right (narrows.mono (List.subset_append_right _ _))
      rw [bind, bind]
      refine (first.of_part List.mem_cons_self).bind fun leftTree => ?_
      exact (second.of_part (List.mem_cons_of_mem _ List.mem_cons_self)).bind fun rightTree => .same
  | conditional test ifTrue ifFalse span =>
      rw [Expression.identifiers] at narrows
      have early := narrows.mono (List.subset_append_left _ _)
      have first := bind_restricted test (early.mono (List.subset_append_left _ _))
      have second := bind_restricted ifTrue (early.mono (List.subset_append_right _ _))
      have third := bind_restricted ifFalse (narrows.mono (List.subset_append_right _ _))
      rw [bind, bind]
      refine (first.of_part List.mem_cons_self).bind fun truth => ?_
      refine Restricts.bind .same fun converted => ?_
      refine (second.of_part (List.mem_cons_of_mem _ List.mem_cons_self)).bind fun one => ?_
      exact (third.of_part (List.mem_cons_of_mem _ (List.mem_cons_of_mem _
        List.mem_cons_self))).bind fun two => .same
  | assign target value span =>
      rw [Expression.identifiers] at narrows
      have first := bind_restricted target (narrows.mono (List.subset_append_left _ _))
      have second := bind_restricted value (narrows.mono (List.subset_append_right _ _))
      rw [bind, bind]
      refine (first.of_part List.mem_cons_self).bind fun assigned => ?_
      exact (second.of_part (List.mem_cons_of_mem _ List.mem_cons_self)).bind fun given => .same

theorem bindAll_restricted {narrow wide : Context} (expressions : List Expression)
    {whole : Expression}
    (narrows : narrow.Narrows wide (allIdentifiers expressions))
    (areParts : ∀ expression ∈ expressions, expression ∈ wide.valueParts whole) :
    Restricts (narrow.Hides wide whole) (bindAll narrow expressions)
      (bindAll wide expressions) := by
  cases expressions with
  | nil => exact .same
  | cons expression rest =>
      obtain ⟨isPart, restParts⟩ := List.forall_mem_cons.mp areParts
      rw [allIdentifiers] at narrows
      have first := bind_restricted expression (narrows.mono (List.subset_append_left _ _))
      rw [bindAll, bindAll]
      refine (first.of_part isPart).bind fun tree => ?_
      exact (bindAll_restricted rest (narrows.mono (List.subset_append_right _ _))
        restParts).bind fun others => .same

theorem bindItems_restricted {narrow wide : Context} (items : List Expression) (element : TypeId)
    {whole : Expression}
    (narrows : narrow.Narrows wide (allIdentifiers items))
    (areParts : ∀ item ∈ items, item ∈ wide.valueParts whole) :
    Restricts (narrow.Hides wide whole) (bindItems narrow element items)
      (bindItems wide element items) := by
  cases items with
  | nil => exact .same
  | cons item rest =>
      obtain ⟨isPart, restParts⟩ := List.forall_mem_cons.mp areParts
      rw [allIdentifiers] at narrows
      have first := bind_restricted item (narrows.mono (List.subset_append_left _ _))
      rw [bindItems, bindItems, narrows.catalog]
      refine (first.of_part isPart).bind fun tree => ?_
      refine Restricts.bind .same fun converted => ?_
      exact (bindItems_restricted rest element (narrows.mono (List.subset_append_right _ _))
        restParts).bind fun others => .same

end

/-! ## Compiled expressions -/

section Compiled

variable {narrow wide : Context} {expression : Expression}
  (narrows : narrow.Narrows wide expression.identifiers)
include narrows

theorem capturedVariables_narrow :
    capturedVariables narrow.environment expression =
      capturedVariables wide.environment expression := by
  unfold capturedVariables
  refine List.filterMap_congr fun name isMentioned => ?_
  rw [narrows.lookups name (mem_distinct.mp isMentioned)]

theorem compile_restricted :
    Restricts (narrow.Hides wide expression) (compile narrow expression)
      (compile wide expression) := by
  rw [compile, compile, capturedVariables_narrow narrows]
  exact (bind_restricted expression narrows).bind fun body => .same

end Compiled

/-! ## Types that are seen -/

section Seen

variable {context : Context}

theorem sees_of_resolve {named : TypeName} {type found : TypeId}
    (done : context.resolve named = .ok found)
    (isNamed : context.uniqueType? named.name = some type) : context.Sees type := by
  obtain ⟨unique, visible⟩ := Context.resolve_eq_ok_iff.mp done
  obtain rfl := Option.some.inj (unique.symm.trans isNamed)
  exact Context.missingAssembly?_eq_none_iff.mp visible

theorem BindsReceiver.sees {target : Expression} {receiver : Receiver}
    (before : BindsReceiver context target receiver) {type : TypeId}
    (isNamed : context.receiverType? target = some type) : context.Sees type := by
  cases before with
  | type isType visible =>
      obtain rfl := Option.some.inj (isType.symm.trans isNamed)
      exact Context.missingAssembly?_eq_none_iff.mp visible
  | value isValue => cases isValue.symm.trans isNamed

/-- What an expression that is bound names itself is seen. -/
theorem Binds.sees {expression : Expression} {tree : Tree}
    (binds : Binds context expression tree) {type : TypeId}
    (isNamed : context.namedBy? expression = some type) : context.Sees type := by
  cases binds with
  | member before | methodCall before => exact before.sees isNamed
  | create resolved | createArray resolved | typeOf resolved | typeIs _ resolved
  | typeAs _ resolved => exact sees_of_resolve resolved isNamed
  | _ => cases isNamed

/-- **In an expression that is bound all that is named is seen.** -/
theorem sees_of_evaluates {part whole : Expression} (evaluates : context.Evaluates part whole)
    {tree : Tree} (bound : bind context whole = .ok tree) {type : TypeId}
    (isNamed : context.namedBy? part = some type) : context.Sees type := by
  induction evaluates generalizing tree with
  | root => exact (binds_of_bind bound).sees isNamed
  | inPart isPart inside ih =>
      obtain ⟨trees, boundParts⟩ := (binds_of_bind bound).exists_boundAll
      obtain ⟨child, _, boundChild⟩ := exists_of_mem_written boundParts isPart
      exact ih boundChild

end Seen

end ExprImports.Binding
