import ExprImports.Proofs.Binding.Typing
import ExprImports.Proofs.Outcomes

/-!
# Conversions yield well-typed trees

A conversion that succeeds gives a tree of the type that was asked for, and adds only
nodes that obey their rules. The common type of two numbers is one of their types, and
the other one is equal to it or widens to it.
-/

set_option autoImplicit false

namespace ExprImports

/-! ## When a conversion succeeds -/

/-- When a tree can be used as one of a type. -/
theorem Tree.exists_convert?_iff {catalog : Catalog} {tree : Tree} {target : TypeId} :
    (∃ converted, tree.convert? catalog target = some converted) ↔
      tree.type = target ∨ (tree.isNull = true ∧ catalog.isValueType target = false) ∨
        tree.type.widensTo target = true ∨ catalog.isAssignable tree.type target = true := by
  unfold convert?
  rw [← Bool.or_eq_true_iff, ← Catalog.converts, ← Bool.not_eq_true', ← Bool.and_eq_true]
  by_cases same : tree.type = target
  · simp [same]
  · by_cases null : (tree.isNull && !catalog.isValueType target) = true
    · simp [same, null]
    · by_cases converts : catalog.converts tree.type target = true
      · simp [same, null, converts]
      · simp [same, null, converts]

/-- A null is used as a string, and as no number. -/
example :
    ((Tree.constant .null CoreType.object).convert? Catalog.initial CoreType.string).isSome = true ∧
      (Tree.constant .null CoreType.object).convert? Catalog.initial CoreType.int32 = none := by
  decide +kernel

theorem Tree.type_of_convert? {catalog : Catalog} {tree converted : Tree} {target : TypeId}
    (done : tree.convert? catalog target = some converted) : converted.type = target := by
  unfold convert? at done
  split at done
  · rename_i same
    cases done
    exact same
  · split at done
    · cases done
      rfl
    · split at done
      · cases done
        rfl
      · cases done

namespace Binding

variable {context : Context}

/-! ## Conversions -/

/-- A tree of the given type, well typed apart from static indexed properties. -/
structure IsTyped (context : Context) (type : TypeId) (tree : Tree) : Prop where
  type : tree.type = type
  sound : tree.WellTypedButIndexers context

theorem isTyped_of_convert? {tree converted : Tree} {target : TypeId}
    (sound : tree.WellTypedButIndexers context)
    (done : tree.convert? context.catalog target = some converted) :
    IsTyped context target converted := by
  unfold Tree.convert? at done
  split at done
  · rename_i same
    cases done
    exact ⟨same, sound⟩
  · rename_i different
    split at done
    · rename_i null
      cases done
      rw [Bool.and_eq_true, Bool.not_eq_true'] at null
      exact ⟨rfl, Tree.wellTypedButIndexers_leaf rfl (.null null.2) trivial⟩
    · split at done
      · rename_i converts
        cases done
        refine ⟨rfl, Tree.wellTypedButIndexers_above rfl ?_ trivial sound⟩
        rcases Bool.or_eq_true_iff.mp converts with wider | assignable
        · exact .widening wider
        · exact .upcast different assignable
      · cases done

theorem coerce_eq_ok_iff {catalog : Catalog} {tree converted : Tree} {target : TypeId}
    {span : Span} : coerce catalog tree target span = .ok converted ↔
      tree.convert? catalog target = some converted := by
  unfold coerce
  cases tree.convert? catalog target <;> simp [fail]

theorem isTyped_of_coerce {tree converted : Tree} {target : TypeId} {span : Span}
    (sound : tree.WellTypedButIndexers context)
    (done : coerce context.catalog tree target span = .ok converted) :
    IsTyped context target converted :=
  isTyped_of_convert? sound (coerce_eq_ok_iff.mp done)

/-- Arguments that are converted to the types of parameters. -/
structure AreTyped (context : Context) (types : List TypeId) (trees : List Tree) : Prop where
  types : trees.map Tree.type = types
  sound : ∀ tree ∈ trees, tree.WellTypedButIndexers context

theorem areTyped_nil : AreTyped context [] [] :=
  ⟨rfl, fun _ inside => absurd inside List.not_mem_nil⟩

theorem AreTyped.cons {type : TypeId} {types : List TypeId} {tree : Tree} {trees : List Tree}
    (first : IsTyped context type tree) (others : AreTyped context types trees) :
    AreTyped context (type :: types) (tree :: trees) := by
  constructor
  · rw [List.map_cons, first.type, others.types]
  · intro other inside
    rcases List.mem_cons.mp inside with rfl | inside
    · exact first.sound
    · exact others.sound other inside

theorem areTyped_of_convertAll? {arguments converted : List Tree} {parameters : List TypeId}
    (sound : ∀ argument ∈ arguments, argument.WellTypedButIndexers context)
    (done : context.catalog.convertAll? arguments parameters = some converted) :
    AreTyped context parameters converted := by
  induction arguments generalizing parameters converted with
  | nil =>
      cases parameters with
      | nil =>
          cases done
          exact areTyped_nil
      | cons parameter parameters => cases done
  | cons argument arguments ih =>
      cases parameters with
      | nil => cases done
      | cons parameter parameters =>
          rw [Catalog.convertAll?] at done
          split at done
          · cases done
          · rename_i first found
            obtain ⟨others, rest, rfl⟩ := Option.map_eq_some_iff.mp done
            refine .cons (isTyped_of_convert? (sound argument List.mem_cons_self) found) ?_
            exact ih (fun other inside => sound other (List.mem_cons_of_mem _ inside)) rest

theorem areTyped_of_coerceEach {target : TypeId} {trees : List (Tree × Span)}
    {converted : List Tree} (sound : ∀ tree ∈ trees, tree.1.WellTypedButIndexers context)
    (done : coerceEach context.catalog target trees = .ok converted) :
    ∀ tree ∈ converted, IsTyped context target tree := by
  induction trees generalizing converted with
  | nil =>
      cases done
      exact fun _ inside => absurd inside List.not_mem_nil
  | cons pair rest ih =>
      obtain ⟨tree, span⟩ := pair
      obtain ⟨first, found, done⟩ := exists_of_bind_eq_ok done
      obtain ⟨others, further, done⟩ := exists_of_bind_eq_ok done
      cases done
      intro other inside
      rcases List.mem_cons.mp inside with rfl | inside
      · exact isTyped_of_coerce (sound (tree, span) List.mem_cons_self) found
      · have soundRest := fun pair inside => sound pair (List.mem_cons_of_mem _ inside)
        exact ih soundRest further other inside

/-! ## Numbers -/

/-- The common type of two numeric types is one that each is or widens to. -/
theorem commonNumeric?_spec {left right common : TypeId}
    (found : left.commonNumeric? right = some common) :
    common.isNumeric = true ∧ (left = common ∨ left.widensTo common = true) ∧
      (right = common ∨ right.widensTo common = true) := by
  unfold TypeId.commonNumeric? at found
  split at found
  · rename_i numeric
    cases found
    simp only [TypeId.isNumeric, Bool.and_eq_true, Bool.or_eq_true, decide_eq_true_eq] at numeric
    obtain ⟨first, second⟩ := numeric
    rcases first with (rfl | rfl) | rfl <;> rcases second with (rfl | rfl) | rfl <;> decide
  · cases found

theorem isTyped_widen {tree : Tree} {target : TypeId} (sound : tree.WellTypedButIndexers context)
    (wider : tree.type = target ∨ tree.type.widensTo target = true) :
    IsTyped context target (tree.widen target) := by
  unfold Tree.widen
  split
  · rename_i same
    exact ⟨same, sound⟩
  · rename_i different
    have widened : Obeys context (.convert .convert tree target) :=
      .widening (wider.resolve_left different)
    exact ⟨rfl, Tree.wellTypedButIndexers_above rfl widened trivial sound⟩

end Binding

end ExprImports
