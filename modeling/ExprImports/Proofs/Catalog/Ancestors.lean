import ExprImports.Catalog.Hierarchy
import ExprImports.Proofs.Catalog.Growth
import Mathlib.Order.WellFounded

/-!
# What a type is made of, and what stands above it

In a catalog of which every type is made of older ones there is no way from a type down to its
parts, to their parts and so on that goes on for ever, nor one that leads back to the type
(`Ordered.wellFounded`, `Ordered.acyclic`).

**Views.** A type can be viewed as what is reached from it over interfaces and base types. The
sweep from the newest type to the oldest one finds exactly that (`mem_supertypes_iff`), since
whatever can be reached from a type is found before the sweep comes to it.
-/

set_option autoImplicit false

namespace ExprImports.Catalog

/-- Interfaces and base types lead from the first type to the second one. -/
def IsViewedAs (catalog : Catalog) : TypeId → TypeId → Prop :=
  Relation.ReflTransGen fun lower upper => upper ∈ catalog.parents lower

variable {catalog : Catalog}

theorem isPartOf_of_mem_parents {type parent : TypeId} (isParent : parent ∈ catalog.parents type) :
    catalog.IsPartOf parent type := by
  rcases List.mem_append.mp isParent with interface | base
  · obtain ⟨entry, found, declared⟩ := exists_find?_of_mem_getD interface
    exact isPartOf_interface found declared
  · obtain ⟨entry, found, isBase⟩ := Option.bind_eq_some_iff.mp (Option.mem_toList.mp base)
    exact isPartOf_base found isBase

/-- The null type has nothing above it. -/
theorem parents_null : catalog.parents .null = [] := rfl

theorem eq_null_of_isViewedAs {type : TypeId} (isView : catalog.IsViewedAs .null type) :
    type = .null := by
  rcases Relation.ReflTransGen.cases_head isView with same | ⟨parent, isParent, _⟩
  · exact same.symm
  · rw [parents_null] at isParent
    exact absurd isParent List.not_mem_nil

theorem eq_null_of_height_le {type : TypeId} (bounded : type.height ≤ 0) : type = .null := by
  cases type with
  | null => rfl
  | entry position => exact absurd bounded (Nat.not_succ_le_zero position)

theorem height_le_of_ne {type : TypeId} {position : Nat} (bounded : type.height ≤ position + 1)
    (other : type ≠ .entry position) : type.height ≤ position := by
  cases type with
  | null => exact Nat.zero_le position
  | entry place =>
      have apart : place ≠ position := fun same => other (same ▸ rfl)
      rw [TypeId.height_entry] at bounded ⊢
      omega

section Ordered

variable (ordered : catalog.Ordered)
include ordered

/-- A part is the null type, or it was created earlier. -/
theorem Ordered.part_cases {position : Nat} {part : TypeId}
    (isPart : catalog.IsPartOf part (.entry position)) :
    part = .null ∨ ∃ earlier < position, part = .entry earlier := by
  have older := ordered.part_lt isPart
  cases part with
  | null => exact .inl rfl
  | entry earlier => exact .inr ⟨earlier, Nat.lt_of_succ_lt_succ older, rfl⟩

/-- **Nothing is made of parts of parts without end.** -/
theorem Ordered.wellFounded : WellFounded catalog.IsPartOf := by
  refine Subrelation.wf ?_ (InvImage.wf TypeId.height Nat.lt_wfRel.wf)
  intro part type isPart
  exact ordered.part_lt isPart

/-- **No type is made of itself.** -/
theorem Ordered.acyclic (type : TypeId) : ¬ Relation.TransGen catalog.IsPartOf type type := by
  intro cycle
  exact ordered.wellFounded.transGen.irrefl.irrefl type cycle

/-- The chain of base types without the comparison of ages. -/
theorem baseChain_eq (type : TypeId) :
    catalog.baseChain type =
      type :: (match catalog.base? type with
        | some base => catalog.baseChain base
        | none => []) := by
  rw [baseChain]
  cases isBase : catalog.base? type with
  | none => rfl
  | some base => simp only [if_pos (ordered.base_lt isBase)]

/-! ## Views -/

/-- The sweep finds what can be reached from the marked types below its bound. -/
theorem mem_sweep_iff {bound : Nat} {marked : List TypeId} {type : TypeId} :
    type ∈ catalog.sweep bound marked ↔
      ∃ lower ∈ marked, lower.height ≤ bound ∧ catalog.IsViewedAs lower type := by
  induction bound generalizing marked with
  | zero =>
      rw [sweep]
      constructor
      · intro swept
        split at swept
        · rename_i isMarked
          obtain rfl := List.mem_singleton.mp swept
          exact ⟨.null, isMarked, Nat.le_refl 0, .refl⟩
        · exact absurd swept List.not_mem_nil
      · rintro ⟨lower, isMarked, bounded, isView⟩
        obtain rfl := eq_null_of_height_le bounded
        rw [if_pos isMarked, eq_null_of_isViewedAs isView]
        exact List.mem_cons_self
  | succ position ih =>
      rw [sweep]
      split
      · rename_i isMarked
        rw [List.mem_append, ih, List.mem_singleton]
        constructor
        · rintro (⟨lower, inside, bounded, isView⟩ | rfl)
          · rcases List.mem_append.mp inside with isParent | wasMarked
            · exact ⟨.entry position, isMarked, Nat.le_refl _, .head isParent isView⟩
            · exact ⟨lower, wasMarked, Nat.le_succ_of_le bounded, isView⟩
          · exact ⟨.entry position, isMarked, Nat.le_refl _, .refl⟩
        · rintro ⟨lower, wasMarked, bounded, isView⟩
          by_cases here : lower = .entry position
          · subst here
            -- what is above the type is above one of its parents
            rcases Relation.ReflTransGen.cases_head isView with rfl | ⟨parent, isParent, further⟩
            · exact .inr rfl
            · have older := ordered.part_lt (isPartOf_of_mem_parents isParent)
              exact .inl ⟨parent, List.mem_append_left _ isParent, Nat.le_of_lt_succ older, further⟩
          · exact .inl ⟨lower, List.mem_append_right _ wasMarked,
              height_le_of_ne bounded here, isView⟩
      · rename_i notMarked
        rw [ih]
        constructor
        · rintro ⟨lower, wasMarked, bounded, isView⟩
          exact ⟨lower, wasMarked, Nat.le_succ_of_le bounded, isView⟩
        · rintro ⟨lower, wasMarked, bounded, isView⟩
          have other : lower ≠ .entry position := fun same => notMarked (same ▸ wasMarked)
          exact ⟨lower, wasMarked, height_le_of_ne bounded other, isView⟩

/-- **A type can be viewed as what interfaces and base types lead to.** -/
theorem mem_supertypes_iff {type other : TypeId} :
    other ∈ catalog.supertypes type ↔ catalog.IsViewedAs type other := by
  rw [supertypes, mem_sweep_iff ordered]
  constructor
  · rintro ⟨lower, isMarked, _, isView⟩
    obtain rfl := List.mem_singleton.mp isMarked
    exact isView
  · intro isView
    exact ⟨type, List.mem_singleton_self type, Nat.le_refl _, isView⟩

end Ordered

end ExprImports.Catalog
