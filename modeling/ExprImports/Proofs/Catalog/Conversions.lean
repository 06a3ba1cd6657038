import ExprImports.Binding.Conversion
import ExprImports.Proofs.Catalog.Ancestors

/-!
# The order of conversions

A type is converted to another one without being asked for if it widens to it, which only core
types of numbers do, or if it is assignable to it. In every catalog that is reached by operations
a conversion leads from each type to itself and to `System.Object`, no two types are converted to
each other, and a type is assignable to `System.Object` and to what it can be viewed as, to nothing
else.

**Two conversions in a row** are one conversion, with one exception: a type that is viewed as a
number of another type does not inherit what that number widens to (`InheritsWidening`,
`conversion_order`). Types may have a number as their base type, so the exception occurs
(`not_transitive_ages`).
-/

set_option autoImplicit false

namespace ExprImports.Catalog

/-! ## Views -/

section Ordered

variable {catalog : Catalog} {lower upper source target : TypeId} (ordered : catalog.Ordered)
include ordered

/-- A type is viewed as older ones. -/
theorem Ordered.height_le_of_isViewedAs (isView : catalog.IsViewedAs lower upper) :
    upper.height ≤ lower.height := by
  induction isView with
  | refl => exact Nat.le_refl _
  | tail _ isParent ih =>
      exact Nat.le_trans (Nat.le_of_lt (ordered.part_lt (isPartOf_of_mem_parents isParent))) ih

/-- **No two types are viewed as each other.** -/
theorem Ordered.eq_of_isViewedAs (forth : catalog.IsViewedAs lower upper)
    (back : catalog.IsViewedAs upper lower) : lower = upper := by
  rcases Relation.ReflTransGen.cases_head forth with same | ⟨parent, isParent, further⟩
  · exact same
  · have older := ordered.part_lt (isPartOf_of_mem_parents isParent)
    have below := ordered.height_le_of_isViewedAs further
    have above := ordered.height_le_of_isViewedAs back
    omega

/-- **What a type is assignable to.** -/
theorem Ordered.isAssignable_iff :
    catalog.isAssignable source target = true ↔
      target = CoreType.object ∨ catalog.IsViewedAs source target := by
  simp only [isAssignable, Bool.or_eq_true, decide_eq_true_eq, mem_supertypes_iff ordered]
  constructor
  · rintro ((rfl | isObject) | isView)
    · exact .inr .refl
    · exact .inl isObject
    · exact .inr isView
  · rintro (isObject | isView)
    · exact .inl (.inr isObject)
    · exact .inr isView

end Ordered

/-! ## Core types -/

theorem Extends.parents_eq {later earlier : Catalog} (extended : later.Extends earlier)
    {type : TypeId} (known : earlier.has type = true) :
    later.parents type = earlier.parents type := by
  obtain ⟨entry, found⟩ := Option.isSome_iff_exists.mp known
  obtain ⟨grown, still, more⟩ := extended.types type entry found
  simp only [parents, interfaces, base?, found, still, Option.map_some, Option.getD_some,
    Option.bind_some, more.interfaces, more.base]

/-- The parents of every core type of numbers. -/
def numberParents : List TypeId :=
  [CoreType.comparable, CoreType.convertible, CoreType.valueType]

theorem parents_initial :
    (initial.has CoreType.object = true ∧ initial.parents CoreType.object = []) ∧
      ∀ number ∈ [CoreType.int32, CoreType.int64, CoreType.double],
        initial.has number = true ∧ initial.parents number = numberParents := by
  decide +kernel

theorem mem_numbers_iff {number : TypeId} :
    number ∈ [CoreType.int32, CoreType.int64, CoreType.double] ↔ number.isNumeric = true := by
  simp only [List.mem_cons, List.not_mem_nil, or_false, TypeId.isNumeric, Bool.or_eq_true,
    decide_eq_true_eq, or_assoc]

/-- A number widens to another number. -/
theorem isNumeric_of_widensTo {source target : TypeId} (wider : source.widensTo target = true) :
    source.isNumeric = true ∧ target.isNumeric = true := by
  simp only [TypeId.widensTo, Bool.or_eq_true, Bool.and_eq_true, decide_eq_true_eq] at wider
  rcases wider with ⟨rfl, rfl | rfl⟩ | ⟨rfl, rfl⟩ <;> exact ⟨rfl, rfl⟩

theorem widensTo_trans {first second third : TypeId} (narrow : first.widensTo second = true)
    (wide : second.widensTo third = true) : first.widensTo third = true := by
  simp only [TypeId.widensTo, Bool.or_eq_true, Bool.and_eq_true, decide_eq_true_eq] at narrow wide ⊢
  rcases narrow with ⟨rfl, rfl | rfl⟩ | ⟨rfl, rfl⟩
  · rcases wide with ⟨same, _⟩ | ⟨_, rfl⟩
    · cases same
    · exact .inl ⟨rfl, .inr rfl⟩
  · rcases wide with ⟨same, _⟩ | ⟨same, _⟩ <;> cases same
  · rcases wide with ⟨same, _⟩ | ⟨same, _⟩ <;> cases same

theorem not_widensTo_back {source target : TypeId} (wider : source.widensTo target = true) :
    target.widensTo source = false ∧ source ≠ target := by
  simp only [TypeId.widensTo, Bool.or_eq_true, Bool.and_eq_true, decide_eq_true_eq] at wider
  rcases wider with ⟨rfl, rfl | rfl⟩ | ⟨rfl, rfl⟩ <;> decide

theorem converts_iff {catalog : Catalog} {source target : TypeId} :
    catalog.converts source target = true ↔
      source.widensTo target = true ∨ catalog.isAssignable source target = true :=
  Bool.or_eq_true_iff

/-- The first type is viewed as the second one, a number of another type, which widens to the
third one. The first type is not viewed as that one. -/
structure InheritsWidening (catalog : Catalog) (first second third : TypeId) : Prop where
  other : first ≠ second
  viewed : catalog.IsViewedAs first second
  wider : second.widensTo third = true
  apart : ¬ catalog.IsViewedAs first third

section Reached

variable {catalog : Catalog} {first second third source target number upper : TypeId}
  (reached : catalog.Reached)
include reached

/-- Nothing is above `System.Object`. -/
theorem Reached.eq_object_of_isViewedAs (isView : catalog.IsViewedAs CoreType.object upper) :
    upper = CoreType.object := by
  obtain ⟨known, isEmpty⟩ := parents_initial.1
  rcases Relation.ReflTransGen.cases_head isView with same | ⟨parent, isParent, _⟩
  · exact same.symm
  · rw [reached.steps.extends.parents_eq known, isEmpty] at isParent
    exact absurd isParent List.not_mem_nil

theorem Reached.parents_of_isNumeric (numeric : number.isNumeric = true) :
    catalog.parents number = numberParents := by
  obtain ⟨known, areParents⟩ := parents_initial.2 number (mem_numbers_iff.mpr numeric)
  rw [reached.steps.extends.parents_eq known, areParents]

/-- A number is viewed as no other number. -/
theorem Reached.eq_of_isViewedAs_isNumeric (numeric : source.isNumeric = true)
    (targetNumeric : target.isNumeric = true) (isView : catalog.IsViewedAs source target) :
    source = target := by
  rcases Relation.ReflTransGen.cases_head isView with same | ⟨parent, isParent, further⟩
  · exact same
  · rw [reached.parents_of_isNumeric numeric] at isParent
    have parentLow : ∀ parent ∈ numberParents, parent.height ≤ CoreType.valueType.height := by
      decide
    have numberHigh : ∀ number ∈ [CoreType.int32, CoreType.int64, CoreType.double],
        CoreType.valueType.height < number.height := by
      decide
    -- a view of a parent is as old as the parent, and no number is
    have below := reached.ordered.height_le_of_isViewedAs further
    have low := parentLow parent isParent
    have high := numberHigh target (mem_numbers_iff.mpr targetNumeric)
    omega

/-- **A number is converted to all that a number it widens to is converted to.** The parents of
all numbers are the same. -/
theorem Reached.converts_of_widensTo (wider : first.widensTo second = true)
    (converts : catalog.converts second third = true) : catalog.converts first third = true := by
  obtain ⟨firstNumeric, secondNumeric⟩ := isNumeric_of_widensTo wider
  rw [converts_iff, reached.ordered.isAssignable_iff] at converts ⊢
  rcases converts with wide | isObject | isView
  · exact .inl (widensTo_trans wider wide)
  · exact .inr (.inl isObject)
  · rcases Relation.ReflTransGen.cases_head isView with rfl | ⟨parent, isParent, further⟩
    · exact .inl wider
    · rw [reached.parents_of_isNumeric secondNumeric,
        ← reached.parents_of_isNumeric firstNumeric] at isParent
      exact .inr (.inr (.head isParent further))

theorem Reached.isAssignable_trans (lower : catalog.isAssignable first second = true)
    (higher : catalog.isAssignable second third = true) :
    catalog.isAssignable first third = true := by
  rw [reached.ordered.isAssignable_iff] at lower higher ⊢
  rcases higher with isObject | further
  · exact .inl isObject
  · rcases lower with rfl | isView
    · exact .inl (reached.eq_object_of_isViewedAs further)
    · exact .inr (isView.trans further)

/-- **No two types are converted to each other.** -/
theorem Reached.eq_of_converts (forth : catalog.converts source target = true)
    (back : catalog.converts target source = true) : source = target := by
  have oneWay {narrow wide : TypeId} (wider : narrow.widensTo wide = true)
      (back : catalog.converts wide narrow = true) : narrow = wide := by
    obtain ⟨narrowNumeric, wideNumeric⟩ := isNumeric_of_widensTo wider
    rw [converts_iff, reached.ordered.isAssignable_iff, (not_widensTo_back wider).1] at back
    rcases back with impossible | rfl | isView
    · cases impossible
    · cases narrowNumeric
    · exact (reached.eq_of_isViewedAs_isNumeric wideNumeric narrowNumeric isView).symm
  rcases converts_iff.mp forth with wider | assignable
  · exact oneWay wider back
  rcases converts_iff.mp back with wider | assignableBack
  · exact (oneWay wider forth).symm
  rw [reached.ordered.isAssignable_iff] at assignable assignableBack
  rcases assignable with rfl | isView
  · rcases assignableBack with rfl | isViewBack
    · rfl
    · exact reached.eq_object_of_isViewedAs isViewBack
  · rcases assignableBack with rfl | isViewBack
    · exact (reached.eq_object_of_isViewedAs isView).symm
    · exact reached.ordered.eq_of_isViewedAs isView isViewBack

/-- What widens by inheritance only is not converted. -/
theorem Reached.not_converts_of_inheritsWidening
    (inherits : catalog.InheritsWidening first second third) :
    catalog.converts first third = false := by
  obtain ⟨secondNumeric, thirdNumeric⟩ := isNumeric_of_widensTo inherits.wider
  rw [← Bool.not_eq_true, converts_iff, reached.ordered.isAssignable_iff]
  rintro (wider | rfl | isView)
  · obtain ⟨firstNumeric, _⟩ := isNumeric_of_widensTo wider
    exact inherits.other
      (reached.eq_of_isViewedAs_isNumeric firstNumeric secondNumeric inherits.viewed)
  · cases thirdNumeric
  · exact inherits.apart isView

/-- **Two conversions in a row** are one, unless widening would have to be inherited. -/
theorem Reached.converts_trans_iff (lower : catalog.converts first second = true)
    (higher : catalog.converts second third = true) :
    catalog.converts first third = true ↔ ¬ catalog.InheritsWidening first second third := by
  constructor
  · intro converts inherits
    rw [reached.not_converts_of_inheritsWidening inherits] at converts
    cases converts
  · intro noDetour
    rcases converts_iff.mp lower with wider | assignable
    · exact reached.converts_of_widensTo wider higher
    rcases converts_iff.mp higher with wider | further
    · rcases reached.ordered.isAssignable_iff.mp assignable with rfl | isView
      · cases (isNumeric_of_widensTo wider).1
      · by_cases same : first = second
        · exact same ▸ higher
        · refine converts_iff.mpr (.inr (reached.ordered.isAssignable_iff.mpr (.inr ?_)))
          by_contra apart
          exact noDetour ⟨same, isView, wider, apart⟩
    · exact converts_iff.mpr (.inr (reached.isAssignable_trans assignable further))

/-- **The order of conversions.** It has a greatest type, no two types are converted to each
other, and only the widening of an inherited number breaks a chain of conversions. -/
theorem conversion_order :
    (∀ type, catalog.converts type type = true) ∧
      (∀ source target, catalog.converts source target = true →
        catalog.converts target source = true → source = target) ∧
      (∀ type, catalog.converts type CoreType.object = true) ∧
      (∀ source target, catalog.isAssignable source target = true ↔
        target = CoreType.object ∨ catalog.IsViewedAs source target) ∧
      ∀ first second third, catalog.converts first second = true →
        catalog.converts second third = true →
          (catalog.converts first third = true ↔
            ¬ catalog.InheritsWidening first second third) := by
  refine ⟨fun type => ?_, fun _ _ => reached.eq_of_converts, fun type => ?_,
    fun _ _ => reached.ordered.isAssignable_iff, fun _ _ _ => reached.converts_trans_iff⟩
  · exact converts_iff.mpr (.inr (reached.ordered.isAssignable_iff.mpr (.inr .refl)))
  · exact converts_iff.mpr (.inr (reached.ordered.isAssignable_iff.mpr (.inl rfl)))

end Reached

/-! ## Ages -/

namespace Ages

/-- The structure `Contoso.Crm.Age`, whose base type is `System.Int32`. -/
def age : TypeId := .entry 16

def ages : Catalog :=
  let assembled := (initial.defineAssembly { name := "Contoso.Crm" } false).2
  (assembled.define
    { name := "Age", namespaceName := "Contoso.Crm", assembly := .entry 1, kind := .structType
      base := some CoreType.int32 }).2

theorem built_ages : ages.Built :=
  .define (.defineAssembly .initial _ _) _ (by decide +kernel)

end Ages

/-- An age is converted to an integer, and that to a long one, but an age is not converted to a
long integer. -/
theorem not_transitive_ages :
    Ages.ages.Reached ∧
      ¬ ∀ first second third, Ages.ages.converts first second = true →
        Ages.ages.converts second third = true → Ages.ages.converts first third = true := by
  refine ⟨Ages.built_ages.reached, fun transitive => ?_⟩
  have broken := transitive Ages.age CoreType.int32 CoreType.int64
  revert broken
  decide +kernel

theorem conversion_order_ages :
    Ages.ages.Reached ∧ Ages.ages.converts Ages.age CoreType.int32 = true ∧
      Ages.ages.converts CoreType.int32 CoreType.int64 = true ∧
      Ages.ages.InheritsWidening Ages.age CoreType.int32 CoreType.int64 := by
  have reached := Ages.built_ages.reached
  obtain ⟨_, _, _, _, chain⟩ := conversion_order reached
  have lower : Ages.ages.converts Ages.age CoreType.int32 = true := by decide +kernel
  have higher : Ages.ages.converts CoreType.int32 CoreType.int64 = true := by decide +kernel
  have apart : ¬ Ages.ages.converts Ages.age CoreType.int64 = true := by decide +kernel
  refine ⟨reached, lower, higher, ?_⟩
  by_contra noDetour
  exact apart ((chain _ _ _ lower higher).mpr noDetour)

end ExprImports.Catalog
