/-!
# Lists without repetition

A collection that answers in order of first insertion is a list to which an
element is appended only if it is new. `distinct` inserts a whole list, so it
keeps the first occurrence of every element. Leaving out the repetitions of every
part of a list beforehand changes nothing (`distinct_flatMap_distinct`).
-/

set_option autoImplicit false

namespace ExprImports

variable {α : Type} [DecidableEq α]

/-- The list with an element at its end, unless the element is in it already. -/
def insertNew (elements : List α) (element : α) : List α :=
  if element ∈ elements then elements else elements ++ [element]

/-- The first occurrence of every element, in order. -/
def distinct (elements : List α) : List α :=
  elements.foldl insertNew []

@[simp] theorem mem_insertNew {elements : List α} {element x : α} :
    x ∈ insertNew elements element ↔ x ∈ elements ∨ x = element := by
  unfold insertNew
  split
  · rename_i present
    exact ⟨Or.inl, fun h => h.elim id fun same => same ▸ present⟩
  · simp

theorem nodup_insertNew {elements : List α} {element : α} (h : elements.Nodup) :
    (insertNew elements element).Nodup := by
  unfold insertNew
  split
  · exact h
  · rename_i absent
    refine List.nodup_append.mpr ⟨h, by simp, ?_⟩
    intro x inside y single
    simp only [List.mem_singleton] at single
    rintro rfl
    exact absent (single ▸ inside)

theorem mem_foldl_insertNew {elements collected : List α} {x : α} :
    x ∈ elements.foldl insertNew collected ↔ x ∈ collected ∨ x ∈ elements := by
  induction elements generalizing collected with
  | nil => simp
  | cons element rest ih => simp [ih, or_assoc]

@[simp] theorem mem_distinct {elements : List α} {x : α} :
    x ∈ distinct elements ↔ x ∈ elements := by
  simp [distinct, mem_foldl_insertNew]

theorem nodup_foldl_insertNew {elements collected : List α} (h : collected.Nodup) :
    (elements.foldl insertNew collected).Nodup := by
  induction elements generalizing collected with
  | nil => exact h
  | cons element rest ih => exact ih (nodup_insertNew h)

theorem nodup_distinct (elements : List α) : (distinct elements).Nodup :=
  nodup_foldl_insertNew List.nodup_nil

/-- A list without repetition is inserted as it stands. -/
theorem foldl_insertNew_of_nodup {elements collected : List α}
    (nodup : (collected ++ elements).Nodup) :
    elements.foldl insertNew collected = collected ++ elements := by
  induction elements generalizing collected with
  | nil => simp
  | cons element elements ih =>
    have absent : element ∉ collected := by
      intro inside
      exact (List.nodup_append.mp nodup).2.2 element inside element List.mem_cons_self rfl
    rw [List.foldl_cons, insertNew, if_neg absent, ih (by simpa using nodup),
      List.append_assoc, List.singleton_append]

theorem distinct_of_nodup {elements : List α} (nodup : elements.Nodup) :
    distinct elements = elements :=
  foldl_insertNew_of_nodup nodup

/-- Inserting what is there already changes nothing. -/
theorem foldl_insertNew_of_subset {elements collected : List α}
    (known : ∀ x ∈ elements, x ∈ collected) : elements.foldl insertNew collected = collected := by
  induction elements with
  | nil => rfl
  | cons element rest ih =>
    obtain ⟨here, later⟩ := List.forall_mem_cons.mp known
    rw [List.foldl_cons, insertNew, if_pos here]
    exact ih later

/-- Inserting a list into another and the result into a third one is inserting one
after the other. -/
theorem foldl_foldl_insertNew (elements between collected : List α) :
    (elements.foldl insertNew between).foldl insertNew collected =
      elements.foldl insertNew (between.foldl insertNew collected) := by
  induction elements generalizing between with
  | nil => rfl
  | cons element rest ih =>
    have single : (insertNew between element).foldl insertNew collected =
        insertNew (between.foldl insertNew collected) element := by
      by_cases present : element ∈ between
      · have kept : element ∈ between.foldl insertNew collected :=
          mem_foldl_insertNew.mpr (.inr present)
        rw [insertNew, if_pos present, insertNew, if_pos kept]
      · rw [insertNew, if_neg present, List.foldl_append, List.foldl_cons, List.foldl_nil]
    rw [List.foldl_cons, List.foldl_cons, ih, single]

theorem foldl_insertNew_distinct (elements collected : List α) :
    (distinct elements).foldl insertNew collected = elements.foldl insertNew collected :=
  foldl_foldl_insertNew elements [] collected

theorem distinct_flatMap_distinct {β : Type} (part : β → List α) (items : List β) :
    distinct (items.flatMap fun item => distinct (part item)) = distinct (items.flatMap part) := by
  have parts (collected : List α) :
      (items.flatMap fun item => distinct (part item)).foldl insertNew collected =
        (items.flatMap part).foldl insertNew collected := by
    induction items generalizing collected with
    | nil => rfl
    | cons item rest ih =>
      rw [List.flatMap_cons, List.flatMap_cons, List.foldl_append, List.foldl_append,
        foldl_insertNew_distinct, ih]
  exact parts []

end ExprImports
