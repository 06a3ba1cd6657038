import ExprImports.Text.Blank
import ExprImports.Text.Pieces
import Mathlib.Data.List.DropRight

/-!
# Trimming and cutting

A text is trimmed when no blank stands at either end of it. Trimming gives such a text and leaves
it as it is from then on (`isTrimmed_trimChars`, `IsTrimmed.trimChars_eq`). A text that is cut at a
separator falls into parts without it (`not_mem_of_mem_pieces`), and parts without it are what the
text that joins them is cut into (`pieces_join`).
-/

set_option autoImplicit false

namespace ExprImports.Text

variable {text front back : List Char}

/-! ## Trimming -/

/-- There are blank characters only. -/
def IsBlankText (text : List Char) : Prop :=
  ∀ c ∈ text, isBlank c = true

instance (text : List Char) : Decidable (IsBlankText text) :=
  decidable_of_iff (text.all isBlank = true) List.all_eq_true

theorem mem_of_mem_trimChars {c : Char} (inside : c ∈ trimChars text) : c ∈ text := by
  unfold trimChars trimEndChars trimStartChars at inside
  rw [List.mem_reverse] at inside
  have inStart := (List.dropWhile_sublist _).subset inside
  rw [List.mem_reverse] at inStart
  exact (List.dropWhile_sublist _).subset inStart

theorem trimChars_trimStartChars (text : List Char) :
    trimChars (trimStartChars text) = trimChars text := by
  unfold trimChars trimStartChars
  rw [List.dropWhile_idempotent]

/-- What stands before the first character that is not blank does not depend on what follows. -/
theorem trimStartChars_append (written : ¬ IsBlankText front) (back : List Char) :
    trimStartChars (front ++ back) = trimStartChars front ++ back := by
  have remains : front.dropWhile isBlank ≠ [] := by
    rw [ne_eq, List.dropWhile_eq_nil_iff]
    exact written
  unfold trimStartChars
  rw [List.dropWhile_append, if_neg]
  rwa [List.isEmpty_iff]

theorem trimEndChars_append (front : List Char) (blank : IsBlankText back) :
    trimEndChars (front ++ back) = trimEndChars front := by
  have blankBack : back.reverse.dropWhile isBlank = [] := by
    rw [List.dropWhile_eq_nil_iff]
    exact fun c inside => blank c (List.mem_reverse.mp inside)
  unfold trimEndChars
  rw [List.reverse_append, List.dropWhile_append, blankBack, List.isEmpty_nil, if_pos rfl]

theorem trimEndChars_concat (front : List Char) {last : Char} (written : isBlank last = false) :
    trimEndChars (front ++ [last]) = front ++ [last] := by
  unfold trimEndChars
  rw [List.reverse_append, List.reverse_singleton, List.singleton_append,
    List.dropWhile_cons_of_neg (by simp [written]), List.reverse_cons, List.reverse_reverse]

/-- The text without the blanks behind a character that is not one. -/
theorem trimChars_append (written : ¬ IsBlankText front) (middle : List Char) {last : Char}
    (isLast : isBlank last = false) (blank : IsBlankText back) :
    trimChars (front ++ (middle ++ last :: back)) =
      trimStartChars front ++ (middle ++ [last]) := by
  rw [trimChars, trimStartChars_append written]
  have split : trimStartChars front ++ (middle ++ last :: back) =
      (trimStartChars front ++ middle ++ [last]) ++ back := by simp
  rw [split, trimEndChars_append _ blank, trimEndChars_concat _ isLast, List.append_assoc]

/-- No blank stands at either end of the text. -/
structure IsTrimmed (text : List Char) : Prop where
  first : ∀ c ∈ text.head?, isBlank c = false
  last : ∀ c ∈ text.getLast?, isBlank c = false

theorem isBlank_of_head?_dropWhile {c : Char} (isFirst : (text.dropWhile isBlank).head? = some c) :
    isBlank c = false := by
  have stops := List.head?_dropWhile_not isBlank text
  rwa [isFirst] at stops

/-- Trimming takes the blanks off both ends. -/
theorem isTrimmed_trimChars (text : List Char) : IsTrimmed (trimChars text) := by
  constructor
  · intro c isFirst
    have front : trimChars text <+: trimStartChars text := by
      rw [← List.reverse_suffix, trimChars, trimEndChars, List.reverse_reverse]
      exact List.dropWhile_suffix isBlank
    obtain ⟨back, same⟩ := front
    have isStart : (trimStartChars text).head? = some c := by
      rw [← same, List.head?_append, Option.mem_def.mp isFirst, Option.some_or]
    exact isBlank_of_head?_dropWhile isStart
  · intro c isLast
    rw [trimChars, trimEndChars, List.getLast?_reverse] at isLast
    exact isBlank_of_head?_dropWhile isLast

/-- Trimming leaves a trimmed text as it is. -/
theorem IsTrimmed.trimChars_eq (trimmed : IsTrimmed text) : trimChars text = text := by
  have start : trimStartChars text = text := by
    cases text with
    | nil => rfl
    | cons c rest => exact List.dropWhile_cons_of_neg (by simp [trimmed.first c rfl])
  rw [trimChars, start]
  obtain rfl | ⟨front, last, rfl⟩ := text.eq_nil_or_concat
  · rfl
  · rw [List.concat_eq_append]
    exact trimEndChars_concat front (trimmed.last last (by simp))

/-! ## Cutting -/

section Cutting

variable {separator : Char}

theorem cut?_eq_none (absent : separator ∉ text) : cut? separator text = none := by
  induction text with
  | nil => rfl
  | cons c rest ih =>
      obtain ⟨other, absent⟩ := not_or.mp (List.mem_cons.not.mp absent)
      rw [cut?, if_neg (Ne.symm other), ih absent, Option.map_none]

theorem cut?_append (absent : separator ∉ front) (back : List Char) :
    cut? separator (front ++ separator :: back) = some (front, back) := by
  induction front with
  | nil => rw [List.nil_append, cut?, if_pos rfl]
  | cons c rest ih =>
      obtain ⟨other, absent⟩ := not_or.mp (List.mem_cons.not.mp absent)
      rw [List.cons_append, cut?, if_neg (Ne.symm other), ih absent, Option.map_some]

/-- No part contains the separator. -/
theorem not_mem_of_mem_pieces {part : List Char} (isPart : part ∈ pieces separator text) :
    separator ∉ part := by
  induction text generalizing part with
  | nil =>
    rw [List.mem_singleton.mp isPart]
    exact List.not_mem_nil
  | cons c rest ih =>
    by_cases same : c = separator
    · simp only [pieces, if_pos same, List.mem_cons] at isPart
      obtain rfl | later := isPart
      · exact List.not_mem_nil
      · exact ih later
    · cases found : pieces separator rest with
      | nil => exact absurd found (pieces_ne_nil separator rest)
      | cons first others =>
        simp only [found] at ih
        simp only [pieces, if_neg same, found, List.mem_cons] at isPart
        obtain rfl | later := isPart
        · simp [Ne.symm same, ih List.mem_cons_self]
        · exact ih (List.mem_cons_of_mem first later)

theorem pieces_eq_singleton (absent : separator ∉ text) : pieces separator text = [text] := by
  induction text with
  | nil => rfl
  | cons c rest ih =>
    obtain ⟨other, absent⟩ := not_or.mp (List.mem_cons.not.mp absent)
    rw [pieces, if_neg (Ne.symm other), ih absent]

theorem pieces_append (absent : separator ∉ front) (back : List Char) :
    pieces separator (front ++ separator :: back) = front :: pieces separator back := by
  induction front with
  | nil => rw [List.nil_append, pieces, if_pos rfl]
  | cons c rest ih =>
    obtain ⟨other, absent⟩ := not_or.mp (List.mem_cons.not.mp absent)
    rw [List.cons_append, pieces, if_neg (Ne.symm other), ih absent]

theorem join_eq_flatMap (separator : Char) (first : List Char) (rest : List (List Char)) :
    join separator (first :: rest) = first ++ rest.flatMap (separator :: ·) := by
  induction rest generalizing first with
  | nil => simp [join]
  | cons next others ih => rw [join, ih, List.flatMap_cons, List.cons_append]

/-- Cutting undoes joining where the separator is in no part. -/
theorem pieces_join {parts : List (List Char)} (filled : parts ≠ [])
    (absent : ∀ part ∈ parts, separator ∉ part) : pieces separator (join separator parts) = parts := by
  induction parts with
  | nil => exact absurd rfl filled
  | cons part others ih =>
    obtain ⟨here, later⟩ := List.forall_mem_cons.mp absent
    cases others with
    | nil => exact pieces_eq_singleton here
    | cons next others => rw [join, pieces_append here, ih (List.cons_ne_nil _ _) later]

end Cutting

end ExprImports.Text
