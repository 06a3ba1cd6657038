/-!
# Cutting a text at a separator

`pieces` cuts a text at every occurrence of a separating character, `cut?` at
the first one only. Joining the pieces with the separator gives the text back
(`join_pieces`).
-/

set_option autoImplicit false

namespace ExprImports.Text

/-- The parts of a text between the occurrences of a separator. There is always
one part more than there are separators, and parts may be empty. -/
def pieces (separator : Char) : List Char → List (List Char)
  | [] => [[]]
  | c :: rest =>
    if c = separator then [] :: pieces separator rest
    else
      match pieces separator rest with
      | [] => [[c]]
      | first :: others => (c :: first) :: others

/-- The text before and the text after the first occurrence of a separator. -/
def cut? (separator : Char) : List Char → Option (List Char × List Char)
  | [] => none
  | c :: rest =>
    if c = separator then some ([], rest)
    else (cut? separator rest).map fun (before, after) => (c :: before, after)

/-- Parts written one after the other with a separator between them. -/
def join (separator : Char) : List (List Char) → List Char
  | [] => []
  | [part] => part
  | part :: next :: others => part ++ separator :: join separator (next :: others)

theorem pieces_ne_nil (separator : Char) (text : List Char) : pieces separator text ≠ [] := by
  cases text with
  | nil => simp [pieces]
  | cons c rest =>
    simp only [pieces]
    split
    · simp
    · split <;> simp

/-- Cutting loses nothing. -/
theorem join_pieces (separator : Char) (text : List Char) :
    join separator (pieces separator text) = text := by
  induction text with
  | nil => rfl
  | cons c rest ih =>
    cases found : pieces separator rest with
    | nil => exact absurd found (pieces_ne_nil separator rest)
    | cons first others =>
      rw [found] at ih
      by_cases same : c = separator
      · subst same
        simp only [pieces, if_pos, found, join, ih, List.nil_append]
      · simp only [pieces, if_neg same, found]
        cases others with
        | nil => simpa [join] using ih
        | cons next others => simpa [join] using ih

/-- Both sides of a cut and the separator between them make up the text. -/
theorem eq_of_cut?_eq_some {separator : Char} {text before after : List Char}
    (h : cut? separator text = some (before, after)) : text = before ++ separator :: after := by
  induction text generalizing before with
  | nil => simp [cut?] at h
  | cons c rest ih =>
    by_cases same : c = separator
    · subst same
      simp only [cut?, if_pos, Option.some.injEq, Prod.mk.injEq] at h
      obtain ⟨rfl, rfl⟩ := h
      rfl
    · simp only [cut?, if_neg same, Option.map_eq_some_iff, Prod.mk.injEq, Prod.exists] at h
      obtain ⟨inner, _, found, rfl, rfl⟩ := h
      simp [ih found]

end ExprImports.Text
