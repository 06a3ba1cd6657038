import ExprImports.Schema.TypeReference
import ExprImports.Proofs.Texts
import Mathlib.Tactic.Tauto

/-!
# How references to types are spelled

The reader of references has no grammar. It takes brackets off the end, cuts at the first opening
angle bracket, and splits what is inside at the commas where no bracket is open. The grammar is
stated here on its own (`TypeReference.Spells`): names without brackets and commas, applications
and array brackets, nested to any depth and with any blanks between them.

**Reading.** Each spelling is read as the reference that it spells (`Spells.ofText_eq`). In a
spelling all angle brackets are closed again, so the count of open brackets is the same behind it as
before it, and no comma in it is one at which the text around it is split (`Spells.passes`).
-/

set_option autoImplicit false

namespace ExprImports

namespace Schema

open Text

/-! ## Spellings -/

/-- The text has neither brackets nor commas, and it is not blank. -/
structure IsName (text : List Char) : Prop where
  plain : ∀ c ∈ text, c ∉ ['<', '>', ',', '[', ']']
  written : ¬ IsBlankText text

instance (text : List Char) : Decidable (IsName text) :=
  decidable_of_iff
    ((text.all fun c => decide (c ∉ ['<', '>', ',', '[', ']'])) = true ∧ ¬ IsBlankText text)
    ⟨fun ⟨plain, written⟩ =>
      ⟨fun c inside => of_decide_eq_true (List.all_eq_true.mp plain c inside), written⟩,
    fun isName =>
      ⟨List.all_eq_true.mpr fun c inside => decide_eq_true (isName.plain c inside),
        isName.written⟩⟩

mutual

/-- The text spells the reference. The blanks around a name are not part of it. -/
inductive TypeReference.Spells : TypeReference → List Char → Prop
  | name {text : List Char} :
      IsName text → (TypeReference.name (String.ofList (trimChars text))).Spells text
  | array {element : TypeReference} {text blanks : List Char} :
      element.Spells text → IsBlankText blanks →
      (TypeReference.array element).Spells (text ++ ('[' :: ']' :: blanks))
  | application {arguments : List TypeReference} {name listed blanks : List Char} :
      IsName name → AllSpelled arguments listed → IsBlankText blanks →
      (TypeReference.application
        (String.ofList (trimStartChars name ++ ('<' :: listed ++ ['>'])))
        (String.ofList (trimChars name)) arguments).Spells (name ++ ('<' :: listed ++ '>' :: blanks))

/-- The text spells the references, with commas between them. -/
inductive AllSpelled : List TypeReference → List Char → Prop
  | last {reference : TypeReference} {text : List Char} :
      reference.Spells text → AllSpelled [reference] text
  | more {reference next : TypeReference} {others : List TypeReference} {text listed : List Char} :
      reference.Spells text → AllSpelled (next :: others) listed →
      AllSpelled (reference :: next :: others) (text ++ ',' :: listed)

end

theorem TypeReference.Spells.written {reference : TypeReference} {text : List Char}
    (spells : reference.Spells text) : ¬ IsBlankText text := by
  intro blank
  cases spells with
  | name isName => exact isName.written blank
  | array _ _ =>
      have isBracket := blank '[' (by simp)
      exact absurd isBracket (by decide)
  | application _ _ _ =>
      have isBracket := blank '<' (by simp)
      exact absurd isBracket (by decide)

/-! ## Commas outside of brackets -/

section Parts

variable {depth : Nat} {text rest first : List Char} {others : List (List Char)}

/-- The character is no comma and no angle bracket. -/
abbrev IsInert (c : Char) : Prop :=
  c ∉ ['<', '>', ',']

theorem isInert_of_isBlank {c : Char} (blank : isBlank c = true) : IsInert c := by
  intro inside
  have all : (['<', '>', ','].all fun c => !isBlank c) = true := by decide
  have written := List.all_eq_true.mp all c inside
  rw [blank] at written
  cases written

theorem IsName.isInert (isName : IsName text) {c : Char} (inside : c ∈ text) : IsInert c := by
  intro special
  refine isName.plain c inside ?_
  simp only [List.mem_cons, List.not_mem_nil, or_false] at special ⊢
  tauto

/-- One character that does not end a part. -/
theorem topLevelParts_cons {c : Char} {inner : Nat} (inside : c ≠ ',' ∨ depth ≠ 0)
    (counted : (if c = '<' then depth + 1 else if c = '>' then depth - 1 else depth) = inner)
    (parts : topLevelParts inner rest = first :: others) :
    topLevelParts depth (c :: rest) = (c :: first) :: others := by
  have goesOn : ¬ (c = ',' && depth = 0) = true := by
    simp only [Bool.and_eq_true, decide_eq_true_eq]
    tauto
  rw [topLevelParts, if_neg goesOn, counted, parts]

theorem topLevelParts_comma (rest : List Char) :
    topLevelParts 0 (',' :: rest) = [] :: topLevelParts 0 rest := by
  rw [topLevelParts]
  rfl

theorem topLevelParts_append_of_isInert (inert : ∀ c ∈ text, IsInert c)
    (parts : topLevelParts depth rest = first :: others) :
    topLevelParts depth (text ++ rest) = (text ++ first) :: others := by
  induction text with
  | nil => exact parts
  | cons c text ih =>
      obtain ⟨here, later⟩ := List.forall_mem_cons.mp inert
      simp only [IsInert, List.mem_cons, List.not_mem_nil, or_false, not_or] at here
      obtain ⟨notOpening, notClosing, notComma⟩ := here
      refine topLevelParts_cons (.inl notComma) ?_ (ih later)
      rw [if_neg notOpening, if_neg notClosing]

end Parts

mutual

/-- **No text is split inside a spelling**, and the brackets that were open before it are open
behind it. -/
theorem TypeReference.Spells.passes {reference : TypeReference} {text : List Char}
    (spells : reference.Spells text) {depth : Nat} {rest first : List Char}
    {others : List (List Char)} (parts : topLevelParts depth rest = first :: others) :
    topLevelParts depth (text ++ rest) = (text ++ first) :: others := by
  cases spells with
  | name isName => exact topLevelParts_append_of_isInert (fun _ => isName.isInert) parts
  | array element blank =>
      rw [List.append_assoc, List.append_assoc]
      refine element.passes (topLevelParts_append_of_isInert ?_ parts)
      refine List.forall_mem_cons.mpr ⟨by decide, List.forall_mem_cons.mpr ⟨by decide, ?_⟩⟩
      exact fun c inside => isInert_of_isBlank (blank c inside)
  | @application _ name listed blanks isName arguments blank =>
      have behind := topLevelParts_append_of_isInert
        (fun c inside => isInert_of_isBlank (blank c inside)) parts
      have closed : topLevelParts (depth + 1) ('>' :: (blanks ++ rest)) =
          ('>' :: (blanks ++ first)) :: others :=
        topLevelParts_cons (.inl (by decide)) rfl behind
      have opened : topLevelParts depth ('<' :: (listed ++ '>' :: (blanks ++ rest))) =
          ('<' :: (listed ++ '>' :: (blanks ++ first))) :: others :=
        topLevelParts_cons (.inl (by decide)) rfl (arguments.passes closed)
      have whole := topLevelParts_append_of_isInert (fun _ => isName.isInert) opened
      simpa using whole

/-- Inside of brackets no text is split at the commas of a list. -/
theorem AllSpelled.passes {references : List TypeReference} {text : List Char}
    (spelled : AllSpelled references text) {depth : Nat} {rest first : List Char}
    {others : List (List Char)} (parts : topLevelParts (depth + 1) rest = first :: others) :
    topLevelParts (depth + 1) (text ++ rest) = (text ++ first) :: others := by
  cases spelled with
  | last spells => exact spells.passes parts
  | more spells further =>
      rw [List.append_assoc, List.append_assoc]
      exact spells.passes
        (topLevelParts_cons (.inr (Nat.succ_ne_zero depth)) rfl (further.passes parts))

end

/-! ## Reading -/

/-- Trimming first changes nothing of what is read. -/
theorem readWithin_of_trimChars_eq {depth : Nat} {text other : List Char}
    (same : trimChars text = trimChars other) : readWithin depth text = readWithin depth other := by
  cases depth <;> simp only [readWithin, same]

theorem stripSuffix?_append (text suffix : List Char) :
    stripSuffix? suffix (text ++ suffix) = some text := by
  have isSuffix : suffix.isSuffixOf (text ++ suffix) = true :=
    List.isSuffixOf_iff_suffix.mpr (List.suffix_append text suffix)
  rw [stripSuffix?, if_pos isSuffix, List.length_append, Nat.add_sub_cancel, List.take_left]

/-- A text does not end in a suffix with another last character. -/
theorem stripSuffix?_concat_eq_none (text suffix : List Char) {c last : Char} (other : c ≠ last) :
    stripSuffix? (suffix ++ [last]) (text ++ [c]) = none := by
  rw [stripSuffix?, if_neg]
  intro isSuffix
  obtain ⟨front, same⟩ := List.isSuffixOf_iff_suffix.mp isSuffix
  rw [← List.append_assoc] at same
  have lasts := List.append_inj_right' same rfl
  exact other (List.cons.inj lasts).1.symm

section Names

variable {name : List Char} (isName : IsName name)
include isName

theorem IsName.not_mem_trimStartChars : '<' ∉ trimStartChars name := by
  intro inside
  exact isName.plain _ ((List.dropWhile_sublist _).subset inside) (by decide)

theorem IsName.stripSuffix?_eq_none : stripSuffix? ['[', ']'] (trimChars name) = none := by
  rw [stripSuffix?, if_neg]
  intro isSuffix
  have inside : '[' ∈ trimChars name :=
    (List.isSuffixOf_iff_suffix.mp isSuffix).subset List.mem_cons_self
  exact isName.plain _ (mem_of_mem_trimChars inside) (by decide)

theorem IsName.application?_eq_none : application? (trimChars name) = none := by
  rw [application?, cut?_eq_none]
  intro inside
  exact isName.plain _ (mem_of_mem_trimChars inside) (by decide)

end Names

mutual

theorem TypeReference.Spells.readWithin_eq {reference : TypeReference} {text : List Char}
    (spells : reference.Spells text) {depth : Nat} (deep : text.length ≤ depth) :
    readWithin depth text = reference := by
  cases depth with
  | zero =>
      have isEmpty := List.length_eq_zero_iff.mp (Nat.le_zero.mp deep)
      exact absurd (isEmpty ▸ List.forall_mem_nil _) spells.written
  | succ depth =>
      rw [readWithin]
      cases spells with
      | name isName =>
          rw [isName.stripSuffix?_eq_none, isName.application?_eq_none]
      | @array element text blanks spelled blank =>
          have trimmed : trimChars (text ++ '[' :: ']' :: blanks) =
              trimStartChars text ++ ['[', ']'] :=
            trimChars_append spelled.written ['['] (by decide) blank
          have shorter : text.length ≤ depth := by
            simp only [List.length_append, List.length_cons] at deep
            omega
          rw [trimmed, stripSuffix?_append]
          dsimp only
          rw [readWithin_of_trimChars_eq (trimChars_trimStartChars text),
            spelled.readWithin_eq shorter]
      | @application arguments name listed blanks isName spelled blank =>
          have trimmed : trimChars (name ++ ('<' :: listed ++ '>' :: blanks)) =
              trimStartChars name ++ ('<' :: listed ++ ['>']) :=
            trimChars_append isName.written ('<' :: listed) (by decide) blank
          have noBrackets : stripSuffix? ['[', ']']
              (trimStartChars name ++ ('<' :: listed ++ ['>'])) = none := by
            rw [← List.append_assoc]
            exact stripSuffix?_concat_eq_none _ ['['] (by decide)
          have applies : application? (trimStartChars name ++ ('<' :: listed ++ ['>'])) =
              some (trimStartChars name, listed) := by
            rw [application?, List.cons_append, cut?_append isName.not_mem_trimStartChars]
            dsimp only
            rw [stripSuffix?_append, Option.map_some]
          have shorter : listed.length ≤ depth := by
            simp only [List.length_append, List.length_cons] at deep
            omega
          rw [trimmed, noBrackets, applies]
          dsimp only
          rw [trimChars_trimStartChars, spelled.map_readWithin_eq shorter]

theorem AllSpelled.map_readWithin_eq {references : List TypeReference} {text : List Char}
    (spelled : AllSpelled references text) {depth : Nat} (deep : text.length ≤ depth) :
    (topLevelParts 0 text).map (readWithin depth) = references := by
  cases spelled with
  | last spells =>
      have parts : topLevelParts 0 (_ ++ []) = (_ ++ []) :: [] := spells.passes rfl
      rw [List.append_nil] at parts
      rw [parts, List.map_cons, spells.readWithin_eq deep, List.map_nil]
  | @more reference next others text listed spells further =>
      have parts := spells.passes (topLevelParts_comma listed)
      rw [List.append_nil] at parts
      rw [List.length_append, List.length_cons] at deep
      rw [parts, List.map_cons, spells.readWithin_eq (by omega),
        further.map_readWithin_eq (by omega)]

end

/-- **References are read structurally.** The text of a spelling is read as the reference that it
spells, however deep it is nested. -/
theorem TypeReference.Spells.ofText_eq {reference : TypeReference} {text : List Char}
    (spells : reference.Spells text) : TypeReference.ofText (String.ofList text) = reference := by
  rw [ofText, String.toList_ofList]
  exact spells.readWithin_eq (Nat.le_refl _)

end Schema

end ExprImports
