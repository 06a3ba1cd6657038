import ExprImports.Proofs.Catalog.Index
import ExprImports.Proofs.Catalog.Regularity

/-!
# What plain names stand for

The full name of an open definition ends in a backquote and the number of its parameters,
that of an instantiation in an angle bracket, and that of an array in a square bracket. So behind
the last dot such a name has a mark that no identifier contains, and no namespace before a dotted
path of identifiers makes a name of it that has one (`not_isMarked_qualified`).

Whatever is added to a catalog, a name without a mark stands for a type that is not generic and no
array (`Reached.hasShape_of_findType?`). It is a class, a structure, an interface or an
enumeration if no type was declared as a parameter (`Built.isPlain_of_findType?`).
-/

set_option autoImplicit false

namespace ExprImports

/-! ## Marks -/

/-- The name of an open definition, of an instantiation or of an array. -/
inductive IsMarked : String → Prop where
  | definition (bare : String) (count : Nat) : IsMarked (bare ++ "`" ++ toString count)
  | instantiation (front : String) : IsMarked (front ++ ">")
  | array (front : String) : IsMarked (front ++ "]")

/-- The characters that mark a name. -/
def marks : List Char :=
  ['\x60', '>', ']']

/-- The name contains no mark. -/
def IsUnmarked (name : String) : Prop :=
  ∀ mark ∈ marks, mark ∉ name.toList

instance (name : String) : Decidable (IsUnmarked name) :=
  List.decidableBAll (fun mark => mark ∉ name.toList) marks

/-- There is no dot behind the mark. -/
theorem IsMarked.exists_mark {name : String} (marked : IsMarked name) :
    ∃ front mark tail, name.toList = front ++ mark :: tail ∧ mark ∈ marks ∧ '.' ∉ tail := by
  cases marked with
  | definition bare count =>
      refine ⟨bare.toList, '\x60', (toString count).toList, ?_, by decide, fun isDot => ?_⟩
      · rw [String.toList_append, String.toList_append, List.append_assoc]
        rfl
      · rw [Nat.toString_eq_repr, Nat.toList_repr] at isDot
        have isDigit := Nat.isDigit_of_mem_toDigits (by decide) (by decide) isDot
        exact absurd isDigit (by decide)
  | instantiation front =>
      exact ⟨front.toList, '>', [], String.toList_append, by decide, List.not_mem_nil⟩
  | array front =>
      exact ⟨front.toList, ']', [], String.toList_append, by decide, List.not_mem_nil⟩

theorem not_isMarked {name : String} (unmarked : IsUnmarked name) : ¬ IsMarked name := by
  intro marked
  obtain ⟨front, mark, tail, whole, isMark, _⟩ := marked.exists_mark
  exact unmarked mark isMark (by simp [whole])

/-- A namespace before a name puts no mark behind the last dot, whatever it contains. -/
theorem not_isMarked_qualified (place : String) {name : String} (unmarked : IsUnmarked name) :
    ¬ IsMarked (place ++ "." ++ name) := by
  intro marked
  obtain ⟨front, mark, tail, whole, isMark, noDot⟩ := marked.exists_mark
  have notDot : '.' ≠ mark := by
    rintro rfl
    exact absurd isMark (by decide)
  have qualified : place.toList ++ '.' :: name.toList = front ++ mark :: tail := by
    rw [← whole, String.toList_append, String.toList_append, List.append_assoc]
    rfl
  obtain ⟨between, _, inName⟩ | ⟨between, _, inPlace⟩ := List.append_eq_append_iff.mp qualified
  · cases between with
    | nil => exact notDot (List.cons.inj inName).1
    | cons _ between =>
        have isName := (List.cons.inj inName).2
        exact unmarked mark isMark (by simp [isName])
  · cases between with
    | nil => exact notDot (List.cons.inj inPlace).1.symm
    | cons _ between =>
        have isTail := (List.cons.inj inPlace).2
        exact noDot (by simp [isTail])

namespace Catalog

/-! ## Plain types -/

/-- The type has an entry, declared by name and not generic. -/
def IsPlain (catalog : Catalog) (type : TypeId) : Prop :=
  ∃ entry kind, catalog.find? type = some entry ∧ entry.kind = .nominal kind ∧
    entry.genericity = .plain

section Plain

variable {catalog : Catalog} {type : TypeId}

theorem IsPlain.extends {later : Catalog} (extended : later.Extends catalog)
    (plain : catalog.IsPlain type) : later.IsPlain type := by
  obtain ⟨entry, kind, found, nominal, single⟩ := plain
  obtain ⟨grown, known, more⟩ := extended.types type entry found
  exact ⟨grown, kind, known, more.kind.trans nominal, more.genericity.trans single⟩

theorem IsPlain.has (plain : catalog.IsPlain type) : catalog.has type = true := by
  obtain ⟨entry, _, found, _⟩ := plain
  rw [Catalog.has, found, Option.isSome_some]

theorem IsPlain.isOpen_eq_false (plain : catalog.IsPlain type) : catalog.isOpen type = false := by
  obtain ⟨entry, kind, found, nominal, single⟩ := plain
  rw [isOpen, found]
  simp only [nominal, single]

theorem IsPlain.element?_eq_none (plain : catalog.IsPlain type) :
    catalog.element? type = none := by
  obtain ⟨entry, kind, found, nominal, _⟩ := plain
  rw [element?, found, Option.map_some, nominal]

/-- Whether a type is plain can be seen from its entry. -/
theorem isPlain_iff : catalog.IsPlain type ↔
    (catalog.find? type).any (fun entry =>
      (match entry.kind with
        | .nominal _ => true
        | _ => false) && entry.genericity = .plain) = true := by
  unfold IsPlain
  cases found : catalog.find? type with
  | none => simp
  | some entry =>
      cases isKind : entry.kind <;> simp [isKind]

instance (catalog : Catalog) (type : TypeId) : Decidable (catalog.IsPlain type) :=
  decidable_of_iff _ isPlain_iff.symm

theorem isPlain_of_hasShape {kind : NominalKind}
    (shape : catalog.HasShape type (.nominal kind) .plain) : catalog.IsPlain type := by
  obtain ⟨entry, found, nominal, single⟩ := shape
  exact ⟨entry, kind, found, nominal, single⟩

/-! ## The names of a catalog -/

/-- The full name of an array or of a type that is generic is marked. -/
theorem isMarked_fullName {entry : TypeEntry} (found : catalog.find? type = some entry)
    (special : entry.kind.isArray = true ∨ entry.genericity ≠ .plain) :
    IsMarked (catalog.fullName type) := by
  rw [fullName, nameOf, found]
  cases isKind : entry.kind with
  | array element rank =>
      simp only [isKind, arrayBrackets]
      rw [← String.append_assoc]
      exact .array _
  | nominal _ | parameter =>
      simp only [isKind]
      cases isGeneric : entry.genericity with
      | plain => simp [isKind, isGeneric, TypeKind.isArray] at special
      | definition parameters => exact .definition _ _
      | instantiation definition arguments => exact .instantiation _

/-- **What a name without a mark stands for is neither an array nor generic.** -/
theorem Reached.hasShape_of_findType? (reached : Reached catalog) {name : String}
    (unmarked : ¬ IsMarked name) (found : catalog.findType? name = some type) :
    ∃ kind, catalog.HasShape type kind .plain ∧ kind.isArray = false := by
  obtain ⟨entered, isName, _⟩ := reached.indexed.isLatest_of_findType? found
  obtain ⟨entry, isEntry⟩ := Option.isSome_iff_exists.mp entered.known
  have ordinary : ¬ (entry.kind.isArray = true ∨ entry.genericity ≠ .plain) :=
    fun special => unmarked (isName ▸ isMarked_fullName isEntry special)
  rw [not_or, Bool.not_eq_true, Decidable.not_not] at ordinary
  exact ⟨entry.kind, ⟨entry, isEntry, rfl, ordinary.2⟩, ordinary.1⟩

/-- **In a built catalog names without a mark stand for plain types.** The parameters in it came
with definitions, and such have no names. -/
theorem Built.isPlain_of_findType? (built : catalog.Built) {name : String}
    (unmarked : ¬ IsMarked name) (found : catalog.findType? name = some type) :
    catalog.IsPlain type := by
  obtain ⟨kind, shape, _⟩ := built.reached.hasShape_of_findType? unmarked found
  obtain ⟨entry, isEntry, declared⟩ := built.isDeclared_of_findType? found
  obtain ⟨isKind, isGeneric⟩ := shape.unique ⟨entry, isEntry, rfl, rfl⟩
  rcases declared with ⟨nominal, isNominal⟩ | ⟨generic, arguments, applied⟩
  · exact ⟨entry, nominal, isEntry, isNominal, isGeneric.symm⟩
  · cases isGeneric.trans applied

/-- The core types are plain. -/
theorem Reached.isPlain_of_isCore (reached : Reached catalog) (core : type.isCore = true) :
    catalog.IsPlain type := by
  have all : ∀ position < CoreType.count, Catalog.initial.IsPlain (.entry position) := by
    decide +kernel
  cases type with
  | null => cases core
  | entry position => exact (all position (of_decide_eq_true core)).extends reached.extends_initial

end Plain

end Catalog

end ExprImports
