import ExprImports.AssemblyName
import ExprImports.Proofs.Texts

/-!
# Display forms of assembly names

A display form is cut at its commas, so neither the simple name nor the value of an attribute that
is read from one contains a comma, and both are trimmed. Names of this kind are canonical
(`AssemblyName.IsCanonical`).

**Reading.** Whatever is read is canonical: the simple name is the first part, and taking a further
part into account changes one attribute at most (`withAttribute_cases`).

**Writing.** A display form joins the simple name and the attributes that are present
(`toList_display`). Where the name is canonical, cutting gives them back, and reading them one
after the other gives the name back. So the canonical names are those that survive being written,
and every name that can be read does (`ofDisplay?_display_iff`).
-/

set_option autoImplicit false

namespace ExprImports

open Text

/-- The text can stand between two commas and be read as it is. -/
structure IsPart (text : List Char) : Prop where
  plain : ',' ∉ text
  trimmed : IsTrimmed text

namespace AssemblyName

/-- What a display form can tell beside the simple name. -/
inductive Key where
  | version
  | culture
  | publicKeyToken

namespace Key

/-- All keys, in the order in which they are written. -/
def all : List Key :=
  [version, culture, publicKeyToken]

/-- How a key is written. -/
def spelling : Key → String
  | version => "Version"
  | culture => "Culture"
  | publicKeyToken => "PublicKeyToken"

/-- The value under a key, if the attribute is present. -/
def get (assembly : AssemblyName) : Key → Option String
  | version => assembly.version
  | culture => assembly.culture
  | publicKeyToken => assembly.publicKeyToken

/-- The name with another value under a key. -/
def set (assembly : AssemblyName) (value : Option String) : Key → AssemblyName
  | version => { assembly with version := value }
  | culture => { assembly with culture := value }
  | publicKeyToken => { assembly with publicKeyToken := value }

/-- An attribute as it is written. -/
def written (key : Key) (value : String) : List Char :=
  key.spelling.toList ++ '=' :: value.toList

end Key

/-- The simple name is not empty, and neither it nor the value of an attribute contains a comma
or has a blank at an end. -/
structure IsCanonical (assembly : AssemblyName) : Prop where
  named : assembly.name ≠ ""
  name : IsPart assembly.name.toList
  value : ∀ key : Key, ∀ value ∈ key.get assembly, IsPart value.toList

/-! ## Reading -/

/-- A part changes nothing, or it gives a value to one attribute. -/
theorem withAttribute_cases (assembly : AssemblyName) (part : List Char) :
    assembly.withAttribute part = assembly ∨
      ∃ (key : Key) (front back : List Char), cut? '=' part = some (front, back) ∧
        assembly.withAttribute part =
          key.set assembly (some (String.ofList (trimChars back))) := by
  unfold withAttribute
  split
  · exact .inl rfl
  next front back found =>
    dsimp only
    split
    · exact .inr ⟨.version, front, back, found, rfl⟩
    split
    · exact .inr ⟨.culture, front, back, found, rfl⟩
    split
    · exact .inr ⟨.publicKeyToken, front, back, found, rfl⟩
    · exact .inl rfl

theorem isPart_trimChars {text : List Char} (plain : ',' ∉ text) : IsPart (trimChars text) :=
  ⟨fun inside => plain (mem_of_mem_trimChars inside), isTrimmed_trimChars text⟩

/-- What is present under a key afterwards was there before or is the value that was given. -/
theorem Key.cases_of_mem_get_set {assembly : AssemblyName} {key other : Key} {given value : String}
    (present : value ∈ other.get (key.set assembly (some given))) :
    value ∈ other.get assembly ∨ value = given := by
  cases key <;> cases other <;> first
    | exact .inl present
    | exact .inr (Option.some.inj present).symm

section Canonical

variable {assembly : AssemblyName} (canonical : assembly.IsCanonical)
include canonical

theorem IsCanonical.set (key : Key) {value : List Char} (part : IsPart value) :
    (key.set assembly (some (String.ofList value))).IsCanonical where
  named := by cases key <;> exact canonical.named
  name := by cases key <;> exact canonical.name
  value := by
    intro other text present
    obtain before | rfl := Key.cases_of_mem_get_set present
    · exact canonical.value other text before
    · rwa [String.toList_ofList]

/-- A part without a comma leaves a canonical name canonical. -/
theorem IsCanonical.withAttribute {part : List Char} (plain : ',' ∉ part) :
    (assembly.withAttribute part).IsCanonical := by
  obtain same | ⟨key, front, back, found, same⟩ := withAttribute_cases assembly part
  · rw [same]
    exact canonical
  · rw [same]
    have plainBack : ',' ∉ back := by
      intro inside
      apply plain
      rw [eq_of_cut?_eq_some found]
      simp [inside]
    exact canonical.set key (isPart_trimChars plainBack)

end Canonical

/-- Parts without commas, one after the other, leave a canonical name canonical. -/
theorem IsCanonical.foldl_withAttribute {assembly : AssemblyName}
    (canonical : assembly.IsCanonical) {parts : List (List Char)}
    (plain : ∀ part ∈ parts, ',' ∉ part) :
    (parts.foldl AssemblyName.withAttribute assembly).IsCanonical := by
  induction parts generalizing assembly with
  | nil => exact canonical
  | cons part parts ih =>
    obtain ⟨here, later⟩ := List.forall_mem_cons.mp plain
    exact ih (canonical.withAttribute here) later

theorem isCanonical_of_name {name : List Char} (filled : name ≠ []) (part : IsPart name) :
    IsCanonical { name := String.ofList name } where
  named := by simpa using filled
  name := by rwa [String.toList_ofList]
  value := by
    intro key value present
    cases key <;> cases present

/-- **What is read is canonical.** -/
theorem isCanonical_of_ofDisplay? {text : String} {assembly : AssemblyName}
    (done : ofDisplay? text = some assembly) : assembly.IsCanonical := by
  have areParts : ∀ part ∈ (pieces ',' text.toList).map trimChars, IsPart part := by
    intro part inside
    obtain ⟨piece, isPiece, rfl⟩ := List.mem_map.mp inside
    exact isPart_trimChars (not_mem_of_mem_pieces isPiece)
  unfold ofDisplay? at done
  split at done
  · cases done
  next name attributes parts =>
    split at done
    · cases done
    next filled =>
      cases done
      rw [parts] at areParts
      obtain ⟨isName, areAttributes⟩ := List.forall_mem_cons.mp areParts
      have named := isCanonical_of_name (by simpa using filled) isName
      exact named.foldl_withAttribute fun part inside => (areAttributes part inside).plain

/-! ## Writing -/

/-- The attributes that are present, as they are written. -/
def attributesWritten (assembly : AssemblyName) : List (List Char) :=
  Key.all.flatMap fun key => (key.get assembly).toList.map key.written

theorem toList_attribute (key : String) (value : Option String) :
    (match value with
      | some text => ", " ++ key ++ "=" ++ text
      | none => "").toList =
      value.toList.flatMap fun text => ',' :: ' ' :: (key.toList ++ '=' :: text.toList) := by
  cases value <;> simp

/-- A display form is the simple name and the attributes that are present, with commas between
them and a space behind each comma. -/
theorem toList_display (assembly : AssemblyName) :
    assembly.display.toList =
      join ',' (assembly.name.toList :: assembly.attributesWritten.map (' ' :: ·)) := by
  have version := toList_attribute "Version" assembly.version
  have culture := toList_attribute "Culture" assembly.culture
  have publicKeyToken := toList_attribute "PublicKeyToken" assembly.publicKeyToken
  have joined := congr(assembly.name.toList ++ $version ++ $culture ++ $publicKeyToken)
  simp only [← String.toList_append] at joined
  refine joined.trans ?_
  simp [join_eq_flatMap, attributesWritten, Key.all, Key.get, Key.written, Key.spelling,
    List.flatMap_map]

section Written

variable {key : Key} {value : String} (part : IsPart value.toList)
include part

theorem not_mem_written : ',' ∉ key.written value := by
  have plainKey : ',' ∉ key.spelling.toList := by cases key <;> decide
  simp [Key.written, plainKey, part.plain]

theorem isTrimmed_written : IsTrimmed (key.written value) where
  first := by
    intro c isFirst
    cases key <;> cases isFirst <;> rfl
  last := by
    intro c isLast
    rw [Key.written, List.getLast?_append, List.getLast?_cons] at isLast
    cases found : value.toList.getLast? with
    | none =>
      rw [found] at isLast
      cases isLast
      rfl
    | some last =>
      rw [found] at isLast
      cases isLast
      exact part.trimmed.last last found

/-- Reading an attribute that was written sets it. -/
theorem withAttribute_written (assembly : AssemblyName) :
    assembly.withAttribute (key.written value) = key.set assembly (some value) := by
  have found : cut? '=' (key.written value) = some (key.spelling.toList, value.toList) :=
    cut?_append (by cases key <;> decide) value.toList
  simp only [withAttribute, found, part.trimmed.trimChars_eq, String.ofList_toList]
  cases key <;> rfl

end Written

section Canonical

variable {assembly : AssemblyName} (canonical : assembly.IsCanonical)
include canonical

theorem IsCanonical.exists_of_mem_attributesWritten {part : List Char}
    (inside : part ∈ assembly.attributesWritten) :
    ∃ (key : Key) (value : String), part = key.written value ∧ IsPart value.toList := by
  obtain ⟨key, _, isWritten⟩ := List.mem_flatMap.mp inside
  obtain ⟨value, present, rfl⟩ := List.mem_map.mp isWritten
  exact ⟨key, value, rfl, canonical.value key value (Option.mem_toList.mp present)⟩

/-- Cutting a display form and trimming the parts gives the simple name and the attributes. -/
theorem IsCanonical.parts_display :
    (pieces ',' assembly.display.toList).map trimChars =
      assembly.name.toList :: assembly.attributesWritten := by
  have plain : ∀ part ∈ assembly.name.toList :: assembly.attributesWritten.map (' ' :: ·),
      ',' ∉ part := by
    refine List.forall_mem_cons.mpr ⟨canonical.name.plain, ?_⟩
    intro part inside
    obtain ⟨written, isWritten, rfl⟩ := List.mem_map.mp inside
    obtain ⟨key, value, rfl, isPart⟩ := canonical.exists_of_mem_attributesWritten isWritten
    simp [not_mem_written isPart]
  have trimmed : ∀ part ∈ assembly.attributesWritten, trimChars (' ' :: part) = part := by
    intro part inside
    obtain ⟨key, value, rfl, isPart⟩ := canonical.exists_of_mem_attributesWritten inside
    exact (isTrimmed_written isPart).trimChars_eq
  rw [toList_display, pieces_join (List.cons_ne_nil _ _) plain, List.map_cons, List.map_map,
    canonical.name.trimmed.trimChars_eq]
  congr 1
  calc assembly.attributesWritten.map (trimChars ∘ (' ' :: ·))
      = assembly.attributesWritten.map id := List.map_congr_left trimmed
    _ = assembly.attributesWritten := List.map_id _

/-- Reading an attribute that is absent so far, if it is present in the name, makes it as it is in
the name. -/
theorem IsCanonical.foldl_written (key : Key) (start : AssemblyName)
    (absent : key.get start = none) :
    ((key.get assembly).toList.map key.written).foldl AssemblyName.withAttribute start =
      key.set start (key.get assembly) := by
  cases present : key.get assembly with
  | none =>
    obtain ⟨name, version, culture, publicKeyToken⟩ := start
    cases key <;> cases absent <;> rfl
  | some value => exact withAttribute_written (canonical.value key value present) start

/-- Reading the attributes of a name one after the other, beginning with the simple name, gives
the name. -/
theorem IsCanonical.foldl_attributesWritten :
    assembly.attributesWritten.foldl AssemblyName.withAttribute { name := assembly.name } =
      assembly := by
  simp only [attributesWritten, Key.all, List.flatMap_cons, List.flatMap_nil, List.foldl_append,
    List.foldl_nil]
  rw [canonical.foldl_written .version _ rfl, canonical.foldl_written .culture _ rfl,
    canonical.foldl_written .publicKeyToken _ rfl]
  rfl

/-- **A canonical name survives being written.** -/
theorem IsCanonical.ofDisplay?_display : ofDisplay? assembly.display = some assembly := by
  have filled : assembly.name.toList.isEmpty = false := by
    simpa using canonical.named
  simp only [ofDisplay?, canonical.parts_display, filled, String.ofList_toList,
    canonical.foldl_attributesWritten, Bool.false_eq_true, if_false]

end Canonical

/-- **The display form is a normal form.** The names that survive being written and read again
are the canonical ones, and whatever is read is one of them. -/
theorem ofDisplay?_display_iff :
    (∀ assembly : AssemblyName, ofDisplay? assembly.display = some assembly ↔
        assembly.IsCanonical) ∧
      ∀ (text : String) (assembly : AssemblyName), ofDisplay? text = some assembly →
        assembly.IsCanonical ∧ ofDisplay? assembly.display = some assembly := by
  refine ⟨fun assembly => ⟨isCanonical_of_ofDisplay?, IsCanonical.ofDisplay?_display⟩, ?_⟩
  intro text assembly done
  have canonical := isCanonical_of_ofDisplay? done
  exact ⟨canonical, canonical.ofDisplay?_display⟩

/-- A display form with blanks around its parts, keys in capital and small letters, an empty value
and two versions. -/
def looseDisplay : String := " Contoso.Crm ,VERSION=1 , culture =, Retargetable=Yes, Version= a=b "

/-- The name that it displays. -/
def looseName : AssemblyName := { name := "Contoso.Crm", version := some "a=b", culture := some "" }

theorem ofDisplay?_looseDisplay :
    ofDisplay? looseDisplay = some looseName ∧ looseName.IsCanonical ∧
      ofDisplay? looseName.display = some looseName := by
  have done : ofDisplay? looseDisplay = some looseName := by decide
  exact ⟨done, ofDisplay?_display_iff.2 looseDisplay looseName done⟩

end AssemblyName

end ExprImports
