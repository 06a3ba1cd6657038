import ExprImports.Json.Reading
import ExprImports.Json.Writing
import Mathlib.Tactic.SplitIfs

/-!
# Reading what was written

A value that is written as JSON is read back, on one line or on several: the writer and the
reader agree on the escapes of all characters (`contents?_quotedChar`), and the blanks of a layout
stand only where the reader passes over blanks (`valueWithin_write`). Numbers are left out, since
a value keeps them as any text, and so are the strings that stand for no text.
-/

set_option autoImplicit false

namespace ExprImports.Json

/-! ## Strings -/

theorem code?_of_lt {code : Nat} (small : code < 256) (rest : List Char) :
    code? ('0' :: '0' :: Text.hexDigit (code / 16) :: Text.hexDigit (code % 16) :: rest) =
      some (code, rest) := by
  have high : code / 16 < 16 := by omega
  have low : code % 16 < 16 := by omega
  have value : (code / 16) * 16 + code % 16 = code := by omega
  have zero : Text.hexDigitValue '0' = 0 := rfl
  have digit : Text.isHexDigit '0' = true := rfl
  simp [code?, Text.hexNumber?, Text.hexValue, Text.valueInBase, Text.isHexDigit_hexDigit _ high,
    Text.isHexDigit_hexDigit _ low, Text.hexDigitValue_hexDigit _ high,
    Text.hexDigitValue_hexDigit _ low, zero, digit, value]

/-- A backslash and what escapes a character are read as the character. -/
theorem contents?_escape {c : Char} (escape : List Char) {rest : List Char}
    (escapes : escaped? (escape ++ rest) = some (some c, rest)) :
    contents? ('\\' :: (escape ++ rest)) =
      (contents? rest).map fun (contents, rest) => (contents.map (c :: ·), rest) := by
  rw [contents?, escapes]
  simp

/-- **A written character is read back**, whatever stands behind it. -/
theorem contents?_quotedChar (c : Char) (rest : List Char) :
    contents? (quotedChar c ++ rest) =
      (contents? rest).map fun (contents, rest) => (contents.map (c :: ·), rest) := by
  have coded {code : Nat} (same : c.toNat = code) : c = Char.ofNat code := by
    rw [← same, Char.ofNat_toNat]
  unfold quotedChar
  split_ifs with quote backslash backspace tab newline formFeed carriage control
  · exact contents?_escape ['"'] (by rw [quote]; rfl)
  · exact contents?_escape ['\\'] (by rw [backslash]; rfl)
  · exact contents?_escape ['b'] (by rw [coded backspace]; rfl)
  · exact contents?_escape ['t'] (by rw [tab]; rfl)
  · exact contents?_escape ['n'] (by rw [newline]; rfl)
  · exact contents?_escape ['f'] (by rw [coded formFeed]; rfl)
  · exact contents?_escape ['r'] (by rw [carriage]; rfl)
  · have small : c.toNat < 256 := by omega
    rw [codeEscape, List.cons_append]
    refine contents?_escape ['u', '0', '0', _, _] ?_
    simp only [List.cons_append, List.nil_append, escaped?, code?_of_lt small]
    have unpaired : isHighHalf c.toNat = false := by
      simp [isHighHalf]
      omega
    simp [unpaired, Text.charOf?_toNat]
  · rw [List.singleton_append, contents?]
    · rw [if_neg control]
    · simpa using quote
    · simpa using backslash

theorem contents?_flatMap_quotedChar (text rest : List Char) :
    contents? (text.flatMap quotedChar ++ '"' :: rest) = some (some text, rest) := by
  induction text with
  | nil => rw [List.flatMap_nil, List.nil_append, contents?]
  | cons c text ih =>
    rw [List.flatMap_cons, List.append_assoc, contents?_quotedChar, ih]
    rfl

/-! ## Blanks -/

/-- Nothing but blanks. -/
def AllBlank (text : List Char) : Prop :=
  ∀ c ∈ text, isBlank c = true

theorem skipBlanks_append {blanks : List Char} (blank : AllBlank blanks)
    (text : List Char) : skipBlanks (blanks ++ text) = skipBlanks text :=
  List.dropWhile_append_of_pos blank

theorem skipBlanks_cons {c : Char} (dark : isBlank c = false) (text : List Char) :
    skipBlanks (c :: text) = c :: text :=
  List.dropWhile_cons_of_neg (by simp [dark])

/-- A layout with nothing but blanks. -/
structure Layout.IsBlank (layout : Layout) : Prop where
  lineBreak : ∀ level, AllBlank (layout.lineBreak level)
  afterColon : AllBlank layout.afterColon

theorem Layout.compact_isBlank : Layout.compact.IsBlank where
  lineBreak := fun _ => List.forall_mem_nil _
  afterColon := List.forall_mem_nil _

theorem Layout.indented_isBlank : Layout.indented.IsBlank where
  lineBreak := by
    intro level c inside
    obtain rfl | ⟨_, rfl⟩ : c = '\n' ∨ 2 * level ≠ 0 ∧ c = ' ' := by
      simpa only [Layout.indented, List.mem_cons, List.mem_replicate] using inside
    · rfl
    · rfl
  afterColon := by
    intro c inside
    obtain rfl : c = ' ' := by simpa [Layout.indented] using inside
    rfl

/-! ## Items -/

/-- What is read from the front of a text that begins so, whatever follows. -/
def Reads {α : Type} (read : Read α) (text : List Char) (found : α) : Prop :=
  ∀ rest, read (text ++ rest) = some (found, rest)

/-- A text that begins with an item, and not with a blank or a closing character. -/
def BeginsItem (close : Char) (text : List Char) : Prop :=
  ∃ c remaining, text = c :: remaining ∧ isBlank c = false ∧ c ≠ close

section Items

variable {α β : Type} {item : Read α} {found : β → α} {write : β → List Char}
  (close : Char) (dark : isBlank close = false) (closes : close ≠ ',')
  {blanks : List Char} (blank : AllBlank blanks) {items : List β}
  (reads : ∀ other ∈ items, Reads item (write other) (found other))
include dark closes blank reads

/-- Items that are written one behind another are read in order. -/
theorem items?_written {first : α} {text : List Char} (readsFirst : Reads item text first)
    (rest : List Char) :
    items? item close (text ++
      ((items.flatMap fun other => ',' :: write other) ++ (blanks ++ close :: rest))) =
      some (first :: items.map found, rest) := by
  -- The first item is apart because no comma stands before it; each of the others is first in turn.
  induction items generalizing first text with
  | nil =>
    rw [items?, readsFirst, List.flatMap_nil, List.nil_append]
    simp only [skipBlanks_append blank, skipBlanks_cons dark]
    split <;> simp_all
  | cons second others ih =>
    obtain ⟨readsSecond, readsOthers⟩ := List.forall_mem_cons.mp reads
    have next := ih readsOthers readsSecond
    rw [items?, readsFirst, List.flatMap_cons, List.cons_append, List.cons_append,
      List.append_assoc]
    simp only [skipBlanks_cons (c := ',') rfl, next]
    rw [if_pos]
    · rfl
    · simp
      omega

theorem listing?_written {first : α} {text : List Char} (readsFirst : Reads item text first)
    (begins : BeginsItem close text) {opening : List Char}
    (blankOpening : AllBlank opening) (rest : List Char) :
    listing? item close (opening ++ (text ++
      ((items.flatMap fun other => ',' :: write other) ++ (blanks ++ close :: rest)))) =
      some (first :: items.map found, rest) := by
  have whole := items?_written close dark closes blank reads readsFirst rest
  obtain ⟨c, remaining, rfl, shown, opens⟩ := begins
  rw [listing?, skipBlanks_append blankOpening, List.cons_append, skipBlanks_cons shown]
  simp only [if_neg opens]
  exact whole

end Items

/-! ## Values -/

section Values

variable {depth : Nat} {text rest : List Char}

theorem valueWithin_append_blanks {blanks : List Char} (blank : AllBlank blanks) :
    valueWithin depth (blanks ++ text) = valueWithin depth text := by
  rw [valueWithin, valueWithin, skipBlanks_append blank]

theorem valueWithin_quoted (contents : String) :
    Reads (valueWithin depth) (quoted contents) (.text contents) := by
  intro rest
  rw [quoted, List.append_assoc, List.cons_append, valueWithin, skipBlanks_cons rfl]
  simp [contents?_flatMap_quotedChar]

theorem valueWithin_bracket :
    valueWithin (depth + 1) ('[' :: text) =
      (listing? (valueWithin depth) ']' text).map fun (items, rest) => (.array items, rest) := by
  rw [valueWithin, skipBlanks_cons rfl]
  rfl

theorem valueWithin_brace :
    valueWithin (depth + 1) ('\x7b' :: text) =
      (listing? (pair? (valueWithin depth)) '\x7d' text).map fun (entries, rest) =>
        (objectOf entries, rest) := by
  rw [valueWithin, skipBlanks_cons rfl]
  rfl

theorem mapM_some_fst {f : Option String × Value → Option (String × Value)}
    (keeps : ∀ key value, f (some key, value) = some (key, value))
    (entries : List (String × Value)) :
    (entries.map fun entry => (some entry.1, entry.2)).mapM f = some entries := by
  induction entries with
  | nil => rfl
  | cons entry entries ih => simp [keeps, ih]

/-- Entries whose keys can be read make up an object. -/
theorem objectOf_some (entries : List (String × Value)) :
    objectOf (entries.map fun entry => (some entry.1, entry.2)) = .object entries := by
  rw [objectOf, mapM_some_fst fun key value => rfl]

/-- Passing over blanks before a value changes nothing. -/
theorem Reads.after_blanks {value : Value} (reads : Reads (valueWithin depth) text value)
    {blanks : List Char} (blank : AllBlank blanks) :
    Reads (valueWithin depth) (blanks ++ text) value := by
  intro rest
  rw [List.append_assoc, valueWithin_append_blanks blank]
  exact reads rest

/-- An entry as it is written. -/
def writeEntry (layout : Layout) (level : Nat) (entry : String × Value) : List Char :=
  quoted entry.1 ++ ':' :: layout.afterColon ++ entry.2.write layout level

theorem pair?_writeEntry {layout : Layout} (blankLayout : layout.IsBlank) {level : Nat}
    {entry : String × Value}
    (reads : Reads (valueWithin depth) (entry.2.write layout level) entry.2)
    {blanks : List Char} (blank : AllBlank blanks) :
    Reads (pair? (valueWithin depth)) (blanks ++ writeEntry layout level entry)
      (some entry.1, entry.2) := by
  intro rest
  have value := reads.after_blanks blankLayout.afterColon rest
  rw [pair?, writeEntry]
  simp only [List.append_assoc, skipBlanks_append blank]
  rw [quoted, List.append_assoc, List.cons_append, skipBlanks_cons rfl]
  rw [List.append_assoc] at value
  simp [contents?_flatMap_quotedChar, skipBlanks_cons (c := ':') rfl, value]

end Values

/-! ## Writing and reading -/

/-- A value in which no number stands, and no string that stands for no text. -/
inductive Value.IsPlain : Value → Prop where
  | null : IsPlain .null
  | boolean (value : Bool) : IsPlain (.boolean value)
  | text (contents : String) : IsPlain (.text contents)
  | array {items : List Value} (plain : ∀ item ∈ items, IsPlain item) : IsPlain (.array items)
  | object {entries : List (String × Value)} (plain : ∀ entry ∈ entries, IsPlain entry.2) :
      IsPlain (.object entries)

section Writing

variable (layout : Layout) (level : Nat)

theorem writeItems_eq_flatMap (items : List Value) :
    writeItems layout level items =
      items.flatMap fun item => ',' :: (layout.lineBreak level ++ item.write layout level) := by
  induction items with
  | nil => rfl
  | cons item items ih => simp [writeItems, ih]

theorem writeEntries_eq_flatMap (entries : List (String × Value)) :
    writeEntries layout level entries =
      entries.flatMap fun entry =>
        ',' :: (layout.lineBreak level ++ writeEntry layout level entry) := by
  induction entries with
  | nil => rfl
  | cons entry entries ih => simp [writeEntries, writeEntry, ih]

theorem Value.IsPlain.beginsItem {value : Value} (plain : value.IsPlain) :
    BeginsItem ']' (value.write layout level) := by
  cases plain with
  | null => exact ⟨'n', _, rfl, rfl, by decide⟩
  | boolean value =>
    cases value with
    | true => exact ⟨'t', _, rfl, rfl, by decide⟩
    | false => exact ⟨'f', _, rfl, rfl, by decide⟩
  | text contents => exact ⟨'"', _, rfl, rfl, by decide⟩
  | @array items =>
    cases items with
    | nil => exact ⟨'[', _, rfl, rfl, by decide⟩
    | cons item items => exact ⟨'[', _, rfl, rfl, by decide⟩
  | @object entries =>
    cases entries with
    | nil => exact ⟨'\x7b', _, rfl, rfl, by decide⟩
    | cons entry entries => exact ⟨'\x7b', _, rfl, rfl, by decide⟩

theorem write_array (first : Value) (others : List Value) :
    (Value.array (first :: others)).write layout level =
      '[' :: (layout.lineBreak (level + 1) ++ (first.write layout (level + 1) ++
        ((others.flatMap fun item =>
          ',' :: (layout.lineBreak (level + 1) ++ item.write layout (level + 1))) ++
            (layout.lineBreak level ++ [']'])))) := by
  have written : (Value.array (first :: others)).write layout level =
      '[' :: layout.lineBreak (level + 1) ++ first.write layout (level + 1) ++
        writeItems layout (level + 1) others ++ layout.lineBreak level ++ [']'] := rfl
  rw [written, writeItems_eq_flatMap]
  simp only [List.append_assoc, List.cons_append]

theorem write_object (first : String × Value) (others : List (String × Value)) :
    (Value.object (first :: others)).write layout level =
      '\x7b' :: (layout.lineBreak (level + 1) ++ (writeEntry layout (level + 1) first ++
        ((others.flatMap fun entry =>
          ',' :: (layout.lineBreak (level + 1) ++ writeEntry layout (level + 1) entry)) ++
            (layout.lineBreak level ++ ['\x7d'])))) := by
  have written : (Value.object (first :: others)).write layout level =
      '\x7b' :: layout.lineBreak (level + 1) ++ quoted first.1 ++ ':' :: layout.afterColon ++
        first.2.write layout (level + 1) ++ writeEntries layout (level + 1) others ++
          layout.lineBreak level ++ ['\x7d'] := rfl
  rw [written, writeEntries_eq_flatMap, writeEntry]
  simp only [List.append_assoc, List.cons_append]

theorem length_le_flatMap {α β : Type} {f : α → List β} {items : List α} {item : α}
    (inside : item ∈ items) : (f item).length ≤ (items.flatMap f).length := by
  rw [List.flatMap_def]
  exact (List.sublist_flatten_of_mem (List.mem_map_of_mem inside)).length_le

theorem length_item_lt {item : Value} {items : List Value} (inside : item ∈ items) :
    (item.write layout (level + 1)).length < ((Value.array items).write layout level).length := by
  cases inside with
  | head others =>
    rw [write_array]
    simp only [List.length_cons, List.length_append]
    omega
  | @tail first others inside =>
    have part := length_le_flatMap (f := fun item : Value =>
      ',' :: (layout.lineBreak (level + 1) ++ item.write layout (level + 1))) inside
    rw [write_array]
    simp only [List.length_cons, List.length_append] at part ⊢
    omega

theorem length_entry_lt {entry : String × Value} {entries : List (String × Value)}
    (inside : entry ∈ entries) :
    (entry.2.write layout (level + 1)).length <
      ((Value.object entries).write layout level).length := by
  have written : (entry.2.write layout (level + 1)).length ≤
      (writeEntry layout (level + 1) entry).length := by
    simp only [writeEntry, List.length_append]
    omega
  cases inside with
  | head others =>
    rw [write_object]
    simp only [List.length_cons, List.length_append]
    omega
  | @tail first others inside =>
    have part := length_le_flatMap (f := fun entry : String × Value =>
      ',' :: (layout.lineBreak (level + 1) ++ writeEntry layout (level + 1) entry)) inside
    rw [write_object]
    simp only [List.length_cons, List.length_append] at part ⊢
    omega

end Writing

section Reading

variable {layout : Layout} (blank : layout.IsBlank) {level depth : Nat}
include blank

theorem Reads.array {items : List Value} (plain : ∀ item ∈ items, item.IsPlain)
    (reads : ∀ item ∈ items, Reads (valueWithin depth) (item.write layout (level + 1)) item) :
    Reads (valueWithin (depth + 1)) ((Value.array items).write layout level) (.array items) := by
  intro rest
  cases items with
  | nil => exact valueWithin_bracket
  | cons first others =>
    obtain ⟨readsFirst, readsOthers⟩ := List.forall_mem_cons.mp reads
    have begins := (plain first List.mem_cons_self).beginsItem layout (level + 1)
    have whole := listing?_written ']' rfl (by decide) (blank.lineBreak level)
      (fun item inside => (readsOthers item inside).after_blanks (blank.lineBreak (level + 1)))
      readsFirst begins (blank.lineBreak (level + 1)) rest
    rw [write_array, List.cons_append, valueWithin_bracket]
    simp only [List.append_assoc, List.cons_append, List.nil_append] at whole ⊢
    rw [whole]
    simp

theorem Reads.object {entries : List (String × Value)}
    (reads : ∀ entry ∈ entries,
      Reads (valueWithin depth) (entry.2.write layout (level + 1)) entry.2) :
    Reads (valueWithin (depth + 1)) ((Value.object entries).write layout level)
      (.object entries) := by
  intro rest
  cases entries with
  | nil => exact valueWithin_brace
  | cons first others =>
    obtain ⟨readsFirst, readsOthers⟩ := List.forall_mem_cons.mp reads
    have begins : BeginsItem '\x7d' (writeEntry layout (level + 1) first) :=
      ⟨'"', _, rfl, rfl, by decide⟩
    have whole := listing?_written '\x7d' rfl (by decide) (blank.lineBreak level)
      (fun entry inside =>
        pair?_writeEntry blank (readsOthers entry inside) (blank.lineBreak (level + 1)))
      (pair?_writeEntry blank readsFirst (List.forall_mem_nil _)) begins
      (blank.lineBreak (level + 1)) rest
    rw [write_object, List.cons_append, valueWithin_brace]
    simp only [List.append_assoc, List.cons_append, List.nil_append] at whole ⊢
    rw [whole]
    exact congrArg (fun value => some (value, rest)) (objectOf_some (first :: others))

omit blank in
/-- A written value has a character at least. -/
theorem Value.IsPlain.exists_below {value : Value} (plain : value.IsPlain)
    (deep : (value.write layout level).length ≤ depth) : ∃ below, depth = below + 1 := by
  obtain ⟨c, remaining, written, _⟩ := plain.beginsItem layout level
  rw [written, List.length_cons] at deep
  exact Nat.exists_eq_add_one.mpr (by omega)

/-- **A written value is read back**, in any layout of blanks. -/
theorem valueWithin_write {value : Value} (plain : value.IsPlain)
    (deep : (value.write layout level).length ≤ depth) :
    Reads (valueWithin depth) (value.write layout level) value := by
  induction plain generalizing level depth with
  | null =>
    intro rest
    rw [valueWithin]
    rfl
  | boolean value =>
    intro rest
    rw [valueWithin]
    cases value <;> rfl
  | text contents => exact valueWithin_quoted contents
  | @array items plain ih =>
    obtain ⟨below, rfl⟩ := (Value.IsPlain.array plain).exists_below deep
    refine Reads.array blank plain fun item inside => ih item inside ?_
    have shorter := length_item_lt layout level inside
    omega
  | @object entries plain ih =>
    obtain ⟨below, rfl⟩ := (Value.IsPlain.object plain).exists_below deep
    refine Reads.object blank fun entry inside => ih entry inside ?_
    have shorter := length_entry_lt layout level inside
    omega

end Reading

section Texts

variable {layout : Layout} (blank : layout.IsBlank) {value : Value} (plain : value.IsPlain)
include plain

include blank in
theorem parse?_write : parse? (String.ofList (value.write layout 0)) = some value := by
  have whole := valueWithin_write blank plain (Nat.le_refl (value.write layout 0).length) []
  rw [List.append_nil] at whole
  rw [parse?, String.toList_ofList, whole]
  rfl

/-- What is written on one line is read back. -/
theorem parse?_compact : parse? value.compact = some value :=
  parse?_write Layout.compact_isBlank plain

/-- What is written on several lines is read back. -/
theorem parse?_indented : parse? value.indented = some value :=
  parse?_write Layout.indented_isBlank plain

end Texts

end ExprImports.Json
