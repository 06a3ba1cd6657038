import ExprImports.Imports
import ExprImports.Proofs.Closure.Reachability
import Mathlib.Data.List.Induction

/-!
# The import records of an expression

Several types share a record if one assembly defines them in one namespace. A record of a
default assembly is there for the direct anchors only. A record of any other assembly is
there for all anchors and for everything above them, also if what led there is dropped
(`records_iff_anchored`).

**Order.** Records stand in the order in which the first type of each was collected. What
carries the proof is that taking first occurrences of the images of a list keeps the order of
the places at which the images come first (`pairwise_firstPlace_distinct`).
-/

set_option autoImplicit false

namespace ExprImports

/-! ## First places -/

section Places

variable {α β : Type} [DecidableEq β]

/-- The place in a list of the first item that is mapped to the value. -/
def firstPlace (image : α → Option β) (items : List α) (value : β) : Nat :=
  items.findIdx fun item => image item = some value

variable {image : α → Option β} {items : List α} {value : β}

theorem firstPlace_lt_length_iff :
    firstPlace image items value < items.length ↔ value ∈ items.filterMap image := by
  simp only [firstPlace, List.findIdx_lt_length, decide_eq_true_eq, List.mem_filterMap]

theorem firstPlace_append (behind : List α) :
    firstPlace image (items ++ behind) value =
      if value ∈ items.filterMap image then firstPlace image items value
      else firstPlace image behind value + items.length := by
  rw [firstPlace, List.findIdx_append]
  exact if_congr firstPlace_lt_length_iff rfl rfl

/-- The first occurrences of the values that a list is mapped to come in the order of the
places where they come first. -/
theorem pairwise_firstPlace_distinct (image : α → Option β) (items : List α) :
    (distinct (items.filterMap image)).Pairwise fun earlier later =>
      firstPlace image items earlier < firstPlace image items later := by
  induction items using List.reverseRecOn with
  | nil => exact .nil
  | append_singleton items last ih =>
      have before : (distinct (items.filterMap image)).Pairwise fun earlier later =>
          firstPlace image (items ++ [last]) earlier < firstPlace image (items ++ [last]) later := by
        refine ih.imp_of_mem fun isEarlier isLater less => ?_
        rw [firstPlace_append, firstPlace_append, if_pos (mem_distinct.mp isEarlier),
          if_pos (mem_distinct.mp isLater)]
        exact less
      rw [List.filterMap_append]
      cases isImage : image last with
      | none =>
          rw [List.filterMap_cons_none isImage, List.filterMap_nil, List.append_nil]
          exact before
      | some value =>
          rw [List.filterMap_cons_some isImage, List.filterMap_nil, distinct, List.foldl_append]
          change (insertNew (distinct (items.filterMap image)) value).Pairwise _
          unfold insertNew
          split
          · exact before
          · rename_i new
            refine List.pairwise_append.mpr ⟨before, List.pairwise_singleton _ _, ?_⟩
            intro earlier isEarlier later isLast
            obtain rfl := List.mem_singleton.mp isLast
            -- no item before the last one has the new image
            have isOld : earlier ∈ items.filterMap image := mem_distinct.mp isEarlier
            rw [firstPlace_append, firstPlace_append, if_pos isOld,
              if_neg (mt mem_distinct.mpr new)]
            exact Nat.lt_add_left _ (firstPlace_lt_length_iff.mpr isOld)

end Places

/-! ## What a record says -/

/-- The type is defined in the assembly and the namespace of the record, and the assembly is
not dynamic. -/
def Catalog.DefinedAt (catalog : Catalog) (type : TypeId) (record : ImportRecord) : Prop :=
  ∃ entry assembly, catalog.find? type = some entry ∧
    catalog.assembly? entry.assembly = some assembly ∧ assembly.isDynamic = false ∧
    assembly.name.name = record.assembly ∧ entry.namespaceName = record.namespaceName

namespace ImportSettings

variable {catalog : Catalog} {type : TypeId} {record : ImportRecord}

theorem recordOf?_eq_some_iff :
    recordOf? catalog type = some record ↔ catalog.DefinedAt type record := by
  obtain ⟨name, namespaceName⟩ := record
  cases found : catalog.find? type with
  | none => simp [recordOf?, Catalog.DefinedAt, found]
  | some entry =>
      have defining : catalog.assemblyOf? type = catalog.assembly? entry.assembly := by
        rw [Catalog.assemblyOf?, found, Option.bind_some]
      cases isAssembly : catalog.assembly? entry.assembly with
      | none => simp [recordOf?, Catalog.DefinedAt, found, defining, isAssembly]
      | some assembly =>
          cases dynamic : assembly.isDynamic <;>
            simp [recordOf?, Catalog.DefinedAt, found, defining, isAssembly, dynamic]

theorem mem_ofTypes_iff {types : List TypeId} :
    record ∈ (ofTypes catalog types).records ↔
      ∃ type ∈ types, catalog.DefinedAt type record := by
  simp only [ofTypes, ofRecords, mem_distinct, List.mem_filterMap, recordOf?_eq_some_iff]

/-- A type is defined by default if the assembly of its record is a default one. -/
theorem defines_eq_contains (defined : catalog.DefinedAt type record)
    (defaults : DefaultAssemblies) :
    defaults.defines catalog type = defaults.contains record.assembly := by
  obtain ⟨entry, assembly, found, isAssembly, _, sameName, _⟩ := defined
  simp only [DefaultAssemblies.defines, Catalog.assemblyOf?, found, Option.bind_some, isAssembly,
    Option.any_some, sameName]

/-! ## Which records an expression has -/

/-- **Filtering and order of records.** A record of a default assembly is there exactly if
some direct anchor is defined at it. Any other record is there exactly if some anchor or some
type above an anchor is defined at it. No record occurs twice, and the records stand in the
order in which their first types were collected. -/
theorem records_iff_anchored (reached : catalog.Reached) (defaults : DefaultAssemblies)
    (tree : Tree) :
    let types := tree.typeReferences catalog defaults
    let records := (ofTypes catalog types).records
    let anchored := tree.AnchoredBy catalog (Tree.Contributes catalog)
    (∀ record, defaults.contains record.assembly = true →
      (record ∈ records ↔ ∃ anchor, anchored anchor true ∧ catalog.DefinedAt anchor record)) ∧
    (∀ record, defaults.contains record.assembly = false →
      (record ∈ records ↔ ∃ anchor isDirect type, anchored anchor isDirect ∧
        (type = anchor ∨ catalog.IsAbove anchor type) ∧ catalog.DefinedAt type record)) ∧
    records.Nodup ∧
    records.Pairwise fun earlier later =>
      firstPlace (recordOf? catalog) types earlier <
        firstPlace (recordOf? catalog) types later := by
  intro types records anchored
  have collected (type : TypeId) : type ∈ types ↔ catalog.Needed defaults anchored type := by
    simp only [types, anchored, Tree.typeReferences, Closure.visit,
      Closure.mem_addAnchors_iff reached.ordered, Catalog.Needed,
      Tree.mem_anchors_iff reached.ordered, Tree.AnchoredBy]
  refine ⟨fun record isDefault => ?_, fun record notDefault => ?_, nodup_distinct _,
    pairwise_firstPlace_distinct _ _⟩
  · refine mem_ofTypes_iff.trans ⟨?_, ?_⟩
    · rintro ⟨type, inside, defined⟩
      have byDefault := (defines_eq_contains defined defaults).trans isDefault
      obtain ⟨anchor, isDirect, isAnchor, ⟨rfl, kept⟩ | ⟨needed, _⟩⟩ := (collected type).mp inside
      · obtain rfl : isDirect = true := kept.resolve_right (by simp [byDefault])
        exact ⟨type, isAnchor, defined⟩
      · simp [byDefault] at needed
    · rintro ⟨anchor, isAnchor, defined⟩
      exact ⟨anchor, (collected anchor).mpr ⟨anchor, true, isAnchor, .inl ⟨rfl, .inl rfl⟩⟩,
        defined⟩
  · refine mem_ofTypes_iff.trans ⟨?_, ?_⟩
    · rintro ⟨type, inside, defined⟩
      obtain ⟨anchor, isDirect, isAnchor, ⟨same, _⟩ | ⟨_, climbs⟩⟩ := (collected type).mp inside
      · exact ⟨anchor, isDirect, type, isAnchor, .inl same, defined⟩
      · exact ⟨anchor, isDirect, type, isAnchor, .inr climbs, defined⟩
    · rintro ⟨anchor, isDirect, type, isAnchor, meets, defined⟩
      have notByDefault := (defines_eq_contains defined defaults).trans notDefault
      refine ⟨type, (collected type).mpr ⟨anchor, isDirect, isAnchor, ?_⟩, defined⟩
      rcases meets with same | climbs
      · exact .inl ⟨same, .inr notByDefault⟩
      · exact .inr ⟨notByDefault, climbs⟩

/-- Where customers are defined by default, a variable of their type has no record for them,
but one for an interface that is above them. -/
theorem records_owner :
    Catalog.Crm.catalog.Reached ∧
      ⟨"Contoso.Crm", some "Contoso.Crm"⟩ ∉ (ofTypes Catalog.Crm.catalog
        ((Tree.parameter ⟨"owner", Catalog.Crm.customer⟩).typeReferences Catalog.Crm.catalog
          ⟨["Contoso.Crm"]⟩)).records ∧
      ⟨"System.Private.CoreLib", some "System"⟩ ∈ (ofTypes Catalog.Crm.catalog
        ((Tree.parameter ⟨"owner", Catalog.Crm.customer⟩).typeReferences Catalog.Crm.catalog
          ⟨["Contoso.Crm"]⟩)).records := by
  obtain ⟨ofDefaults, ofOthers, _⟩ := records_iff_anchored Catalog.Crm.built_catalog.reached
    ⟨["Contoso.Crm"]⟩ (.parameter ⟨"owner", Catalog.Crm.customer⟩)
  refine ⟨Catalog.Crm.built_catalog.reached, fun present => ?_, (ofOthers _ (by decide)).mpr ?_⟩
  · obtain ⟨anchor, ⟨node, named, occurs, contributes, _⟩, _⟩ :=
      (ofDefaults _ (by decide)).mp present
    cases occurs with
    | root => rcases contributes with mentions | produces <;> contradiction
    | inChild isChild _ => exact absurd isChild List.not_mem_nil
  · have toComparable : Catalog.Crm.catalog.StepsUp Catalog.Crm.customer CoreType.comparable :=
      .interface (by decide +kernel)
    exact ⟨Catalog.Crm.customer, false, CoreType.comparable,
      ⟨_, _, .root, .inl (.parameter _), .itself (by decide +kernel)⟩, .inr (.single toComparable),
      recordOf?_eq_some_iff.mp (by decide +kernel)⟩

end ImportSettings

end ExprImports
