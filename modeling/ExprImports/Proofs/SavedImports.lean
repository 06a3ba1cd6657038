import ExprImports.Proofs.Json.RoundTrip
import ExprImports.SavedImports

/-!
# Imports that survive saving

The reader of saved imports takes more than the writer produces: records in another order of
keys, with a null for a namespace, as arrays, and twice. Whatever it takes, the settings that come
of it can be saved and loaded without a change, and so can those to which records were added
(`ImportSettings.load?_save`). Settings are lists, so this is about the order of the records too.
-/

set_option autoImplicit false

namespace ExprImports

namespace ImportRecord

theorem toJson_isPlain (record : ImportRecord) : record.toJson.IsPlain := by
  obtain ⟨assembly, _ | name⟩ := record
  · refine .object fun entry inside => ?_
    obtain rfl := List.mem_singleton.mp inside
    exact .text assembly
  · refine .object fun entry inside => ?_
    cases inside with
    | head => exact .text assembly
    | tail _ inside =>
      obtain rfl := List.mem_singleton.mp inside
      exact .text name

/-- A record that is saved is read back. -/
theorem ofJson?_toJson (record : ImportRecord) : ofJson? record.toJson = some record := by
  have distinctKeys : namespaceKey ≠ assemblyKey := by decide
  obtain ⟨assembly, _ | name⟩ := record
  · simp [toJson, ofJson?, Json.Value.record?, Json.recordOfEntries?, fields, namespaceOfJson?,
      Json.Value.text?, distinctKeys.symm]
  · simp [toJson, ofJson?, Json.Value.record?, Json.recordOfEntries?, fields, namespaceOfJson?,
      Json.Value.text?, distinctKeys, distinctKeys.symm]

theorem mapM_ofJson?_toJson (records : List ImportRecord) :
    records.mapM (ofJson? ∘ toJson) = some records := by
  induction records with
  | nil => rfl
  | cons record records ih => simp [ofJson?_toJson, ih]

end ImportRecord

namespace ImportSettings

theorem toJson_isPlain (settings : ImportSettings) : settings.toJson.IsPlain := by
  refine .object fun entry inside => ?_
  obtain rfl := List.mem_singleton.mp inside
  refine .array fun item inside => ?_
  obtain ⟨record, _, rfl⟩ := List.mem_map.mp inside
  exact record.toJson_isPlain

/-- Loading what was saved leaves out the records that stand twice, and does nothing else. -/
theorem load?_save_eq (settings : ImportSettings) :
    load? settings.save = some (ofRecords settings.records) := by
  rw [load?, save, Json.parse?_compact settings.toJson_isPlain]
  simp [toJson, toEntries, ofJson?, Json.Value.record?, Json.recordOfEntries?, fields,
    Json.Value.items?, ImportRecord.mapM_ofJson?_toJson]

/-- Settings that come of added records and loaded texts. -/
inductive Reached : ImportSettings → Prop where
  | empty : Reached {}
  | insert {settings : ImportSettings} (reached : Reached settings) (record : ImportRecord) :
      Reached (settings.insert record)
  | loaded {text : String} {settings : ImportSettings} (found : load? text = some settings) :
      Reached settings

theorem exists_records_of_ofJson? {value : Json.Value} {settings : ImportSettings}
    (found : ofJson? value = some settings) : ∃ records, settings = ofRecords records := by
  unfold ofJson? at found
  split at found
  · simp only [Option.bind_eq_bind, Option.bind_eq_some_iff, Option.pure_def,
      Option.some.injEq] at found
    obtain ⟨items, _, records, _, rfl⟩ := found
    exact ⟨records, rfl⟩
  · cases found

/-- No record stands twice in settings that can be reached. -/
theorem Reached.nodup {settings : ImportSettings} (reached : settings.Reached) :
    settings.records.Nodup := by
  induction reached with
  | empty => exact List.nodup_nil
  | insert reached record ih => exact nodup_insertNew ih
  | loaded found =>
    obtain ⟨value, _, found⟩ := Option.bind_eq_some_iff.mp found
    obtain ⟨records, rfl⟩ := exists_records_of_ofJson? found
    exact nodup_distinct records

/-- **Saved imports survive saving**: settings are loaded as they were saved exactly if they come of
added records and loaded texts, and those that any text saves do. -/
theorem load?_save :
    (∀ settings : ImportSettings, load? settings.save = some settings ↔ settings.Reached) ∧
      ∀ (text : String) (settings : ImportSettings),
        load? text = some settings → load? settings.save = some settings := by
  have survives {settings : ImportSettings} (reached : settings.Reached) :
      load? settings.save = some settings := by
    rw [load?_save_eq, ofRecords, distinct_of_nodup reached.nodup]
  exact ⟨fun settings => ⟨.loaded, survives⟩, fun text settings found => survives (.loaded found)⟩

/-- A text whose records are written in every way that is read. -/
def looseText : String :=
  "\x7b\"import-references\": [[\"Contoso.Crm\"], " ++
    "\x7b\"import\": null, \"assembly\": \"Contoso.Crm\"\x7d, " ++
      "[\"Contoso.Crm\", \"\"]]\x7d"

theorem load?_looseText_save :
    load? looseText = some ⟨[⟨"Contoso.Crm", none⟩, ⟨"Contoso.Crm", some ""⟩]⟩ ∧
      load? (ImportSettings.save ⟨[⟨"Contoso.Crm", none⟩, ⟨"Contoso.Crm", some ""⟩]⟩) =
        some ⟨[⟨"Contoso.Crm", none⟩, ⟨"Contoso.Crm", some ""⟩]⟩ := by
  have found : load? looseText = some ⟨[⟨"Contoso.Crm", none⟩, ⟨"Contoso.Crm", some ""⟩]⟩ := by
    decide +kernel
  exact ⟨found, load?_save.2 _ _ found⟩

end ImportSettings

end ExprImports
