import ExprImports.Proofs.Recompilation.Replay

/-!
# Hints are sets

Of two lists of hints a compilation uses only which namespaces and which simple names of
assemblies they give (`ImportHints.GivesNamespace`, `ImportHints.GivesAssembly`). The namespaces
are searched in alphabetical order, so their own order is lost (`searchedNamespaces_congr`), and
of an assembly only the simple name is compared (`missingAssembly?_congr`). So a recompilation
has the same outcome, and leaves the same factories behind, in whatever order and however often
the entries are given (`recompile_ofLists`).
-/

set_option autoImplicit false

namespace ExprImports

/-! ## What lists of hints give -/

namespace ImportHints

/-- An entry is this namespace, possibly with blanks around it. -/
def GivesNamespace (entries : List (Option String)) (name : String) : Prop :=
  name ≠ "" ∧ ∃ entry, some entry ∈ entries ∧ Text.trim entry = name

/-- An entry is the display form of an assembly with this simple name. -/
def GivesAssembly (entries : List (Option String)) (simpleName : String) : Prop :=
  ∃ entry assembly, some entry ∈ entries ∧ AssemblyName.ofDisplay? entry = some assembly ∧
    assembly.name = simpleName

theorem foldl_addAssembly_eq (entries : List String) (hints : ImportHints) :
    entries.foldl addAssembly hints =
      { hints with
        assemblies := (entries.filterMap AssemblyName.ofDisplay?).foldl insertNew
          hints.assemblies } := by
  induction entries generalizing hints with
  | nil => rfl
  | cons entry rest ih =>
      rw [List.foldl_cons, ih, addAssembly]
      cases isName : AssemblyName.ofDisplay? entry with
      | none => rw [List.filterMap_cons_none isName]
      | some assembly => rw [List.filterMap_cons_some isName, List.foldl_cons]

/-- The hints of two lists are the distinct namespaces and assemblies that they give. -/
theorem ofLists_eq (namespaces assemblies : List (Option String)) :
    ofLists namespaces assemblies =
      { namespaces := distinct (((namespaces.filterMap id).map Text.trim).filter (· ≠ ""))
        assemblies := distinct ((assemblies.filterMap id).filterMap AssemblyName.ofDisplay?) } := by
  rw [ofLists, foldl_addNamespace_eq, foldl_addAssembly_eq]
  rfl

theorem mem_namespaces_ofLists (namespaces assemblies : List (Option String)) {name : String} :
    name ∈ (ofLists namespaces assemblies).namespaces ↔ GivesNamespace namespaces name := by
  rw [ofLists_eq]
  simp only [mem_distinct, List.mem_filter, List.mem_map, List.mem_filterMap, id_eq,
    exists_eq_right, decide_eq_true_eq, GivesNamespace]
  exact and_comm

theorem mem_assemblies_ofLists (namespaces assemblies : List (Option String))
    {simpleName : String} :
    (∃ hint ∈ (ofLists namespaces assemblies).assemblies, hint.name = simpleName) ↔
      GivesAssembly assemblies simpleName := by
  rw [ofLists_eq]
  simp only [mem_distinct, List.mem_filterMap, id_eq, exists_eq_right, GivesAssembly]
  constructor
  · rintro ⟨assembly, ⟨entry, isEntry, isName⟩, same⟩
    exact ⟨entry, assembly, isEntry, isName, same⟩
  · rintro ⟨entry, assembly, isEntry, isName, same⟩
    exact ⟨assembly, ⟨entry, isEntry, isName⟩, same⟩

theorem nodup_namespaces_ofLists (namespaces assemblies : List (Option String)) :
    (ofLists namespaces assemblies).namespaces.Nodup := by
  rw [ofLists_eq]
  exact nodup_distinct _

/-- Blanks around a namespace, entries that give none and repetitions are dropped. -/
example : (ofLists [some " Contoso.Sales", none, some "  ", some "Contoso.Sales"] []).namespaces =
    ["Contoso.Sales"] := by
  decide +kernel

end ImportHints

/-! ## What a compilation uses of them -/

namespace Binding.Context

variable {first second : Context}

theorem searchedNamespaces_congr (distinctFirst : first.namespaces.Nodup)
    (distinctSecond : second.namespaces.Nodup)
    (same : ∀ name, name ∈ first.namespaces ↔ name ∈ second.namespaces) :
    first.searchedNamespaces = second.searchedNamespaces := by
  have permuted : (first.namespaces.filter (· ≠ systemNamespace)).Perm
      (second.namespaces.filter (· ≠ systemNamespace)) :=
    ((List.perm_ext_iff_of_nodup distinctFirst distinctSecond).mpr same).filter _
  have ordered (names : List String) :
      (names.mergeSort fun first second => first ≤ second).Pairwise (· ≤ ·) := by
    have sorted : (names.mergeSort fun first second => first ≤ second).Pairwise
        fun first second => decide (first ≤ second) = true :=
      List.pairwise_mergeSort (by simpa using fun _ _ _ => String.le_trans)
        (by simpa using String.le_total) names
    simpa using sorted
  unfold searchedNamespaces
  congr 1
  refine List.Perm.eq_of_pairwise (fun _ _ _ _ => String.le_antisymm) (ordered _) (ordered _) ?_
  exact (List.mergeSort_perm _ _).trans (permuted.trans (List.mergeSort_perm _ _).symm)

theorem candidates_congr (sameCatalog : first.catalog = second.catalog)
    (sameSearch : first.searchedNamespaces = second.searchedNamespaces) (name : String) :
    first.candidates name = second.candidates name := by
  rw [candidates, candidates, sameCatalog, sameSearch]

/-- The simple names of the hinted assemblies decide what can be seen. -/
theorem missingAssembly?_congr (sameCatalog : first.catalog = second.catalog)
    (same : ∀ simpleName, (∃ hint ∈ first.assemblies, hint.name = simpleName) ↔
      ∃ hint ∈ second.assemblies, hint.name = simpleName) (type : TypeId) :
    first.missingAssembly? type = second.missingAssembly? type := by
  have sameEmpty : first.assemblies.isEmpty = second.assemblies.isEmpty := by
    rw [Bool.eq_iff_iff, List.isEmpty_iff, List.isEmpty_iff, List.eq_nil_iff_forall_not_mem,
      List.eq_nil_iff_forall_not_mem]
    constructor
    · intro none hint inside
      obtain ⟨other, isOther, _⟩ := (same hint.name).mpr ⟨hint, inside, rfl⟩
      exact none other isOther
    · intro none hint inside
      obtain ⟨other, isOther, _⟩ := (same hint.name).mp ⟨hint, inside, rfl⟩
      exact none other isOther
  have sameAny (simpleName : String) : first.assemblies.any (·.name == simpleName) =
      second.assemblies.any (·.name == simpleName) := by
    rw [Bool.eq_iff_iff]
    simpa using same simpleName
  unfold missingAssembly?
  simp only [sameCatalog, sameEmpty, sameAny]

end Binding.Context

/-! ## Recompilations under the same hints -/

namespace Recompiler

open Binding

variable {recompiler : Recompiler} {request : Request} {hints others : ImportHints}

/-- Contexts that search and see the same compile a text alike. -/
theorem compile_of_hints (surface : recompiler.IsSurface)
    (sameSearch : (recompiler.context { request with hints }).searchedNamespaces =
      (recompiler.context { request with hints := others }).searchedNamespaces)
    (sameMissing : ∀ type, (recompiler.context { request with hints }).missingAssembly? type =
      (recompiler.context { request with hints := others }).missingAssembly? type) :
    recompiler.compile { request with hints } =
      recompiler.compile { request with hints := others } := by
  obtain same | ⟨expression, fault, isRead, hides, reported⟩ :=
    compile_restricted_request surface { request with hints := others } request.environment hints
      fun expression isRead =>
        { catalog := rfl
          candidates := Context.candidates_congr rfl sameSearch
          lookups := fun name isMentioned => rfl
          sees := fun type seen => by
            rw [← Context.missingAssembly?_eq_none_iff] at seen ⊢
            exact (sameMissing type).symm.trans seen }
  · exact same
  · exact absurd hides (Context.not_hides sameMissing expression fault)

/-- Apart from the compilation nothing depends on the hints. -/
theorem recompile_of_compile (surface : recompiler.IsSurface)
    (same : recompiler.compile { request with hints } =
      recompiler.compile { request with hints := others }) :
    recompiler.recompile { request with hints } =
      recompiler.recompile { request with hints := others } := by
  have sameFault (compiled : Compiled) : recompiler.locationFault? { request with hints } compiled =
      recompiler.locationFault? { request with hints := others } compiled := by
    rw [locationFault?, locationFault?, surface]
    rfl
  unfold recompile
  simp only [same, sameFault]

/-- **Hints are sets.** Lists that give the same namespaces and the same simple names of
assemblies lead to the same outcome and leave the same factories behind. -/
theorem recompile_ofLists (surface : recompiler.IsSurface) (request : Request)
    {namespaces assemblies otherNamespaces otherAssemblies : List (Option String)}
    (sameNamespaces : ∀ name, ImportHints.GivesNamespace namespaces name ↔
      ImportHints.GivesNamespace otherNamespaces name)
    (sameAssemblies : ∀ simpleName, ImportHints.GivesAssembly assemblies simpleName ↔
      ImportHints.GivesAssembly otherAssemblies simpleName) :
    recompiler.recompile { request with hints := .ofLists namespaces assemblies } =
      recompiler.recompile { request with hints := .ofLists otherNamespaces otherAssemblies } := by
  refine recompile_of_compile surface (compile_of_hints surface ?_ ?_)
  · refine Context.searchedNamespaces_congr (ImportHints.nodup_namespaces_ofLists _ _)
      (ImportHints.nodup_namespaces_ofLists _ _) fun name => ?_
    exact (ImportHints.mem_namespaces_ofLists _ _).trans
      ((sameNamespaces name).trans (ImportHints.mem_namespaces_ofLists _ _).symm)
  · refine Context.missingAssembly?_congr rfl fun simpleName => ?_
    exact (ImportHints.mem_assemblies_ofLists _ _).trans
      ((sameAssemblies simpleName).trans (ImportHints.mem_assemblies_ofLists _ _).symm)

end Recompiler

namespace Sales

/-- Namespaces with blanks around them, given twice, and entries that give none. -/
def looseNamespaces : List (Option String) :=
  [some " Contoso.Sales", none, some "Contoso.Core", some "  ", some "Contoso.Sales"]

def namespaces : List (Option String) :=
  [some "Contoso.Core", some "Contoso.Sales"]

/-- An assembly that is given twice, in two versions, and an entry that names none. -/
def looseAssemblies : List (Option String) :=
  [some "Contoso.Sales, Version=1.0.0.0", some ", Version=1.0.0.0", some "Contoso.Core",
    some "Contoso.Sales, Version=2.0.0.0, Culture=neutral"]

def assemblies : List (Option String) :=
  [some "Contoso.Core, PublicKeyToken=null", some "Contoso.Sales"]

theorem givesNamespace_loose_iff (name : String) :
    ImportHints.GivesNamespace looseNamespaces name ↔
      ImportHints.GivesNamespace namespaces name := by
  have loose : (ImportHints.ofLists looseNamespaces []).namespaces =
      ["Contoso.Sales", "Contoso.Core"] := by decide +kernel
  have tidy : (ImportHints.ofLists namespaces []).namespaces =
      ["Contoso.Core", "Contoso.Sales"] := by decide +kernel
  rw [← ImportHints.mem_namespaces_ofLists looseNamespaces [], loose,
    ← ImportHints.mem_namespaces_ofLists namespaces [], tidy]
  exact (List.Perm.swap _ _ _).mem_iff

theorem givesAssembly_loose_iff (simpleName : String) :
    ImportHints.GivesAssembly looseAssemblies simpleName ↔
      ImportHints.GivesAssembly assemblies simpleName := by
  have loose : (ImportHints.ofLists [] looseAssemblies).assemblies =
      [⟨"Contoso.Sales", some "1.0.0.0", none, none⟩, ⟨"Contoso.Core", none, none, none⟩,
        ⟨"Contoso.Sales", some "2.0.0.0", some "neutral", none⟩] := by decide +kernel
  have tidy : (ImportHints.ofLists [] assemblies).assemblies =
      [⟨"Contoso.Core", none, none, some "null"⟩, ⟨"Contoso.Sales", none, none, none⟩] := by
    decide +kernel
  rw [← ImportHints.mem_assemblies_ofLists [] looseAssemblies, loose,
    ← ImportHints.mem_assemblies_ofLists [] assemblies, tidy]
  simp only [List.mem_cons, List.not_mem_nil, or_false, exists_eq_or_imp, exists_eq_left]
  rw [or_left_comm, or_self]

/-- The hints differ, but not as sets. -/
theorem recompile_looseHints :
    ImportHints.ofLists looseNamespaces looseAssemblies ≠
      ImportHints.ofLists namespaces assemblies ∧
    recompiler.recompile
        { byShortName with hints := .ofLists looseNamespaces looseAssemblies } =
      recompiler.recompile { byShortName with hints := .ofLists namespaces assemblies } :=
  ⟨by decide +kernel, Recompiler.recompile_ofLists isSurface_recompiler byShortName
    givesNamespace_loose_iff givesAssembly_loose_iff⟩

end Sales

end ExprImports
