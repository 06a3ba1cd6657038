import ExprImports.Proofs.Schema.Arrays
import ExprImports.Proofs.Schema.Effects

/-!
# Names that loading keeps

A schema cannot take a name away from the type that has it: a type is not declared under a name
that is known. Instantiations are made without asking, but their names are bracketed. So a name
without brackets that stands for a type before loading stands for it ever after
(`keepsNames_loadAll`), and the core types are found by their names in every loaded schema
(`Schema.IsLoaded.findType?_core`).
-/

set_option autoImplicit false

namespace ExprImports

namespace Catalog

theorem Interns.defineAssembly (catalog : Catalog) (name : AssemblyName) (isDynamic : Bool) :
    Interns catalog (catalog.defineAssembly name isDynamic).2 :=
  .of_names_eq (steps_defineAssembly catalog name isDynamic).extends
    (names_defineAssembly catalog name isDynamic)

end Catalog

namespace Schema

open Catalog (Continues Interns)

/-! ## Steps that leave a related catalog -/

/-- If the step is made in a built catalog, then the catalog afterwards is a built one to which the
one before is related. -/
def Leaves {α : Type} (related : Catalog → Catalog → Prop) (step : Load α) : Prop :=
  ∀ ⦃before after : Catalog⦄ ⦃result : α⦄, before.Built → step before = .ok (result, after) →
    after.Built ∧ related before after

/-- The step adds arrays and instantiations only. -/
abbrev OnlyInterns {α : Type} (step : Load α) : Prop :=
  Leaves Interns step

/-- The step keeps all names without brackets. -/
abbrev KeepsNames {α : Type} (step : Load α) : Prop :=
  Leaves Continues step

instance : Std.Refl Interns := ⟨.refl⟩

instance : IsTrans Catalog Interns := ⟨fun _ _ _ => .trans⟩

instance : Std.Refl Continues := ⟨fun catalog => (Interns.refl catalog).continues⟩

instance : IsTrans Catalog Continues := ⟨fun _ _ _ => .trans⟩

section Steps

variable {α β : Type}

theorem OnlyInterns.keepsNames {step : Load α} (interns : OnlyInterns step) : KeepsNames step :=
  fun _ _ _ built done => (interns built done).imp_right (·.continues)

variable {related : Catalog → Catalog → Prop}

theorem leaves_modify {change : Catalog → Catalog}
    (each : ∀ {catalog : Catalog}, catalog.Built →
      (change catalog).Built ∧ related catalog (change catalog)) :
    Leaves related (modify change) := by
  intro before after result built done
  cases done
  exact each built

variable [Std.Refl related]

theorem leaves_pure (value : α) : Leaves related (pure value) := by
  intro before after result built done
  cases done
  exact ⟨built, refl_of related before⟩

theorem leaves_get : Leaves related (get : Load Catalog) := by
  intro before after result built done
  cases done
  exact ⟨built, refl_of related before⟩

variable [IsTrans Catalog related]

omit [Std.Refl related] in
theorem Leaves.bind {first : Load α} {next : α → Load β} (start : Leaves related first)
    (continues : ∀ value, Leaves related (next value)) : Leaves related (first >>= next) := by
  intro before after result built done
  obtain ⟨value, middle, found, done⟩ := exists_of_load_bind done
  obtain ⟨builtMiddle, here⟩ := start built found
  obtain ⟨builtAfter, further⟩ := continues value builtMiddle done
  exact ⟨builtAfter, trans_of related here further⟩

/-- A round of a loop that changes the catalog and goes on. -/
theorem leaves_record {change : Catalog → Catalog}
    (each : ∀ {catalog : Catalog}, catalog.Built →
      (change catalog).Built ∧ related catalog (change catalog)) :
    Leaves related (do modify change; pure (ForInStep.yield PUnit.unit)) :=
  (leaves_modify each).bind fun _ => leaves_pure _

theorem leaves_forIn {items : List α} {state : β} {round : α → β → Load (ForInStep β)}
    (each : ∀ item state, Leaves related (round item state)) :
    Leaves related (forIn items state round) := by
  induction items generalizing state with
  | nil => exact leaves_pure state
  | cons item rest ih =>
      rw [List.forIn_cons]
      refine (each item state).bind fun outcome => ?_
      cases outcome with
      | done final => exact leaves_pure final
      | yield state => exact ih

theorem leaves_mapM {items : List α} {step : α → Load β}
    (each : ∀ item, Leaves related (step item)) : Leaves related (items.mapM step) := by
  induction items with
  | nil => exact leaves_pure []
  | cons item rest ih =>
      rw [List.mapM_cons]
      exact (each item).bind fun _ => ih.bind fun _ => leaves_pure _

end Steps

/-! ## Types and members -/

theorem onlyInterns_resolve (namespaceName : Option String) (referrer : Referrer) (text : String) :
    OnlyInterns (resolve namespaceName referrer text) := by
  intro before after type built done
  have resolved := mapError_eq_ok_iff.mp done
  exact ⟨(growth_of_resolve built _ resolved).1.built, interns_of_resolve built _ resolved⟩

theorem onlyInterns_resolveAll (namespaceName : Option String) (referrer : Referrer)
    (texts : List String) : OnlyInterns (resolveAll namespaceName referrer texts) :=
  leaves_mapM (onlyInterns_resolve namespaceName referrer)

theorem onlyInterns_baseOf (declared : DeclaredType) : OnlyInterns (baseOf declared) := by
  unfold baseOf
  cases declared.base with
  | none => exact leaves_pure _
  | some text =>
      intro before after base built done
      obtain ⟨made, resolved, same⟩ := exists_of_map_eq_ok done
      cases same
      exact onlyInterns_resolve _ _ _ built resolved

/-- **A declared type takes its name from no other one.** A name in brackets it might take, as its
base type and its interfaces are resolved after the name was looked up. -/
theorem keepsNames_declare (declared : DeclaredType) : KeepsNames declared.declare := by
  intro before after type built done
  refine ⟨(grows_declare declared built done).1.built, ?_⟩
  rw [declare_eq] at done
  cases isAssembly : before.findAssembly? declared.assembly with
  | none =>
      rw [isAssembly] at done
      cases done
  | some assembly =>
      rw [isAssembly] at done
      cases unknown : declared.isKnown before with
      | true =>
          rw [unknown] at done
          cases done
      | false =>
          rw [unknown] at done
          obtain ⟨⟨base, middle⟩, isBase, done⟩ := exists_of_bind_eq_ok done
          obtain ⟨⟨interfaces, last⟩, areInterfaces, done⟩ := exists_of_bind_eq_ok done
          cases done
          obtain ⟨builtMiddle, first⟩ := onlyInterns_baseOf declared built isBase
          obtain ⟨_, second⟩ := onlyInterns_resolveAll _ _ _ builtMiddle areInterfaces
          have interns := first.trans second
          refine ⟨(Catalog.extends_defineAs last _ _).trans interns.kept, ?_⟩
          intro name type plain stands
          have apart : name ≠ declared.recordedName := by
            rintro rfl
            rw [findType?_recordedName_eq_none unknown] at stands
            cases stands
          exact (Catalog.findType?_define_of_ne apart).trans
            ((interns.findType?_eq plain).trans stands)

/-! ## Members -/

/-- A round of a loop that changes one entry and goes on. -/
theorem keepsNames_record {type : TypeId} {change : TypeEntry → TypeEntry}
    (declares : ∀ entry : TypeEntry, entry.Declares type (change entry))
    (built : ∀ {catalog : Catalog}, catalog.Built → (catalog.modify type change).Built) :
    KeepsNames (do modify (·.modify type change); pure (ForInStep.yield PUnit.unit)) :=
  leaves_record fun before => ⟨built before, Catalog.continues_modify declares⟩

theorem keepsNames_resolve (namespaceName : Option String) (referrer : Referrer) (text : String) :
    KeepsNames (resolve namespaceName referrer text) :=
  (onlyInterns_resolve namespaceName referrer text).keepsNames

theorem keepsNames_resolveAll (namespaceName : Option String) (referrer : Referrer)
    (texts : List String) : KeepsNames (resolveAll namespaceName referrer texts) :=
  (onlyInterns_resolveAll namespaceName referrer texts).keepsNames

theorem keepsNames_addMembers (declared : DeclaredType) (type : TypeId) :
    KeepsNames (declared.addMembers type) := by
  unfold DeclaredType.addMembers
  refine leaves_get.bind fun catalog => ?_
  refine (leaves_forIn fun property _ => ?_).bind fun _ => ?_
  · refine (keepsNames_resolve _ _ _).bind fun _ => ?_
    exact keepsNames_record (fun _ => .member _ rfl) (·.addMember ..)
  refine (leaves_forIn fun field _ => ?_).bind fun _ => ?_
  · refine (keepsNames_resolve _ _ _).bind fun _ => ?_
    exact keepsNames_record (fun _ => .member _ rfl) (·.addMember ..)
  refine (leaves_forIn fun method _ => ?_).bind fun _ => ?_
  · refine (keepsNames_resolveAll _ _ _).bind fun _ => ?_
    dsimp only
    split
    · refine (keepsNames_resolve _ _ _).bind fun _ => ?_
      exact keepsNames_record (fun _ => .method _ rfl) (·.addMethod ..)
    · refine (leaves_pure _).bind fun _ => ?_
      exact keepsNames_record (fun _ => .method _ rfl) (·.addMethod ..)
  refine (leaves_forIn fun constructor _ => ?_).bind fun _ => ?_
  · refine (keepsNames_resolveAll _ _ _).bind fun _ => ?_
    exact keepsNames_record (fun _ => .constructor _ rfl) (·.addConstructor ..)
  refine (leaves_forIn fun indexer _ => ?_).bind fun _ => leaves_pure _
  refine (keepsNames_resolveAll _ _ _).bind fun _ => (keepsNames_resolve _ _ _).bind fun _ => ?_
  exact keepsNames_record (fun _ => .method _ rfl) (·.addIndexer ..)

/-! ## Whole schemas -/

/-- **Loading keeps all names without brackets.** -/
theorem keepsNames_loadAll (declarations : Declarations) : KeepsNames (loadAll declarations) := by
  unfold loadAll
  refine (leaves_forIn fun assembly _ => leaves_record fun built => ?_).bind fun _ => ?_
  · exact ⟨built.defineAssembly _ _, (Interns.defineAssembly _ _ _).continues⟩
  refine (leaves_mapM keepsNames_declare).bind fun types => ?_
  refine (leaves_forIn fun pair _ => ?_).bind fun _ => ?_
  · exact (keepsNames_addMembers _ _).bind fun _ => leaves_pure _
  refine (leaves_forIn fun binding environment => ?_).bind fun environment => leaves_pure _
  exact (keepsNames_resolve _ _ _).bind fun _ => leaves_pure _

/-- **A name without brackets that stands for a core type stands for it in every loaded schema.** -/
theorem IsLoaded.findType?_eq {schema : Schema} (loaded : schema.IsLoaded) {name : String}
    {type : TypeId} (plain : ¬ IsBracketed name)
    (stands : Catalog.initial.findType? name = some type) :
    schema.catalog.findType? name = some type := by
  obtain ⟨text, done⟩ | rfl := loaded
  · unfold ofText at done
    split at done
    · cases done
    · obtain ⟨⟨environment, catalog⟩, found, done⟩ := exists_of_bind_eq_ok done
      cases done
      have kept := (keepsNames_loadAll _ .initial found).2.names name type plain stands
      rw [Catalog.findType?, names_withArrays, ← Catalog.findType?, kept]
  · rw [core, Catalog.findType?, names_withArrays, ← Catalog.findType?, stands]

theorem IsLoaded.built {schema : Schema} (loaded : schema.IsLoaded) : schema.catalog.Built := by
  obtain ⟨text, done⟩ | rfl := loaded
  · exact built_of_ofText done
  · exact built_core

/-- **Every core type is found by its full name.** -/
theorem IsLoaded.findType?_fullName {schema : Schema} (loaded : schema.IsLoaded) {type : TypeId}
    (core : type.isCore = true) :
    schema.catalog.findType? (schema.catalog.fullName type) = some type := by
  have all : ∀ position < CoreType.count,
      ¬ IsBracketed (Catalog.initial.fullName (.entry position)) ∧
        Catalog.initial.findType? (Catalog.initial.fullName (.entry position)) =
          some (.entry position) := by
    decide +kernel
  cases type with
  | null => cases core
  | entry position =>
      have inside : position < CoreType.count := of_decide_eq_true core
      obtain ⟨plain, stands⟩ := all position inside
      have bounded : (TypeId.entry position).height ≤ CoreType.count := inside
      rw [loaded.built.fullName_core bounded, loaded.findType?_eq plain stands]

end Schema

end ExprImports
