import ExprImports.Proofs.Recompilation.Stages

/-!
# Registries of text factories

The registry with which a recompiler starts makes text factories and nothing else, and it
stays such a registry whatever is recompiled with it (`IsText`). It builds a node for every
type that is known and in which no generic parameter occurs, to be read as well as to be
assigned to, and for no other type (`IsText.materialize_eq_ok_iff`).
-/

set_option autoImplicit false

namespace ExprImports

namespace FactoryRegistry

variable {registry : FactoryRegistry} {catalog : Catalog} {language : String} {type : TypeId}
  {mode : Mode} {text : String}

/-- A node is built by the factory of the type, and it is the node that was asked for. -/
theorem materialize_eq_ok_iff {node : Activity} :
    (registry.materialize catalog type mode text).1 = .ok node ↔
      ∃ factory, (registry.resolve catalog type).1 = .ok factory ∧
        factory.build mode text = .ok node ∧ node.resultType = type ∧ node.mode = mode := by
  unfold materialize checkNode
  constructor
  · intro done
    obtain ⟨factory, resolved, done⟩ := exists_of_bind_eq_ok done
    obtain ⟨built, isBuilt, done⟩ := exists_of_bind_eq_ok done
    split at done
    · rename_i asked
      cases done
      rw [Bool.and_eq_true, decide_eq_true_eq, decide_eq_true_eq] at asked
      exact ⟨factory, resolved, isBuilt, asked⟩
    · cases done
  · rintro ⟨factory, resolved, isBuilt, rfl, rfl⟩
    simp only [resolved, isBuilt, Except.bind, decide_true, Bool.and_self, if_true]

/-! ## The invariant -/

/-- The registry makes text factories in a language, none was registered in place of them,
and those that it remembers are for types that are not open. -/
structure IsText (registry : FactoryRegistry) (catalog : Catalog) (language : String) : Prop where
  family : registry.family = (FactoryRegistry.text language).family
  unregistered : registry.registered = []
  remembered : ∀ {type factory}, registry.cached.lookup type = some factory →
    factory = .text type language ∧ catalog.isOpen type = false

theorem isText_text (catalog : Catalog) (language : String) :
    (FactoryRegistry.text language).IsText catalog language where
  family := rfl
  unregistered := rfl
  remembered := nofun

section Text

variable (isText : registry.IsText catalog language)
include isText

/-- A type that is known is refused if it is open; otherwise its text factory is remembered
or made. -/
theorem IsText.origin_cases (known : catalog.has type = true) :
    (catalog.isOpen type = true ∧ registry.origin catalog type = .refused) ∨
      (catalog.isOpen type = false ∧
        (registry.origin catalog type = .cached (.text type language) ∨
          registry.origin catalog type = .made (.text type language))) := by
  unfold origin
  rw [if_neg (by simp [known]), isText.unregistered, List.lookup_nil]
  cases isCached : registry.cached.lookup type with
  | some factory =>
      obtain ⟨rfl, closed⟩ := isText.remembered isCached
      exact .inr ⟨closed, .inl rfl⟩
  | none =>
      rw [isText.family]
      cases isOpen : catalog.isOpen type with
      | true => exact .inl ⟨rfl, by simp [FactoryRegistry.text, isOpen]⟩
      | false => exact .inr ⟨rfl, .inr (by simp [FactoryRegistry.text, isOpen])⟩

/-- The factory of a type that is known and not open is its text factory. -/
theorem IsText.resolve_eq_ok_iff {factory : Factory} :
    (registry.resolve catalog type).1 = .ok factory ↔
      catalog.has type = true ∧ catalog.isOpen type = false ∧ factory = .text type language := by
  cases known : catalog.has type with
  | false => simp [resolve, origin, known]
  | true =>
      obtain ⟨isOpen, refused⟩ | ⟨closed, remembered | made⟩ := isText.origin_cases known
      · simp [resolve, refused, isOpen]
      · simp [resolve, remembered, closed, eq_comm]
      · simp [resolve, made, closed, eq_comm]

/-- Looking for a factory leaves a registry of text factories behind. -/
theorem IsText.resolve (type : TypeId) :
    (registry.resolve catalog type).2.IsText catalog language := by
  cases known : catalog.has type with
  | false =>
      simp only [FactoryRegistry.resolve, origin, known, Bool.not_false, if_true]
      exact isText
  | true =>
      obtain ⟨_, refused⟩ | ⟨closed, remembered | made⟩ := isText.origin_cases known
      · simp only [FactoryRegistry.resolve, refused]
        exact isText
      · simp only [FactoryRegistry.resolve, remembered]
        exact isText
      · simp only [FactoryRegistry.resolve, made]
        refine { family := isText.family, unregistered := isText.unregistered,
                 remembered := fun {other factory} isCached => ?_ }
        rw [List.lookup_cons] at isCached
        split at isCached
        · rename_i same
          obtain rfl := beq_iff_eq.mp same
          cases isCached
          exact ⟨rfl, closed⟩
        · exact isText.remembered isCached

/-- **Which nodes there are.** Whether a node is built depends on its type alone, and the node
holds the text. -/
theorem IsText.materialize_eq_ok_iff {node : Activity} :
    (registry.materialize catalog type mode text).1 = .ok node ↔
      catalog.has type = true ∧ catalog.isOpen type = false ∧
        node = { mode, resultType := type, language, text } := by
  rw [FactoryRegistry.materialize_eq_ok_iff]
  constructor
  · rintro ⟨factory, resolved, built, _⟩
    obtain ⟨known, closed, rfl⟩ := isText.resolve_eq_ok_iff.mp resolved
    exact ⟨known, closed, (Except.ok.inj built).symm⟩
  · rintro ⟨known, closed, rfl⟩
    exact ⟨_, isText.resolve_eq_ok_iff.mpr ⟨known, closed, rfl⟩, rfl, rfl, rfl⟩

end Text

end FactoryRegistry

/-! ## Recompiling one text after another -/

namespace Recompiler

/-- The recompiler with the factories that are left behind by a request. -/
def next (recompiler : Recompiler) (request : Request) : Recompiler :=
  { recompiler with factories := (recompiler.recompile request).2 }

/-- The recompiler after requests, one after the other. -/
def after (recompiler : Recompiler) (requests : List Request) : Recompiler :=
  requests.foldl next recompiler

/-- A recompilation looks for the factory of one type at most. -/
theorem factories_next (recompiler : Recompiler) (request : Request) :
    (recompiler.next request).factories = recompiler.factories ∨
      ∃ type, (recompiler.next request).factories =
        (recompiler.factories.resolve recompiler.catalog type).2 := by
  simp only [next, recompile]
  split
  · exact .inl rfl
  · split
    · exact .inl rfl
    · exact .inl rfl
    · split
      · exact .inl rfl
      · split
        · exact .inl rfl
        · exact .inr ⟨_, rfl⟩

/-- No request makes a registry of text factories another one. -/
theorem isText_next {recompiler : Recompiler} {language : String}
    (isText : recompiler.factories.IsText recompiler.catalog language) (request : Request) :
    (recompiler.next request).factories.IsText recompiler.catalog language := by
  obtain same | ⟨type, same⟩ := recompiler.factories_next request
  · rw [same]
    exact isText
  · rw [same]
    exact isText.resolve type

/-- After any requests there are still text factories, and nothing else has changed. -/
theorem isText_after {recompiler : Recompiler} {language : String}
    (isText : recompiler.factories.IsText recompiler.catalog language) (requests : List Request) :
    ∃ left, recompiler.after requests = { recompiler with factories := left } ∧
      left.IsText recompiler.catalog language := by
  induction requests generalizing recompiler with
  | nil => exact ⟨recompiler.factories, rfl, isText⟩
  | cons request rest ih => exact ih (isText_next isText request)

end Recompiler

end ExprImports
