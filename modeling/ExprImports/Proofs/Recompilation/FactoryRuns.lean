import ExprImports.Catalog.Initial
import ExprImports.Factory
import Mathlib.Data.List.Induction
import Mathlib.Data.List.TakeWhile

/-!
# Whole runs of a registry of factories

Factories are registered with a registry and looked for in it, in any order. The cache of the
registry cannot be seen in its answers: a call is answered by the factory that was registered last
for the type, or else by what the family makes of it (`answerAfter`), whatever was looked for
before.

**Asking the family.** The family is a function, so its answers do not tell how often it is
asked. `resolveBy` looks for a factory with a family in any monad; it is `resolve` where the monad
does nothing (`resolveBy_family`). A family that notes down the types for which it is asked changes
no answer (`resolveBy_noting`) and tells what one call asks (`asks`).

**Runs.** One call keeps what is known of the registry and of the notes (`Explained.step`), hence
a run of calls does (`explained_run`). What the registry answers, how often the family was asked
for a type, and what the cache holds follow from it (`run_transparent`).
-/

set_option autoImplicit false

namespace ExprImports

namespace FactoryRegistry

/-! ## Asking the family -/

section Asking

variable (registry : FactoryRegistry) (catalog : Catalog) (type : TypeId)

/-- The factory of a type, and the registry that remembers it, with a family that makes factories
in a monad. -/
def resolveBy {m : Type → Type} [Monad m] (ask : TypeId → m (Option Factory)) :
    m (Except RecompileError Factory × FactoryRegistry) :=
  if !catalog.has type then pure (.error .unknownType, registry)
  else
    match registry.registered.lookup type with
    | some factory => pure (.ok factory, registry)
    | none =>
      match registry.cached.lookup type with
      | some factory => pure (.ok factory, registry)
      | none => do
        match ← ask type with
        | some factory =>
          return (.ok factory, { registry with cached := (type, factory) :: registry.cached })
        | none => return (.error (.factoryUnavailable (catalog.fullName type)), registry)

/-- The type is known, and no factory is at hand for it. -/
structure Misses : Prop where
  known : catalog.has type = true
  unregistered : registry.registered.lookup type = none
  uncached : registry.cached.lookup type = none

/-- The answer, and the registry that remembers it, when the family has made a factory or refused
to. -/
def remember : Option Factory → Except RecompileError Factory × FactoryRegistry
  | some factory => (.ok factory, { registry with cached := (type, factory) :: registry.cached })
  | none => (.error (.factoryUnavailable (catalog.fullName type)), registry)

section Missing

variable {registry catalog type} {m : Type → Type} [Monad m] (ask : TypeId → m (Option Factory))

theorem resolveBy_of_misses (missing : registry.Misses catalog type) :
    registry.resolveBy catalog type ask =
      ask type >>= fun made => pure (registry.remember catalog type made) := by
  unfold resolveBy
  simp only [missing.known, missing.unregistered, missing.uncached, Bool.not_true,
    Bool.false_eq_true, if_false]
  apply congrArg
  funext made
  cases made <;> rfl

theorem resolve_of_misses (missing : registry.Misses catalog type) :
    registry.resolve catalog type =
      registry.remember catalog type (registry.family type catalog) := by
  unfold resolve origin
  simp only [missing.known, missing.unregistered, missing.uncached, Bool.not_true,
    Bool.false_eq_true, if_false]
  cases registry.family type catalog <;> rfl

/-- The family is asked for nothing that is unknown or at hand, and nothing is remembered. -/
theorem exists_found_of_not_misses (atHand : ¬ registry.Misses catalog type) :
    ∃ found, registry.resolve catalog type = (found, registry) ∧
      registry.resolveBy catalog type ask = pure (found, registry) := by
  unfold resolveBy resolve origin
  cases known : catalog.has type with
  | false => exact ⟨_, rfl, rfl⟩
  | true =>
    cases registered : registry.registered.lookup type with
    | some factory => exact ⟨_, rfl, rfl⟩
    | none =>
      cases cached : registry.cached.lookup type with
      | some factory => exact ⟨_, rfl, rfl⟩
      | none => exact absurd ⟨known, registered, cached⟩ atHand

theorem resolveBy_of_not_misses (atHand : ¬ registry.Misses catalog type) :
    registry.resolveBy catalog type ask = pure (registry.resolve catalog type) := by
  obtain ⟨found, resolved, resolvedBy⟩ := exists_found_of_not_misses ask atHand
  rw [resolved, resolvedBy]

theorem resolve_snd_of_not_misses (atHand : ¬ registry.Misses catalog type) :
    (registry.resolve catalog type).2 = registry := by
  obtain ⟨found, resolved, _⟩ := exists_found_of_not_misses (m := Id) (fun _ => none) atHand
  rw [resolved]

end Missing

/-- With the family as it is, nothing but the factory is found. -/
theorem resolveBy_family :
    registry.resolveBy catalog type (m := Id) (fun other => registry.family other catalog) =
      registry.resolve catalog type := by
  by_cases missing : registry.Misses catalog type
  · rw [resolveBy_of_misses _ missing, resolve_of_misses missing]
    rfl
  · exact resolveBy_of_not_misses _ missing

/-- The family of the registry, noting down the types for which it is asked. -/
def noting (other : TypeId) : StateM (List TypeId) (Option Factory) := do
  modify (· ++ [other])
  return registry.family other catalog

/-- The types for which the family is asked when the factory of a type is looked for. -/
def asks : List TypeId :=
  ((registry.resolveBy catalog type (registry.noting catalog)).run []).2

theorem asks_of_misses {registry : FactoryRegistry} {catalog : Catalog} {type : TypeId}
    (missing : registry.Misses catalog type) : registry.asks catalog type = [type] := by
  rw [asks, resolveBy_of_misses _ missing]
  rfl

theorem asks_of_not_misses {registry : FactoryRegistry} {catalog : Catalog} {type : TypeId}
    (atHand : ¬ registry.Misses catalog type) : registry.asks catalog type = [] := by
  rw [asks, resolveBy_of_not_misses _ atHand]
  rfl

/-- Noting down changes no answer, and what is noted down does not depend on earlier notes. -/
theorem resolveBy_noting (notes : List TypeId) :
    (registry.resolveBy catalog type (registry.noting catalog)).run notes =
      (registry.resolve catalog type, notes ++ registry.asks catalog type) := by
  by_cases missing : registry.Misses catalog type
  · rw [asks_of_misses missing, resolveBy_of_misses _ missing, resolve_of_misses missing]
    rfl
  · rw [asks_of_not_misses missing, resolveBy_of_not_misses _ missing, List.append_nil]
    rfl

end Asking

/-! ## Runs -/

/-- What is done with a registry. -/
inductive Call where
  | register (type : TypeId) (factory : Factory)
  | resolve (type : TypeId)

namespace Call

/-- Whether a factory is registered for a type. -/
def registers (type : TypeId) : Call → Bool
  | register other _ => other = type
  | resolve _ => false

/-- Whether the factory of a type is looked for. -/
def resolves (type : TypeId) : Call → Bool
  | register _ _ => false
  | resolve other => other = type

/-- The factory that is registered for a type. -/
def registered? (type : TypeId) : Call → Option Factory
  | register other factory => if other = type then some factory else none
  | resolve _ => none

end Call

/-- A registry at work, and the types for which its family was asked. -/
structure Run where
  registry : FactoryRegistry
  asked : List TypeId := []

/-- A run after one more call. -/
def Run.step (catalog : Catalog) (run : Run) : Call → Run
  | .register type factory => { run with registry := run.registry.register type factory }
  | .resolve type =>
    let (found, asked) :=
      (run.registry.resolveBy catalog type (run.registry.noting catalog)).run run.asked
    { registry := found.2, asked }

theorem Run.step_resolve (catalog : Catalog) (run : Run) (type : TypeId) :
    run.step catalog (.resolve type) =
      { registry := (run.registry.resolve catalog type).2
        asked := run.asked ++ run.registry.asks catalog type } := by
  rw [Run.step, resolveBy_noting]

/-- The run of calls, one after the other, that begins with a family alone. -/
def run (family : FactoryFamily) (catalog : Catalog) (calls : List Call) : Run :=
  calls.foldl (Run.step catalog) { registry := { family } }

/-! ## What a run comes to -/

/-- The factory that was registered for a type last. -/
def registeredLast? (calls : List Call) (type : TypeId) : Option Factory :=
  calls.reverse.findSome? (Call.registered? type)

/-- What it comes to when the factory of a type is looked for after calls: a type that is unknown
has none, a factory that is registered holds, and the family decides otherwise. -/
def answerAfter (family : FactoryFamily) (catalog : Catalog) (calls : List Call) (type : TypeId) :
    Except RecompileError Factory :=
  if catalog.has type then
    match (registeredLast? calls type).or (family type catalog) with
    | some factory => .ok factory
    | none => .error (.factoryUnavailable (catalog.fullName type))
  else .error .unknownType

/-- How often the factory of a type that is known is looked for before one is registered. -/
def attempts (catalog : Catalog) (calls : List Call) (type : TypeId) : Nat :=
  if catalog.has type then
    (calls.takeWhile fun call => !call.registers type).countP (Call.resolves type)
  else 0

section Calls

variable {catalog : Catalog} {calls : List Call} {type other : TypeId} {factory : Factory}

theorem registeredLast?_register :
    registeredLast? (calls ++ [.register other factory]) type =
      if other = type then some factory else registeredLast? calls type := by
  by_cases same : other = type <;> simp [registeredLast?, Call.registered?, same]

theorem registeredLast?_resolve :
    registeredLast? (calls ++ [.resolve other]) type = registeredLast? calls type := by
  rw [registeredLast?, List.reverse_append]
  rfl

theorem registeredLast?_eq_none_iff :
    registeredLast? calls type = none ↔ ∀ call ∈ calls, (!call.registers type) = true := by
  have one (call : Call) : call.registered? type = none ↔ (!call.registers type) = true := by
    cases call <;> simp [Call.registered?, Call.registers]
  simp only [registeredLast?, List.findSome?_eq_none_iff, List.mem_reverse, one]

/-- Once a factory is registered for a type, it does not matter how often it is looked for. -/
theorem attempts_of_registered (registered : registeredLast? calls type ≠ none) (call : Call) :
    attempts catalog (calls ++ [call]) type = attempts catalog calls type := by
  have stops : (calls.takeWhile fun call => !call.registers type).length ≠ calls.length := by
    intro whole
    have all := (List.takeWhile_prefix fun call : Call => !call.registers type).eq_of_length whole
    apply registered
    rw [registeredLast?_eq_none_iff, ← all]
    intro call inside
    exact List.mem_takeWhile_imp (p := fun call : Call => !call.registers type) inside
  rw [attempts, attempts, List.takeWhile_append, if_neg stops]

theorem attempts_of_unregistered (unregistered : registeredLast? calls type = none) (call : Call) :
    attempts catalog (calls ++ [call]) type =
      attempts catalog calls type +
        if catalog.has type && call.resolves type then 1 else 0 := by
  have all := registeredLast?_eq_none_iff.mp unregistered
  have before : (calls.takeWhile fun call => !call.registers type) = calls :=
    List.takeWhile_eq_self_iff.mpr all
  rw [attempts, attempts, List.takeWhile_append_of_pos all, before]
  cases known : catalog.has type with
  | false => simp
  | true =>
    cases call <;>
      simp [Call.registers, Call.resolves, List.countP_append, List.takeWhile_cons]

theorem attempts_register :
    attempts catalog (calls ++ [.register other factory]) type = attempts catalog calls type := by
  by_cases registered : registeredLast? calls type = none
  · simp [attempts_of_unregistered registered, Call.resolves]
  · exact attempts_of_registered registered _

theorem attempts_resolve_of_ne (differs : other ≠ type) :
    attempts catalog (calls ++ [.resolve other]) type = attempts catalog calls type := by
  by_cases registered : registeredLast? calls type = none
  · simp [attempts_of_unregistered registered, Call.resolves, differs]
  · exact attempts_of_registered registered _

theorem attempts_resolve (known : catalog.has type = true)
    (unregistered : registeredLast? calls type = none) :
    attempts catalog (calls ++ [.resolve type]) type = attempts catalog calls type + 1 := by
  simp [attempts_of_unregistered unregistered, Call.resolves, known]

end Calls

/-! ## The invariant -/

/-- What is known of a run after calls. -/
structure Explained (family : FactoryFamily) (catalog : Catalog) (calls : List Call) (run : Run) :
    Prop where
  sameFamily : run.registry.family = family
  registered : ∀ type, run.registry.registered.lookup type = registeredLast? calls type
  cached : ∀ type factory, (type, factory) ∈ run.registry.cached ↔
    0 < attempts catalog calls type ∧ family type catalog = some factory
  cachedOnce : (run.registry.cached.map Prod.fst).Nodup
  asked : ∀ type, run.asked.count type =
    if (family type catalog).isSome then min 1 (attempts catalog calls type)
    else attempts catalog calls type

theorem Misses.not_mem_cached {registry : FactoryRegistry} {catalog : Catalog} {type : TypeId}
    (missing : registry.Misses catalog type) (factory : Factory) :
    (type, factory) ∉ registry.cached := by
  intro inside
  have differs := List.lookup_eq_none_iff.mp missing.uncached (type, factory) inside
  simp at differs

section Runs

variable {family : FactoryFamily} {catalog : Catalog} {calls : List Call} {run : Run}
  (explained : Explained family catalog calls run)
include explained

theorem Explained.lookup_cached (type : TypeId) :
    run.registry.cached.lookup type =
      if 0 < attempts catalog calls type then family type catalog else none := by
  cases found : run.registry.cached.lookup type with
  | some factory =>
    obtain ⟨front, back, split, _⟩ := List.lookup_eq_some_iff.mp found
    have inside : (type, factory) ∈ run.registry.cached := by simp [split]
    obtain ⟨tried, made⟩ := (explained.cached type factory).mp inside
    rw [if_pos tried, made]
  | none =>
    split
    next tried =>
      cases made : family type catalog with
      | none => rfl
      | some factory =>
        have inside := (explained.cached type factory).mpr ⟨tried, made⟩
        have differs := List.lookup_eq_none_iff.mp found (type, factory) inside
        simp at differs
    next => rfl

theorem Explained.register (type : TypeId) (factory : Factory) :
    Explained family catalog (calls ++ [.register type factory])
      (run.step catalog (.register type factory)) where
  sameFamily := explained.sameFamily
  registered := by
    intro other
    rw [registeredLast?_register, ← explained.registered]
    simp only [Run.step, FactoryRegistry.register, List.lookup_cons]
    by_cases same : type = other
    · simp [same]
    · have differs : (other == type) = false := beq_eq_false_iff_ne.mpr (Ne.symm same)
      simp [same, differs]
  cached := by
    intro other made
    rw [attempts_register]
    exact explained.cached other made
  cachedOnce := explained.cachedOnce
  asked := by
    intro other
    rw [attempts_register]
    exact explained.asked other

/-- A type that is missed was looked for in vain as often as it was looked for at all. -/
theorem Explained.misses_iff (type : TypeId) :
    run.registry.Misses catalog type ↔
      catalog.has type = true ∧ registeredLast? calls type = none ∧
        (0 < attempts catalog calls type → family type catalog = none) := by
  constructor
  · rintro ⟨known, unregistered, uncached⟩
    rw [explained.registered] at unregistered
    rw [explained.lookup_cached] at uncached
    exact ⟨known, unregistered, fun tried => by rwa [if_pos tried] at uncached⟩
  · rintro ⟨known, unregistered, refused⟩
    refine ⟨known, ?_, ?_⟩
    · rw [explained.registered, unregistered]
    · rw [explained.lookup_cached]
      split
      next tried => exact refused tried
      next => rfl

/-- A call for a type that is not missed counts only where a factory is cached already, so what is
known of the run stays true. -/
theorem Explained.resolve_atHand {type : TypeId} (atHand : ¬ run.registry.Misses catalog type) :
    Explained family catalog (calls ++ [.resolve type]) run := by
  have counted (other : TypeId) :
      attempts catalog (calls ++ [.resolve type]) other = attempts catalog calls other ∨
        (family other catalog).isSome = true ∧ 0 < attempts catalog calls other ∧
          attempts catalog (calls ++ [.resolve type]) other =
            attempts catalog calls other + 1 := by
    by_cases same : type = other
    · subst same
      by_cases registered : registeredLast? calls type = none
      · cases known : catalog.has type with
        | false => simp [attempts, known]
        | true =>
          have made : 0 < attempts catalog calls type ∧ family type catalog ≠ none := by
            by_contra refused
            apply atHand
            rw [explained.misses_iff]
            refine ⟨known, registered, fun tried => ?_⟩
            exact by_contra fun made => refused ⟨tried, made⟩
          exact .inr ⟨Option.isSome_iff_ne_none.mpr made.2, made.1,
            attempts_resolve known registered⟩
      · exact .inl (attempts_of_registered registered _)
    · exact .inl (attempts_resolve_of_ne same)
  refine ⟨explained.sameFamily, ?_, ?_, explained.cachedOnce, ?_⟩
  · intro other
    rw [registeredLast?_resolve, explained.registered]
  · intro other factory
    rw [explained.cached]
    obtain same | ⟨_, tried, more⟩ := counted other
    · rw [same]
    · simp [more, tried]
  · intro other
    rw [explained.asked]
    obtain same | ⟨made, tried, more⟩ := counted other
    · rw [same]
    · simp only [made, if_true, more]
      omega

/-- A call for a type that is missed asks the family once. -/
theorem Explained.resolve_missing {type : TypeId} (missing : run.registry.Misses catalog type) :
    Explained family catalog (calls ++ [.resolve type]) (run.step catalog (.resolve type)) := by
  obtain ⟨known, unregistered, refused⟩ := (explained.misses_iff type).mp missing
  have more := attempts_resolve known unregistered
  have after : run.step catalog (.resolve type) =
      ⟨(run.registry.remember catalog type (family type catalog)).2, run.asked ++ [type]⟩ := by
    rw [Run.step_resolve, resolve_of_misses missing, asks_of_misses missing, explained.sameFamily]
  have asked (other : TypeId) : (run.asked ++ [type]).count other =
      if (family other catalog).isSome then
        min 1 (attempts catalog (calls ++ [.resolve type]) other)
      else attempts catalog (calls ++ [.resolve type]) other := by
    rw [List.count_append, explained.asked, List.count_singleton]
    by_cases same : type = other
    · subst same
      rw [more]
      cases made : family type catalog with
      | none => simp
      | some factory =>
        have untried : attempts catalog calls type = 0 := by
          by_contra tried
          rw [refused (Nat.pos_of_ne_zero tried)] at made
          cases made
        simp [untried]
    · simp [attempts_resolve_of_ne same, same]
  have registered (other : TypeId) : run.registry.registered.lookup other =
      registeredLast? (calls ++ [.resolve type]) other := by
    rw [registeredLast?_resolve, explained.registered]
  rw [after]
  cases made : family type catalog with
  | none =>
    refine ⟨explained.sameFamily, registered, ?_, explained.cachedOnce, asked⟩
    intro other factory
    by_cases same : type = other
    · subst same
      simp [remember, explained.cached, made]
    · rw [attempts_resolve_of_ne same]
      exact explained.cached other factory
  | some factory =>
    refine ⟨explained.sameFamily, registered, ?_, ?_, asked⟩
    · intro other found
      by_cases same : type = other
      · subst same
        simp [remember, missing.not_mem_cached, more, made, eq_comm]
      · rw [attempts_resolve_of_ne same, ← explained.cached]
        simp [remember, Ne.symm same]
    · refine List.nodup_cons.mpr ⟨?_, explained.cachedOnce⟩
      intro inside
      obtain ⟨⟨_, other⟩, isCached, rfl⟩ := List.mem_map.mp inside
      exact missing.not_mem_cached other isCached

/-- **One call keeps what is known of a run.** -/
theorem Explained.step (call : Call) :
    Explained family catalog (calls ++ [call]) (run.step catalog call) := by
  cases call with
  | register type factory => exact explained.register type factory
  | resolve type =>
    by_cases missing : run.registry.Misses catalog type
    · exact explained.resolve_missing missing
    · have after : run.step catalog (.resolve type) = run := by
        rw [Run.step_resolve, resolve_snd_of_not_misses missing, asks_of_not_misses missing,
          List.append_nil]
      rw [after]
      exact explained.resolve_atHand missing

end Runs

/-- **What a run comes to is known after any calls.** -/
theorem explained_run (family : FactoryFamily) (catalog : Catalog) (calls : List Call) :
    Explained family catalog calls (run family catalog calls) := by
  induction calls using List.reverseRecOn with
  | nil =>
    refine ⟨rfl, fun _ => rfl, ?_, List.nodup_nil, ?_⟩
    · intro type factory
      simp [run, attempts]
    · intro type
      simp [run, attempts]
  | append_singleton calls call ih =>
    rw [run, List.foldl_append]
    exact ih.step call

/-! ## Answers, questions and the cache -/

/-- What calls leave of a registry: its answers are those of the registrations and of the family,
the family was asked once for each type that it has a factory for and each time for any other, and
the cache holds what the family has made. -/
structure Transparent (family : FactoryFamily) (catalog : Catalog) (calls : List Call)
    (run : Run) : Prop where
  answer : ∀ type, (run.registry.resolve catalog type).1 = answerAfter family catalog calls type
  askedOnce : ∀ type, (family type catalog).isSome = true →
    run.asked.count type = min 1 (attempts catalog calls type)
  askedAgain : ∀ type, family type catalog = none →
    run.asked.count type = attempts catalog calls type
  cached : ∀ type factory, (type, factory) ∈ run.registry.cached ↔
    family type catalog = some factory ∧ 0 < attempts catalog calls type
  cachedOnce : (run.registry.cached.map Prod.fst).Nodup

theorem Explained.answer {family : FactoryFamily} {catalog : Catalog} {calls : List Call}
    {run : Run} (explained : Explained family catalog calls run) (type : TypeId) :
    (run.registry.resolve catalog type).1 = answerAfter family catalog calls type := by
  unfold resolve origin answerAfter
  rw [explained.registered, explained.lookup_cached, explained.sameFamily]
  cases catalog.has type with
  | false => rfl
  | true =>
    cases registeredLast? calls type with
    | some factory => rfl
    | none =>
      by_cases tried : 0 < attempts catalog calls type
      · simp only [tried, if_true]
        cases family type catalog <;> rfl
      · simp only [tried, if_false]
        cases family type catalog <;> rfl

/-- **The cache of a registry cannot be seen in its answers.** -/
theorem run_transparent (family : FactoryFamily) (catalog : Catalog) (calls : List Call) :
    Transparent family catalog calls (run family catalog calls) where
  answer := (explained_run family catalog calls).answer
  askedOnce := by
    intro type made
    rw [(explained_run family catalog calls).asked, if_pos made]
  askedAgain := by
    intro type refused
    simp [(explained_run family catalog calls).asked, refused]
  cached := by
    intro type factory
    rw [(explained_run family catalog calls).cached, and_comm]
  cachedOnce := (explained_run family catalog calls).cachedOnce

/-- A type that the family refuses is asked for again, one that it accepts is not, nor is one for
which a factory is registered. -/
example :
    (run (fun type _ => if type = CoreType.string then some (.text type "") else none)
      Catalog.initial
      [.resolve CoreType.void, .resolve CoreType.string, .resolve CoreType.void,
        .resolve CoreType.string, .register CoreType.void (.text CoreType.void ""),
        .resolve CoreType.void]).asked =
      [CoreType.void, CoreType.string, CoreType.void] := by
  decide +kernel

end FactoryRegistry

end ExprImports
