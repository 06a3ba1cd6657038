import ExprImports.Distinct
import ExprImports.Environment
import Mathlib.Data.List.Induction

/-!
# Histories of environments

An environment is made from the empty one by bindings and by new scopes inside. Its history says
which bindings were made in each scope, one after the other (`History.written`).

A scope holds the names that were bound in it in order of first binding, each with the type it was
bound to last (`fst_written`, `lookup_written`). The lookup of a name asks the scopes from the
inside out, and so does the list of the visible bindings. Both are read off the history
(`visibleBindings_of_history`).
-/

set_option autoImplicit false

namespace ExprImports

/-- The scope after some bindings, the first one first. -/
def Scope.written (bindings : List (String × TypeId)) : Scope :=
  bindings.foldl (fun scope binding => scope.insert binding.1 binding.2) []

namespace Scope

/-- A binding adds its name if the name is new, and moves nothing. -/
theorem fst_insert (scope : Scope) (name : String) (type : TypeId) :
    (scope.insert name type).map Prod.fst = insertNew (scope.map Prod.fst) name := by
  induction scope with
  | nil => rfl
  | cons binding rest ih =>
    obtain ⟨known, old⟩ := binding
    rw [insert]
    split
    · next same => simp [insertNew, same]
    · next other =>
      have absent : name ≠ known := fun same => other same.symm
      rw [List.map_cons, ih, List.map_cons, insertNew, insertNew]
      simp only [List.mem_cons, absent, false_or]
      split <;> rfl

theorem lookup_cons (binding : String × TypeId) (rest : Scope) (name : String) :
    List.lookup name (binding :: rest) =
      if name = binding.1 then some binding.2 else rest.lookup name := by
  rw [List.lookup_cons]
  by_cases same : name = binding.1
  · simp [same]
  · rw [beq_false_of_ne same, if_neg same]

/-- A binding changes the type of its own name only. -/
theorem lookup_insert (scope : Scope) (bound name : String) (type : TypeId) :
    (scope.insert bound type).lookup name =
      if name = bound then some type else scope.lookup name := by
  induction scope with
  | nil => exact lookup_cons _ _ _
  | cons binding rest ih =>
    obtain ⟨known, old⟩ := binding
    rw [insert]
    split
    · next same => simp only [lookup_cons, same]; split <;> rfl
    · next other =>
      rw [lookup_cons, lookup_cons, ih]
      by_cases here : name = known
      · simp [here, other]
      · simp [here]

theorem written_concat (bindings : List (String × TypeId)) (name : String) (type : TypeId) :
    written (bindings ++ [(name, type)]) = (written bindings).insert name type := by
  rw [written, List.foldl_append]
  rfl

theorem fst_written (bindings : List (String × TypeId)) :
    (written bindings).map Prod.fst = distinct (bindings.map Prod.fst) := by
  induction bindings using List.reverseRecOn with
  | nil => rfl
  | append_singleton bindings binding ih =>
    rw [written_concat, fst_insert, ih, List.map_append, distinct, distinct, List.foldl_append]
    rfl

theorem lookup_written (bindings : List (String × TypeId)) (name : String) :
    (written bindings).lookup name = bindings.reverse.lookup name := by
  induction bindings using List.reverseRecOn with
  | nil => rfl
  | append_singleton bindings binding ih =>
    rw [written_concat, lookup_insert, ih, List.reverse_append, List.reverse_singleton,
      List.singleton_append, lookup_cons]

end Scope

namespace Environment

/-- How an environment came about. -/
inductive History where
  | fresh
  | bind (before : History) (name : String) (type : TypeId)
  | nest (before : History)

namespace History

/-- The environment at the end of a history. -/
def environment : History → Environment
  | fresh => {}
  | bind before name type => before.environment.insert name type
  | nest before => before.environment.nested

/-- The bindings that were made in the innermost scope, the first one first. -/
def innermost : History → List (String × TypeId)
  | fresh => []
  | bind before name type => before.innermost ++ [(name, type)]
  | nest _ => []

/-- The bindings that were made in each scope around the innermost one, from the inside out. -/
def enclosing : History → List (List (String × TypeId))
  | fresh => []
  | bind before _ _ => before.enclosing
  | nest before => before.innermost :: before.enclosing

/-- The bindings that were made in each scope, from the inside out. -/
def written (history : History) : List (List (String × TypeId)) :=
  history.innermost :: history.enclosing

theorem innermost_environment (history : History) :
    history.environment.innermost = Scope.written history.innermost := by
  induction history with
  | fresh => rfl
  | bind before name type ih =>
    rw [environment, insert, ih, innermost, Scope.written_concat]
  | nest before ih => rfl

theorem enclosing_environment (history : History) :
    history.environment.enclosing = history.enclosing.map Scope.written := by
  induction history with
  | fresh => rfl
  | bind before name type ih => exact ih
  | nest before ih =>
    rw [environment, nested, innermost_environment, ih, enclosing, List.map_cons]

theorem bindings_environment (history : History) :
    history.environment.bindings = history.written.flatMap Scope.written := by
  rw [bindings, innermost_environment, enclosing_environment, written, List.flatMap_cons,
    List.flatMap_def]

end History

/-- The names of the listed bindings are the names that have not been seen, each one once. -/
theorem fst_firstBindings (bindings : List (String × TypeId)) (seen collected : List String)
    (agree : ∀ name, name ∈ seen ↔ name ∈ collected) :
    collected ++ (firstBindings seen bindings).map Prod.fst =
      (bindings.map Prod.fst).foldl insertNew collected := by
  induction bindings generalizing seen collected with
  | nil => simp [firstBindings]
  | cons binding rest ih =>
    obtain ⟨name, type⟩ := binding
    rw [firstBindings, List.map_cons, List.foldl_cons, insertNew]
    split
    · next known =>
      rw [if_pos ((agree name).mp known)]
      exact ih seen collected agree
    · next unknown =>
      rw [if_neg fun known => unknown ((agree name).mpr known), List.map_cons,
        ← List.singleton_append, ← List.append_assoc]
      refine ih (name :: seen) _ fun other => ?_
      rw [List.mem_cons, agree, List.mem_append, List.mem_singleton, or_comm]

theorem mem_firstBindings {bindings : List (String × TypeId)} {seen : List String} {name : String}
    {type : TypeId} :
    (name, type) ∈ firstBindings seen bindings ↔
      name ∉ seen ∧ bindings.lookup name = some type := by
  induction bindings generalizing seen with
  | nil => simp [firstBindings]
  | cons binding rest ih =>
    obtain ⟨known, old⟩ := binding
    rw [firstBindings, Scope.lookup_cons]
    by_cases same : name = known
    · subst same
      by_cases isSeen : name ∈ seen <;> simp [isSeen, ih, eq_comm]
    · by_cases isSeen : known ∈ seen <;> simp [isSeen, ih, same]

/-- A list of bindings has a visible one unless it is empty. -/
theorem visibleBindings_eq_nil_iff (environment : Environment) :
    environment.visibleBindings = [] ↔ environment.bindings = [] := by
  unfold visibleBindings
  cases environment.bindings <;> simp [firstBindings]

theorem isEmpty_iff (environment : Environment) :
    environment.isEmpty = true ↔ environment.bindings = [] := by
  simp [isEmpty, bindings, List.flatten_eq_nil_iff]

/-- The first scope from the inside out that has the name says its type. -/
theorem lookup_flatMap (scope : List (String × TypeId) → Scope)
    (scopes : List (List (String × TypeId))) (name : String) :
    (scopes.flatMap scope).lookup name =
      scopes.findSome? fun bindings => (scope bindings).lookup name := by
  induction scopes with
  | nil => rfl
  | cons bindings rest ih =>
    rw [List.flatMap_cons, List.lookup_append, ih, List.findSome?_cons]
    cases (scope bindings).lookup name <;> rfl

/-- What is visible at the end of a history: every name once, with the type that its lookup gives.
The names stand in order of first binding, those of inner scopes first. The lookup gives the type of
the last binding of the name in the innermost scope that has one. -/
theorem visibleBindings_of_history (history : History) :
    (history.environment.visibleBindings.map Prod.fst).Nodup ∧
      (∀ name type, (name, type) ∈ history.environment.visibleBindings ↔
        history.environment.lookup name = some type) ∧
      history.environment.visibleBindings.map Prod.fst =
        distinct (history.written.flatMap fun bindings => bindings.map Prod.fst) ∧
      (∀ name, history.environment.lookup name =
        history.written.findSome? fun bindings => bindings.reverse.lookup name) ∧
      (history.environment.isEmpty = true ↔ history.environment.visibleBindings = []) := by
  have names : history.environment.visibleBindings.map Prod.fst =
      distinct (history.written.flatMap fun bindings => bindings.map Prod.fst) := by
    calc history.environment.visibleBindings.map Prod.fst
      _ = distinct (history.environment.bindings.map Prod.fst) :=
          fst_firstBindings _ [] [] fun _ => Iff.rfl
      _ = distinct (history.written.flatMap fun bindings => distinct (bindings.map Prod.fst)) := by
          rw [history.bindings_environment, List.map_flatMap]
          simp only [Scope.fst_written]
      _ = distinct (history.written.flatMap fun bindings => bindings.map Prod.fst) :=
          distinct_flatMap_distinct _ _
  refine ⟨names ▸ nodup_distinct _, fun name type => ?_, names, fun name => ?_, ?_⟩
  · simp [visibleBindings, mem_firstBindings, lookup]
  · rw [lookup, history.bindings_environment, lookup_flatMap]
    simp only [Scope.lookup_written]
  · rw [isEmpty_iff, visibleBindings_eq_nil_iff]

/-- A name that is bound again keeps its place and changes its type. -/
example :
    ((((History.fresh.bind "x" (.entry 3)).bind "y" (.entry 4)).bind "x" (.entry 5)).nest.bind "y"
        (.entry 6)).environment.visibleBindings = [("y", .entry 6), ("x", .entry 5)] := by
  decide

end Environment

end ExprImports
