/-!
# Outcomes of steps that may fail

What follows from the success, or from the fault, of a step that is made of smaller ones.
-/

set_option autoImplicit false

namespace ExprImports

section

variable {ε α β : Type}

theorem exists_of_bind_eq_ok {first : Except ε α} {next : α → Except ε β} {result : β}
    (done : (first >>= next) = .ok result) :
    ∃ value, first = .ok value ∧ next value = .ok result := by
  cases first with
  | error fault => cases done
  | ok value => exact ⟨value, rfl, done⟩

theorem exists_of_map_eq_ok {first : Except ε α} {change : α → β} {result : β}
    (done : first.map change = .ok result) :
    ∃ value, first = .ok value ∧ change value = result := by
  cases first with
  | error fault => cases done
  | ok value => exact ⟨value, rfl, Except.ok.inj done⟩

theorem map_eq_error_iff {first : Except ε α} {change : α → β} {fault : ε} :
    first.map change = .error fault ↔ first = .error fault := by
  cases first with
  | error first =>
      constructor <;>
      · rintro ⟨⟩
        rfl
  | ok value => exact ⟨nofun, nofun⟩

theorem mapError_eq_ok_iff {ε' : Type} {first : Except ε α} {change : ε → ε'} {result : α} :
    first.mapError change = .ok result ↔ first = .ok result := by
  cases first with
  | error fault => exact ⟨nofun, nofun⟩
  | ok value =>
      constructor <;>
      · rintro ⟨⟩
        rfl

theorem cases_of_bind_eq_error {first : Except ε α} {next : α → Except ε β} {fault : ε}
    (failed : (first >>= next) = .error fault) :
    first = .error fault ∨ ∃ value, first = .ok value ∧ next value = .error fault := by
  cases first with
  | error first =>
    cases failed
    exact .inl rfl
  | ok value => exact .inr ⟨value, rfl, failed⟩

theorem exists_of_mapError_eq_error {ε' : Type} {first : Except ε α} {change : ε → ε'}
    {fault : ε'} (failed : first.mapError change = .error fault) :
    ∃ inner, first = .error inner ∧ change inner = fault := by
  cases first with
  | error inner => exact ⟨inner, rfl, Except.error.inj failed⟩
  | ok value => cases failed

end

/-! ## Steps that may fail and change a state -/

section

variable {ε σ α β : Type} {first : ExceptT ε (StateM σ) α} {state later : σ}

theorem run_bind_of_ok {value : α} (next : α → ExceptT ε (StateM σ) β)
    (ran : StateT.run (ExceptT.run first) state = (.ok value, later)) :
    StateT.run (ExceptT.run (first >>= next)) state =
      StateT.run (ExceptT.run (next value)) later := by
  rw [ExceptT.run_bind, StateT.run_bind, ran]
  rfl

theorem run_bind_of_error {fault : ε} (next : α → ExceptT ε (StateM σ) β)
    (ran : StateT.run (ExceptT.run first) state = (.error fault, later)) :
    StateT.run (ExceptT.run (first >>= next)) state = (.error fault, later) := by
  rw [ExceptT.run_bind, StateT.run_bind, ran]
  rfl

end

end ExprImports
