import ExprImports.CommandLine.Arguments
import ExprImports.Proofs.Outcomes

/-!
# One option more

The type to be reached is an option of the command. Put in front of arguments that ask for none, it
changes nothing in how they are read: each of them is taken as before, beside the target
(`Invocation.ofArguments_asking`). Arguments look at the target only to refuse a second one.
-/

set_option autoImplicit false

namespace ExprImports.CommandLine

/-- The options with a type to be reached. -/
def Options.asking (options : Options) (name : String) : Options :=
  { options with target := some name }

/-- What has been read, with a type to be reached. -/
def Progress.asking (progress : Progress) (name : String) : Progress :=
  { progress with options := progress.options.asking name }

/-- The invocation with one more option, the type to be reached. -/
def Invocation.asking (invocation : Invocation) (name : String) : Invocation :=
  { invocation with options := invocation.options.asking name }

namespace Options

variable {options after : Options} {parameter : Parameter}

/-- What is taken without asking for a target is taken beside one. -/
theorem withValue_asking {value : String} (taken : options.withValue parameter value = .ok after)
    (free : after.target = none) :
    options.target = none ∧
      ∀ name, (options.asking name).withValue parameter value = .ok (after.asking name) := by
  cases parameter with
  | schema | configuration =>
      obtain ⟨known, isPath, taken⟩ := exists_of_bind_eq_ok taken
      cases taken
      refine ⟨free, fun name => ?_⟩
      simp only [withValue, asking, isPath]
      rfl
  | target =>
      simp only [withValue] at taken
      split at taken
      · cases taken
      · cases taken
        cases free
  | namespaceHint | assemblyHint =>
      cases taken
      exact ⟨free, fun _ => rfl⟩
  | reference | json | help | version => cases taken

theorem withFlag_asking (taken : options.withFlag parameter = .ok after)
    (free : after.target = none) :
    options.target = none ∧
      ∀ name, (options.asking name).withFlag parameter = .ok (after.asking name) := by
  cases parameter with
  | reference | json =>
      simp only [withFlag] at taken
      split at taken
      · cases taken
      · rename_i first
        cases taken
        exact ⟨free, fun name => if_neg first⟩
  | help | version | schema | configuration | target | namespaceHint | assemblyHint => cases taken

end Options

namespace Progress

/-- What the step leaves without a target had none before, and the step does the same beside a
target. -/
def Spares (step : Progress → Except UsageFault Progress) : Prop :=
  ∀ ⦃progress after : Progress⦄, step progress = .ok after → after.options.target = none →
    progress.options.target = none ∧ ∀ name, step (progress.asking name) = .ok (after.asking name)

/-! ## Steps made of steps -/

variable {first second : Progress → Except UsageFault Progress}

theorem spares_error (fault : UsageFault) : Spares fun _ => .error fault := by
  intro progress after done
  cases done

theorem spares_ok {change : Progress → Progress}
    (keeps : ∀ progress, (change progress).options = progress.options)
    (beside : ∀ progress name, change (progress.asking name) = (change progress).asking name) :
    Spares fun progress => .ok (change progress) := by
  rintro progress _ ⟨⟩ free
  refine ⟨?_, fun name => congrArg Except.ok (beside progress name)⟩
  rwa [keeps] at free

theorem Spares.bind (start : Spares first) (continues : Spares second) :
    Spares fun progress => first progress >>= second := by
  intro progress after done free
  obtain ⟨middle, here, further⟩ := exists_of_bind_eq_ok done
  obtain ⟨freeMiddle, besideFurther⟩ := continues further free
  obtain ⟨freeProgress, beside⟩ := start here freeMiddle
  refine ⟨freeProgress, fun name => ?_⟩
  dsimp only
  rw [beside]
  exact besideFurther name

/-! ## Options -/

/-- A step that takes an option, and puts the options where they belong. -/
theorem spares_option {taking : Options → Except UsageFault Options}
    {place : Progress → Options → Progress}
    (beside : ∀ {options after}, taking options = .ok after → after.target = none →
      options.target = none ∧ ∀ name, taking (options.asking name) = .ok (after.asking name))
    (keeps : ∀ progress options, (place progress options).options = options)
    (placed : ∀ progress options name,
      place (progress.asking name) (options.asking name) = (place progress options).asking name) :
    Spares fun progress => do
      let options ← taking progress.options
      return place progress options := by
  intro progress after done free
  obtain ⟨options, taken, done⟩ := exists_of_bind_eq_ok done
  cases done
  rw [keeps] at free
  obtain ⟨freeProgress, besideTaken⟩ := beside taken free
  refine ⟨freeProgress, fun name => ?_⟩
  have taken : taking (progress.asking name).options = .ok (options.asking name) :=
    besideTaken name
  simp only [taken, Bind.bind, Except.bind, placed]
  rfl

theorem spares_withValue (parameter : Parameter) (value : String) :
    Spares fun progress => do
      let options ← progress.options.withValue parameter value
      return { progress with options } :=
  spares_option Options.withValue_asking (fun _ _ => rfl) fun _ _ _ => rfl

theorem spares_withFlag (parameter : Parameter) :
    Spares fun progress => do
      let options ← progress.options.withFlag parameter
      return { progress with options } :=
  spares_option Options.withFlag_asking (fun _ _ => rfl) fun _ _ _ => rfl

theorem spares_settle : Spares settle := by
  rintro ⟨options, expression, unsettled, onlyExpression⟩ after done free
  cases unsettled with
  | none =>
      cases done
      exact ⟨free, fun _ => rfl⟩
  | some opened =>
      obtain ⟨parameter, value⟩ := opened
      cases value with
      | none => cases done
      | some value =>
          have settles : Spares fun progress => do
              let options ← progress.options.withValue parameter value
              return { progress with options, unsettled := none } :=
            spares_option Options.withValue_asking (fun _ _ => rfl) fun _ _ _ => rfl
          exact settles done free

theorem spares_takeFlag (parameter : Parameter) : Spares (takeFlag · parameter) :=
  spares_settle.bind (spares_withFlag parameter)

theorem spares_takeValue (parameter : Parameter) (value : String) :
    Spares (takeValue · parameter value) :=
  spares_settle.bind (spares_withValue parameter value)

theorem spares_openOption (parameter : Parameter) : Spares (openOption · parameter) :=
  spares_settle.bind (spares_ok (fun _ => rfl) fun _ _ => rfl)

theorem spares_takeLong (argument : String) (text : List Char) :
    Spares (takeLong · argument text) := by
  unfold takeLong
  dsimp only
  split
  · exact spares_error _
  · split
    · exact spares_openOption _
    · exact spares_takeFlag _
  · split
    · exact spares_takeValue _ _
    · exact spares_error _

theorem spares_takeLetters (argument : String) (letters : List Char) :
    Spares (takeLetters argument · letters) := by
  induction letters with
  | nil => exact spares_ok (fun _ => rfl) fun _ _ => rfl
  | cons letter rest ih =>
      simp only [takeLetters]
      split
      · exact spares_error _
      · split
        · split
          · exact spares_openOption _
          · exact spares_takeValue _ _
          · exact spares_takeValue _ _
        · exact (spares_takeFlag _).bind ih

theorem spares_takeExpression (argument : String) : Spares (takeExpression · argument) := by
  rintro ⟨options, expression, unsettled, onlyExpression⟩ after done free
  cases expression with
  | some _ => cases done
  | none =>
      have takes : Spares fun progress => do
          let progress ← progress.settle
          return { progress with expression := some argument } :=
        spares_settle.bind (spares_ok (fun _ => rfl) fun _ _ => rfl)
      exact takes done free

theorem spares_takePlain (argument : String) : Spares (takePlain · argument) := by
  rintro ⟨options, expression, unsettled, onlyExpression⟩ after done free
  rcases unsettled with _ | ⟨parameter, _ | value⟩
  · exact spares_takeExpression argument done free
  · cases done
    exact ⟨free, fun _ => rfl⟩
  · exact spares_takeExpression argument done free

theorem spares_take (argument : String) : Spares (take · argument) := by
  rintro ⟨options, expression, unsettled, onlyExpression⟩ after done free
  cases onlyExpression with
  | true => exact spares_takeExpression argument done free
  | false =>
      simp only [take, asking, Bool.false_eq_true, if_false] at done ⊢
      generalize argument.toList = text at done ⊢
      split at done
      · cases done
        exact ⟨free, fun _ => rfl⟩
      · exact spares_takeLong argument _ done free
      · exact spares_takeLetters argument _ done free
      · exact spares_takePlain argument done free

theorem spares_takeAll (arguments : List String) : Spares (arguments.foldlM take ·) := by
  induction arguments with
  | nil => exact spares_ok (fun _ => rfl) fun _ _ => rfl
  | cons argument rest ih =>
      simp only [List.foldlM_cons]
      exact (spares_take argument).bind ih

theorem take_target (name : String) :
    take {} ("--target=" ++ name) = .ok (asking {} name) := by
  have isLong : ("--target=" ++ name).toList =
      '-' :: '-' :: ("target".toList ++ '=' :: name.toList) := by
    rw [String.toList_append]
    rfl
  have isWord : ("target".toList ++ '=' :: name.toList).takeWhile (· ≠ '=') = "target".toList :=
    rfl
  have isRest : ("target".toList ++ '=' :: name.toList).dropWhile (· ≠ '=') =
      '=' :: name.toList := rfl
  have isTarget : Parameter.longNames.lookup "target" = some .target := by decide
  have taken : takeLong {} ("--target=" ++ name) ("target".toList ++ '=' :: name.toList) =
      .ok (asking {} name) := by
    simp only [takeLong, isWord, isRest, String.ofList_toList, isTarget]
    rfl
  rw [take, if_neg Bool.false_ne_true, isLong]
  exact taken

theorem finish_asking {progress : Progress} {invocation : Invocation}
    (finished : progress.finish = .ok invocation) (free : invocation.options.target = none) :
    progress.options.target = none ∧
      ∀ name, (progress.asking name).finish = .ok (invocation.asking name) := by
  obtain ⟨settled, settles, finished⟩ := exists_of_bind_eq_ok finished
  cases isExpression : settled.expression with
  | none =>
      rw [isExpression] at finished
      cases finished
  | some expression =>
      rw [isExpression] at finished
      cases finished
      obtain ⟨freeProgress, beside⟩ := spares_settle settles free
      refine ⟨freeProgress, fun name => ?_⟩
      have kept : (settled.asking name).expression = some expression := isExpression
      simp only [finish, beside name, Bind.bind, Except.bind, kept]
      rfl

end Progress

/-- **A target is one option more.** If arguments are taken that ask for no target, they are taken
with one in front as well, and the target is all that it adds. -/
theorem Invocation.ofArguments_asking {arguments : List String} {invocation : Invocation}
    (taken : ofArguments arguments = .ok invocation) (free : invocation.options.target = none)
    (name : String) :
    ofArguments (("--target=" ++ name) :: arguments) = .ok (invocation.asking name) := by
  obtain ⟨progress, read, finished⟩ := exists_of_bind_eq_ok taken
  obtain ⟨freeProgress, finishesBeside⟩ := Progress.finish_asking finished free
  have readBeside : arguments.foldlM Progress.take (Progress.asking {} name) =
      .ok (progress.asking name) := (Progress.spares_takeAll arguments read freeProgress).2 name
  rw [ofArguments, List.foldlM_cons, Progress.take_target]
  simp only [Bind.bind, Except.bind, readBeside]
  exact finishesBeside name

end ExprImports.CommandLine
