import ExprImports.Proofs.Recompilation.Modes

/-!
# The variables that matter

An environment is asked for nothing but the types of the variables that a text mentions, be it
as a value or as the first name of a path that could also stand for a type. So a text is
compiled alike in all environments that agree on these (`compile_environment`). It does not
matter in which scopes the bindings stand (`Environment.Rescopes`), nor what is bound that is
shadowed or not mentioned.
-/

set_option autoImplicit false

namespace ExprImports

/-- The text of the request mentions the name, as a value or as the first name of a path. -/
def Request.Mentions (request : Request) (name : String) : Prop :=
  ∃ expression, SurfaceCompiler.read request.session = .ok expression ∧
    name ∈ expression.identifiers

namespace Environment

/-- Changes to the bindings that leave the variables with these names as they are. The scopes
may be cut anew in both cases, since all bindings are listed from the inside out. -/
inductive Rescopes (mentions : String → Prop) (first second : Environment) : Prop where
  /-- Bindings are moved outwards, past bindings of other names. -/
  | move {front moved between back : Scope}
      (before : first.bindings = front ++ moved ++ between ++ back)
      (after : second.bindings = front ++ between ++ moved ++ back)
      (apart : ∀ binding ∈ moved, between.lookup binding.1 = none)
  /-- Bindings are added that are shadowed or not mentioned. -/
  | add {front added back : Scope} (before : first.bindings = front ++ back)
      (after : second.bindings = front ++ added ++ back)
      (unseen : ∀ binding ∈ added, (front.lookup binding.1).isSome ∨ ¬ mentions binding.1)

theorem lookup_eq_of_rescopes {mentions : String → Prop} {first second : Environment}
    (rescopes : first.Rescopes mentions second) {name : String} (isMentioned : mentions name) :
    first.lookup name = second.lookup name := by
  unfold lookup
  cases rescopes with
  | @move front moved between back before after apart =>
      rw [before, after]
      simp only [List.lookup_append, Option.or_assoc]
      -- the name is bound in one of the two stretches at most
      cases isMoved : moved.lookup name with
      | none => rw [Option.none_or, Option.none_or]
      | some type =>
          rw [apart (name, type) (Catalog.mem_of_lookup isMoved), Option.none_or, Option.none_or]
  | @add front added back before after unseen =>
      rw [before, after]
      simp only [List.lookup_append, Option.or_assoc]
      cases isAdded : added.lookup name with
      | none => rw [Option.none_or]
      | some type =>
          obtain shadowed | unmentioned := unseen (name, type) (Catalog.mem_of_lookup isAdded)
          · obtain ⟨inner, isInner⟩ := Option.isSome_iff_exists.mp shadowed
            rw [isInner, Option.some_or, Option.some_or]
          · exact absurd isMentioned unmentioned

end Environment

namespace Recompiler

open Binding

variable {recompiler : Recompiler}

/-- Environments that agree on the variables that a text mentions compile it alike. -/
theorem compile_of_lookups (surface : recompiler.IsSurface) (request : Request)
    {first second : Environment}
    (agree : ∀ name, request.Mentions name → first.lookup name = second.lookup name) :
    recompiler.compile { request with environment := first } =
      recompiler.compile { request with environment := second } := by
  obtain same | ⟨expression, fault, isRead, hides, reported⟩ :=
    compile_restricted_request surface { request with environment := second } first request.hints
      fun expression isRead =>
        { catalog := rfl
          candidates := fun name => rfl
          lookups := fun name isMentioned => agree name ⟨expression, isRead, isMentioned⟩
          sees := fun type => id }
  · exact same
  · refine absurd hides (Context.not_hides (fun type => ?_) expression fault)
    rfl

/-- **Only the variables that a text mentions matter.** Two environments that agree on them
compile the text to the same tree, with the same parameters and the same type, or report the
same fault. So it does not matter if bindings are moved between scopes, or if bindings are added
that are shadowed or that the text does not mention. -/
theorem compile_environment (surface : recompiler.IsSurface) (request : Request) :
    (∀ first second : Environment,
      (∀ name, request.Mentions name → first.lookup name = second.lookup name) →
        recompiler.compile { request with environment := first } =
          recompiler.compile { request with environment := second }) ∧
    (∀ first second : Environment, first.Rescopes request.Mentions second →
      recompiler.compile { request with environment := first } =
        recompiler.compile { request with environment := second }) := by
  constructor
  · intro first second agree
    exact compile_of_lookups surface request agree
  · intro first second rescopes
    refine compile_of_lookups surface request fun name isMentioned => ?_
    exact Environment.lookup_eq_of_rescopes rescopes isMentioned

end Recompiler

namespace Sales

/-- The variable stands one scope further out. Around it there are a binding that it shadows and
one that the text does not mention. -/
def crowded : Environment :=
  { enclosing := [[("total", CoreType.int32)],
      [("total", CoreType.object), ("rate", CoreType.double)]] }

theorem total_crowded :
    (∀ name, total.Mentions name → crowded.lookup name = total.environment.lookup name) ∧
    recompiler.compile { total with environment := crowded } = .ok totalCompiled ∧
    total.environment.Rescopes total.Mentions crowded.nested ∧
    recompiler.compile { total with environment := crowded.nested } = .ok totalCompiled := by
  obtain ⟨byLookups, byScopes⟩ := Recompiler.compile_environment isSurface_recompiler total
  have only : ∀ name, total.Mentions name → name = "total" := by
    rintro name ⟨expression, isRead, isMentioned⟩
    obtain rfl := Except.ok.inj (read_total.symm.trans isRead)
    exact List.mem_singleton.mp isMentioned
  have agree : ∀ name, total.Mentions name →
      crowded.lookup name = total.environment.lookup name := by
    intro name isMentioned
    obtain rfl := only name isMentioned
    rfl
  have rescopes : total.environment.Rescopes total.Mentions crowded.nested := by
    have after : crowded.nested.bindings = [("total", CoreType.int32)] ++
        [("total", CoreType.object), ("rate", CoreType.double)] ++ [] := rfl
    refine .add rfl after ?_
    intro binding isAdded
    obtain rfl | isRate := List.mem_cons.mp isAdded
    · exact .inl rfl
    · obtain rfl := List.mem_singleton.mp isRate
      exact .inr fun isMentioned => absurd (only _ isMentioned) (by decide)
  exact ⟨agree, (byLookups crowded total.environment agree).trans compileInferred_total, rescopes,
    (byScopes _ _ rescopes).symm.trans compileInferred_total⟩

end Sales

end ExprImports
