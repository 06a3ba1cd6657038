import ExprImports.Closure
import ExprImports.Proofs.Catalog.Growth
import Mathlib.Data.List.Basic

/-!
# Collecting without memory

The plain walk emits a type if it is to be kept, and then walks everything above
it: its interfaces in order of declaration, and each of its base types below the
root. It remembers nothing, so it emits a type as often as it meets it.

**Agreement.** Collecting with memory gives what the plain walk emits, every type
at its first occurrence, for any number of trees visited one after the other
(`visits_eq_distinct_walk`). The memory cuts off a walk at a type that is collected
or was looked at before. What carries the proof is that everything above such a
type is collected already, unless the type is still being looked at; and all of
those types are above none of the ones that are visited meanwhile (`Settled`).
-/

set_option autoImplicit false

namespace ExprImports
namespace Closure

/-! ## The plain walk -/

/-- Whether a type is collected when it is met. -/
def keeps (catalog : Catalog) (defaults : DefaultAssemblies) (type : TypeId)
    (isDirect : Bool) : Bool :=
  isDirect || !defaults.defines catalog type

/-- The types above a type in the order in which they are visited. -/
def above (catalog : Catalog) (type : TypeId) : List TypeId :=
  catalog.interfaces type ++ basesBelowRoot catalog type

/-- What a walk emits that expands every type anew. The types above a type are older
than it; `walk_eq` leaves the comparison out. -/
def walk (catalog : Catalog) (defaults : DefaultAssemblies) (type : TypeId) (isDirect : Bool) :
    List TypeId :=
  (if keeps catalog defaults type isDirect then [type] else []) ++
    (above catalog type).flatMap fun parent =>
      if parent.height < type.height then walk catalog defaults parent false else []
termination_by type.height

/-- What the plain walk emits for a tree: anchor by anchor in the order of visiting. -/
def walkTree (catalog : Catalog) (defaults : DefaultAssemblies) (tree : Tree) : List TypeId :=
  (tree.anchors catalog).flatMap fun anchor => walk catalog defaults anchor.type anchor.isDirect

variable {catalog : Catalog} {defaults : DefaultAssemblies}

/-- All types of a chain of base types but the first are older than the first. -/
theorem height_lt_of_mem_tail_baseChain (catalog : Catalog) (type : TypeId) :
    ∀ ancestor ∈ (catalog.baseChain type).tail, ancestor.height < type.height := by
  induction measure : type.height using Nat.strongRecOn generalizing type with
  | _ height ih =>
      intro ancestor inside
      rw [Catalog.baseChain, List.tail_cons] at inside
      split at inside
      · rename_i base _
        split at inside
        · rename_i older
          rw [measure] at older
          rw [Catalog.baseChain] at inside
          rcases List.mem_cons.mp inside with rfl | further
          · exact older
          · have below := ih base.height older base rfl ancestor (by rwa [Catalog.baseChain])
            exact Nat.lt_trans below older
        · exact absurd inside List.not_mem_nil
      · exact absurd inside List.not_mem_nil

/-- The base types below the root, one at a time. -/
theorem basesBelowRoot_eq (ordered : catalog.Ordered) (type : TypeId) :
    basesBelowRoot catalog type =
      match catalog.base? type with
      | some base => if base = CoreType.object then [] else base :: basesBelowRoot catalog base
      | none => [] := by
  rw [basesBelowRoot, Catalog.baseChain, List.tail_cons]
  cases isBase : catalog.base? type with
  | none => rfl
  | some base =>
      simp only [if_pos (ordered.base_lt isBase)]
      rw [Catalog.baseChain, List.takeWhile_cons]
      by_cases root : base = CoreType.object
      · simp [root]
      · simp only [ne_eq, root, not_false_eq_true, decide_true, if_true, if_false]
        rw [basesBelowRoot, Catalog.baseChain, List.tail_cons]

/-- The types above a type are older than it. -/
theorem height_lt_of_mem_above (ordered : catalog.Ordered) {type parent : TypeId}
    (isAbove : parent ∈ above catalog type) : parent.height < type.height := by
  rcases List.mem_append.mp isAbove with interface | base
  · exact ordered.interface_lt interface
  · exact height_lt_of_mem_tail_baseChain catalog type parent
      ((List.takeWhile_sublist _).subset base)

/-- The plain walk without the comparison of ages. -/
theorem walk_eq (ordered : catalog.Ordered) (type : TypeId) (isDirect : Bool) :
    walk catalog defaults type isDirect =
      (if keeps catalog defaults type isDirect then [type] else []) ++
        (above catalog type).flatMap (walk catalog defaults · false) := by
  rw [walk]
  congr 1
  refine List.flatMap_congr fun parent isAbove => ?_
  rw [if_pos (height_lt_of_mem_above ordered isAbove)]

/-- A direct walk emits at most the type itself besides what an indirect one does. -/
theorem mem_walk_false (ordered : catalog.Ordered) {type x : TypeId} {isDirect : Bool}
    (emitted : x ∈ walk catalog defaults type isDirect) (other : x ≠ type) :
    x ∈ walk catalog defaults type false := by
  rw [walk_eq ordered] at emitted ⊢
  rcases List.mem_append.mp emitted with itself | further
  · split at itself
    · exact absurd (List.mem_singleton.mp itself) other
    · exact absurd itself List.not_mem_nil
  · exact List.mem_append_right _ further

/-! ## The memory -/

/-- What the memory promises while the pending types are being looked at: what was
collected was looked at, and all that the walk of a type emits is collected if the
type was looked at and is not pending. -/
structure Settled (catalog : Catalog) (defaults : DefaultAssemblies) (pending : List TypeId)
    (closure : Closure) : Prop where
  looked : ∀ type ∈ closure.references, type ∈ closure.expanded
  emitted : ∀ type ∈ closure.expanded, type ∉ pending →
    ∀ x ∈ walk catalog defaults type false, x ∈ closure.references

theorem settled_empty (catalog : Catalog) (defaults : DefaultAssemblies) :
    Settled catalog defaults [] {} :=
  ⟨fun _ inside => absurd inside List.not_mem_nil, fun _ inside => absurd inside List.not_mem_nil⟩

/-- Adding an anchor is as good as inserting all that its plain walk emits. -/
structure Adds (catalog : Catalog) (defaults : DefaultAssemblies) (pending : List TypeId)
    (before after : Closure) (emits : List TypeId) : Prop where
  references : after.references = emits.foldl insertNew before.references
  settled : Settled catalog defaults pending after

/-- Adding types one after the other, none of them direct. -/
theorem adds_foldl (types : List TypeId) {pending : List TypeId} {closure : Closure}
    (settled : Settled catalog defaults pending closure)
    (each : ∀ type ∈ types, ∀ before, Settled catalog defaults pending before →
      Adds catalog defaults pending before (add catalog defaults before type false)
        (walk catalog defaults type false)) :
    Adds catalog defaults pending closure
      (types.foldl (fun closure type => add catalog defaults closure type false) closure)
      (types.flatMap (walk catalog defaults · false)) := by
  induction types generalizing closure with
  | nil => exact ⟨rfl, settled⟩
  | cons type rest ih =>
      obtain ⟨here, later⟩ := List.forall_mem_cons.mp each
      have first := here closure settled
      have others := ih first.settled later
      refine ⟨?_, others.settled⟩
      rw [List.foldl_cons, others.references, first.references, List.flatMap_cons,
        List.foldl_append]

/-- What `add` keeps of the type itself. -/
def keep (catalog : Catalog) (defaults : DefaultAssemblies) (closure : Closure) (type : TypeId)
    (isDirect : Bool) : Closure :=
  if keeps catalog defaults type isDirect then
    { closure with references := closure.references ++ [type] }
  else closure

theorem keep_references (catalog : Catalog) (defaults : DefaultAssemblies) {closure : Closure}
    {type : TypeId} (isDirect : Bool) (new : type ∉ closure.references) :
    (keep catalog defaults closure type isDirect).references =
      (if keeps catalog defaults type isDirect then [type] else []).foldl insertNew
        closure.references := by
  unfold keep
  split
  · rw [List.foldl_cons, List.foldl_nil, insertNew, if_neg new]
  · rfl

theorem keep_expanded (closure : Closure) (type : TypeId) (isDirect : Bool) :
    (keep catalog defaults closure type isDirect).expanded = closure.expanded := by
  unfold keep
  split <;> rfl

/-- The three ways in which a type is added. -/
theorem add_eq (ordered : catalog.Ordered) (closure : Closure) (type : TypeId)
    (isDirect : Bool) :
    add catalog defaults closure type isDirect =
      if type ∈ closure.references then closure
      else if type ∈ closure.expanded then keep catalog defaults closure type isDirect
      else
        (above catalog type).foldl
          (fun closure parent => add catalog defaults closure parent false)
          { keep catalog defaults closure type isDirect with
            expanded := type :: closure.expanded } := by
  rw [add]
  by_cases known : type ∈ closure.references
  · rw [if_pos known, if_pos known]
  · rw [if_neg known, if_neg known]
    show (let kept := keep catalog defaults closure type isDirect
      if type ∈ kept.expanded then kept
      else (above catalog type).foldl
        (fun closure parent =>
          if parent.height < type.height then add catalog defaults closure parent false
          else closure)
        { kept with expanded := type :: kept.expanded }) = _
    simp only [keep_expanded]
    congr 1
    refine List.foldl_ext _ _ _ fun closure parent isAbove => ?_
    rw [if_pos (height_lt_of_mem_above ordered isAbove)]

/-- A type that was looked at and is not pending adds at most itself. -/
theorem adds_keep (ordered : catalog.Ordered) {pending : List TypeId} {closure : Closure}
    (settled : Settled catalog defaults pending closure) {type : TypeId} (isDirect : Bool)
    (new : type ∉ closure.references) (looked : type ∈ closure.expanded)
    (free : type ∉ pending) :
    Adds catalog defaults pending closure (keep catalog defaults closure type isDirect)
      (walk catalog defaults type isDirect) := by
  have collected := keep_references catalog defaults isDirect new
  have inherited : ∀ x ∈ closure.references,
      x ∈ (keep catalog defaults closure type isDirect).references := by
    intro x inside
    rw [collected]
    exact mem_foldl_insertNew.mpr (.inl inside)
  refine ⟨?_, ?_, ?_⟩
  · rw [walk_eq ordered, List.foldl_append, ← collected]
    refine (foldl_insertNew_of_subset fun x isAbove => inherited x ?_).symm
    refine settled.emitted type looked free x ?_
    rw [walk_eq ordered]
    exact List.mem_append_right _ isAbove
  · intro other inside
    rw [keep_expanded]
    rw [collected] at inside
    rcases mem_foldl_insertNew.mp inside with old | itself
    · exact settled.looked other old
    · split at itself
      · exact List.mem_singleton.mp itself ▸ looked
      · exact absurd itself List.not_mem_nil
  · intro other inside notPending x emitted
    rw [keep_expanded] at inside
    exact inherited x (settled.emitted other inside notPending x emitted)

/-- While a type is looked at it is pending. -/
theorem settled_pending {pending : List TypeId} {closure : Closure}
    (settled : Settled catalog defaults pending closure) {type : TypeId} (isDirect : Bool)
    (new : type ∉ closure.references) :
    Settled catalog defaults (type :: pending)
      { keep catalog defaults closure type isDirect with
        expanded := type :: closure.expanded } := by
  have collected := keep_references catalog defaults isDirect new
  constructor
  · intro other inside
    rw [collected] at inside
    rcases mem_foldl_insertNew.mp inside with old | itself
    · exact List.mem_cons_of_mem _ (settled.looked other old)
    · split at itself
      · exact List.mem_singleton.mp itself ▸ List.mem_cons_self
      · exact absurd itself List.not_mem_nil
  · intro other inside notPending x emitted
    obtain ⟨different, free⟩ := not_or.mp (mt List.mem_cons.mpr notPending)
    have looked := (List.mem_cons.mp inside).resolve_left different
    rw [collected]
    exact mem_foldl_insertNew.mpr (.inl (settled.emitted other looked free x emitted))

/-- Once all types above it are added, a type is no longer pending. -/
theorem settled_done (ordered : catalog.Ordered) {pending : List TypeId} {closure : Closure}
    {type : TypeId} (settled : Settled catalog defaults (type :: pending) closure)
    (itself : keeps catalog defaults type false = true → type ∈ closure.references)
    (others : ∀ x ∈ (above catalog type).flatMap (walk catalog defaults · false),
      x ∈ closure.references) :
    Settled catalog defaults pending closure := by
  refine ⟨settled.looked, fun other looked free x emitted => ?_⟩
  by_cases same : other = type
  · subst same
    rw [walk_eq ordered] at emitted
    rcases List.mem_append.mp emitted with here | isAbove
    · split at here
      · rename_i kept
        exact List.mem_singleton.mp here ▸ itself kept
      · exact absurd here List.not_mem_nil
    · exact others x isAbove
  · have notPending : other ∉ type :: pending := by
      rw [List.mem_cons]
      exact not_or.mpr ⟨same, free⟩
    exact settled.emitted other looked notPending x emitted

/-- **Adding an anchor inserts what its plain walk emits.** The pending types are those
whose walk led here, and all of them are newer than the anchor. -/
theorem adds_add (ordered : catalog.Ordered) (type : TypeId) (isDirect : Bool)
    (pending : List TypeId) (newer : ∀ waiting ∈ pending, type.height < waiting.height)
    (closure : Closure) (settled : Settled catalog defaults pending closure) :
    Adds catalog defaults pending closure (add catalog defaults closure type isDirect)
      (walk catalog defaults type isDirect) := by
  induction measure : type.height using Nat.strongRecOn
    generalizing type isDirect pending closure with
  | _ height ih =>
      have free : type ∉ pending := fun waiting => Nat.lt_irrefl _ (newer type waiting)
      rw [add_eq ordered]
      by_cases known : type ∈ closure.references
      · rw [if_pos known]
        refine ⟨(foldl_insertNew_of_subset fun x emitted => ?_).symm, settled⟩
        by_cases same : x = type
        · exact same ▸ known
        · exact settled.emitted type (settled.looked type known) free x
            (mem_walk_false ordered emitted same)
      rw [if_neg known]
      by_cases looked : type ∈ closure.expanded
      · rw [if_pos looked]
        exact adds_keep ordered settled isDirect known looked free
      rw [if_neg looked]
      -- everything above the type is older, so the type can join the pending ones
      have parents := adds_foldl (above catalog type) (settled_pending settled isDirect known)
        fun parent isAbove before settledBefore => by
          have older := height_lt_of_mem_above ordered isAbove
          refine ih parent.height (measure ▸ older) parent false (type :: pending) ?_ before
            settledBefore rfl
          intro waiting inside
          rcases List.mem_cons.mp inside with rfl | further
          · exact older
          · exact Nat.lt_trans older (newer waiting further)
      have collected := keep_references catalog defaults isDirect known
      refine ⟨?_, settled_done ordered parents.settled ?_ ?_⟩
      · rw [parents.references, walk_eq ordered, List.foldl_append, ← collected]
      · intro kept
        rw [parents.references]
        refine mem_foldl_insertNew.mpr (.inl ?_)
        have keptToo : keeps catalog defaults type isDirect = true := by
          unfold keeps at kept ⊢
          rw [Bool.false_or] at kept
          rw [kept, Bool.or_true]
        rw [collected, if_pos keptToo]
        exact mem_foldl_insertNew.mpr (.inr List.mem_cons_self)
      · intro x isAbove
        rw [parents.references]
        exact mem_foldl_insertNew.mpr (.inr isAbove)

/-! ## Anchors and trees -/

theorem adds_addAnchors (ordered : catalog.Ordered) (anchors : List Anchor) {closure : Closure}
    (settled : Settled catalog defaults [] closure) :
    Adds catalog defaults [] closure (addAnchors catalog defaults closure anchors)
      (anchors.flatMap fun anchor => walk catalog defaults anchor.type anchor.isDirect) := by
  induction anchors generalizing closure with
  | nil => exact ⟨rfl, settled⟩
  | cons anchor rest ih =>
      have first := adds_add ordered anchor.type anchor.isDirect []
        (fun _ waiting => absurd waiting List.not_mem_nil) closure settled
      have others := ih first.settled
      refine ⟨?_, others.settled⟩
      rw [List.flatMap_cons, List.foldl_append, ← first.references, ← others.references]
      rfl

theorem adds_visits (ordered : catalog.Ordered) (trees : List Tree) {closure : Closure}
    (settled : Settled catalog defaults [] closure) :
    Adds catalog defaults [] closure (trees.foldl (visit catalog defaults) closure)
      (trees.flatMap (walkTree catalog defaults)) := by
  induction trees generalizing closure with
  | nil => exact ⟨rfl, settled⟩
  | cons tree rest ih =>
      have first := adds_addAnchors ordered (tree.anchors catalog) settled
      have others := ih first.settled
      refine ⟨?_, others.settled⟩
      rw [List.flatMap_cons, List.foldl_append, walkTree, ← first.references,
        ← others.references]
      rfl

/-- The types that a tree needs are those that its plain walk emits. -/
theorem typeReferences_eq_distinct_walk (ordered : catalog.Ordered)
    (defaults : DefaultAssemblies) (tree : Tree) :
    tree.typeReferences catalog defaults = distinct (walkTree catalog defaults tree) :=
  (adds_addAnchors ordered (tree.anchors catalog) (settled_empty catalog defaults)).references

/-- The equations of the plain walk, with the base types of a type below the root. -/
structure IsPlainWalk (catalog : Catalog) (defaults : DefaultAssemblies)
    (basesOf : TypeId → List TypeId) (emits : TypeId → Bool → List TypeId) : Prop where
  bases (type : TypeId) :
    basesOf type =
      match catalog.base? type with
      | some base => if base = CoreType.object then [] else base :: basesOf base
      | none => []
  walk (type : TypeId) (isDirect : Bool) :
    emits type isDirect =
      (if isDirect || !defaults.defines catalog type then [type] else []) ++
        (catalog.interfaces type).flatMap (emits · false) ++
          (basesOf type).flatMap (emits · false)

theorem isPlainWalk (ordered : catalog.Ordered) (defaults : DefaultAssemblies) :
    IsPlainWalk catalog defaults (basesBelowRoot catalog) (walk catalog defaults) where
  bases := basesBelowRoot_eq ordered
  walk type isDirect := by
    rw [walk_eq ordered, above, List.flatMap_append, List.append_assoc]
    rfl

/-- **Memory changes neither content nor order.** Trees visited one after the other
give what their plain walks emit, every type at its first occurrence, and also what
they give one by one. -/
theorem visits_eq_distinct_walk (reached : catalog.Reached) (defaults : DefaultAssemblies)
    (trees : List Tree) :
    IsPlainWalk catalog defaults (basesBelowRoot catalog) (walk catalog defaults) ∧
      (trees.foldl (visit catalog defaults) {}).references =
        distinct (trees.flatMap fun tree =>
          (tree.anchors catalog).flatMap fun anchor =>
            walk catalog defaults anchor.type anchor.isDirect) ∧
      (trees.foldl (visit catalog defaults) {}).references =
        distinct (trees.flatMap (Tree.typeReferences catalog defaults)) := by
  have visited := (adds_visits reached.ordered trees (settled_empty catalog defaults)).references
  refine ⟨isPlainWalk reached.ordered defaults, visited, visited.trans ?_⟩
  have separate : trees.flatMap (Tree.typeReferences catalog defaults) =
      trees.flatMap fun tree => distinct (walkTree catalog defaults tree) :=
    List.flatMap_congr fun tree _ => typeReferences_eq_distinct_walk reached.ordered defaults tree
  rw [separate, distinct_flatMap_distinct]
  rfl

/-- A type that was dropped by the first tree is kept by the second one, and a base type
is met again after the type it was found from. -/
theorem visits_crm :
    Catalog.Crm.catalog.Reached ∧
      ([.parameter ⟨"count", CoreType.int32⟩, .constant (.type CoreType.int32) CoreType.type,
          .parameter ⟨"owner", Catalog.Crm.customer⟩,
          .parameter ⟨"entity", Catalog.Crm.entity⟩].foldl
        (visit Catalog.Crm.catalog .builtin) {}).references =
        [CoreType.int32, Catalog.Crm.customer, Catalog.Crm.person, Catalog.Crm.entity,
          Catalog.Crm.audited] :=
  ⟨Catalog.Crm.built_catalog.reached,
    (visits_eq_distinct_walk Catalog.Crm.built_catalog.reached .builtin _).2.1.trans
      (by decide +kernel)⟩

end Closure
end ExprImports
