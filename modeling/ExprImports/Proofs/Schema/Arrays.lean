import ExprImports.Proofs.Catalog.Consistency
import ExprImports.Proofs.Recompilation.Diagnostics
import ExprImports.Proofs.Recompilation.Safety
import ExprImports.Proofs.Schema.Loading

/-!
# Array types are there

Expressions are bound over a catalog that cannot grow any more, so `new T[] { .. }` has a meaning
only if the array type of `T` exists. The last step of loading a schema adds the array type of
every type that is no open definition, no array and no parameter (`exists_findArray?_withArrays`).

**Names.** Open definitions are known under names with a backquote, instantiations under names with
angle brackets, and arrays and parameters under none. No text can write any of these, so whatever
`T` resolves to has its array type, under all hints. An array type is found missing only where one
is created (`blames_of_compile_error`), so no text is ever refused for want of one
(`arrays_available`).
-/

set_option autoImplicit false

namespace ExprImports

/-! ## The last step of loading -/

namespace Schema

open Catalog (Growth)

variable {catalog : Catalog}

/-- The catalog with the array types of these elements, each made in the catalog that the one
before it has left. -/
abbrev arraysOf (catalog : Catalog) (elements : List TypeId) : Catalog :=
  elements.foldl (fun catalog element => (catalog.arrayOf element 1).2) catalog

theorem extends_arraysOf (catalog : Catalog) (elements : List TypeId) :
    (arraysOf catalog elements).Extends catalog := by
  induction elements generalizing catalog with
  | nil => exact .refl catalog
  | cons element rest ih => exact (ih _).trans (Catalog.extends_arrayOf catalog element 1)

theorem names_arraysOf (catalog : Catalog) (elements : List TypeId) :
    (arraysOf catalog elements).names = catalog.names := by
  induction elements generalizing catalog with
  | nil => rfl
  | cons element rest ih => exact (ih _).trans (Catalog.names_arrayOf catalog element 1)

/-- What has been added stays: the first array type of an element remains the first one. -/
theorem exists_findArray?_arraysOf {elements : List TypeId} {element : TypeId}
    (isElement : element ∈ elements) :
    ∃ array, (arraysOf catalog elements).findArray? element 1 = some array := by
  induction elements generalizing catalog with
  | nil => cases isElement
  | cons first rest ih =>
      cases isElement with
      | head =>
          have made := Catalog.findArray?_arrayOf catalog element 1
          exact ⟨_, (extends_arraysOf (catalog.arrayOf element 1).2 rest).arrays _ _ _ made⟩
      | tail _ inRest => exact ih inRest

theorem names_withArrays (catalog : Catalog) : (withArrays catalog).names = catalog.names :=
  names_arraysOf catalog _

/-- **Every type that gets an array type has one in the end.** -/
theorem exists_findArray?_withArrays {element : TypeId} {entry : TypeEntry}
    (found : catalog.find? element = some entry) (gets : getsArray entry = true) :
    ∃ array, (withArrays catalog).findArray? element 1 = some array := by
  have isListed : element ∈ catalog.typeIds := by
    cases element with
    | null => cases found
    | entry position =>
        have inside : position + 1 ≤ catalog.types.size := Catalog.admits_of_find? found
        exact List.mem_map.mpr ⟨position, List.mem_range.mpr inside, rfl⟩
  refine exists_findArray?_arraysOf (List.mem_filter.mpr ⟨isListed, ?_⟩)
  rw [found, Option.any_some, gets]

theorem exists_findArray?_of_isPlain {element : TypeId} (plain : catalog.IsPlain element) :
    ∃ array, (withArrays catalog).findArray? element 1 = some array := by
  obtain ⟨entry, kind, found, nominal, single⟩ := plain
  refine exists_findArray?_withArrays found ?_
  simp only [getsArray, nominal, single, Genericity.isDefinition, Bool.not_false]

end Schema

/-- The schema is that of a document, or the one without a document. -/
def Schema.IsLoaded (schema : Schema) : Prop :=
  (∃ text, Schema.ofText text = .ok schema) ∨ schema = .core

/-- The catalog of a loaded schema has got its array types last of all. -/
theorem Schema.IsLoaded.exists_withArrays {schema : Schema} (loaded : schema.IsLoaded) :
    ∃ catalog : Catalog, catalog.Built ∧ schema.catalog = Schema.withArrays catalog := by
  obtain ⟨text, done⟩ | rfl := loaded
  · unfold Schema.ofText at done
    split at done
    · cases done
    · obtain ⟨⟨environment, catalog⟩, found, done⟩ := exists_of_bind_eq_ok done
      cases done
      exact ⟨catalog, (Schema.grows_loadAll _ .initial found).1.built, rfl⟩
  · exact ⟨.initial, .initial, rfl⟩

namespace Binding

open Surface

variable {context : Context}

/-- **What a name can stand for has its array type.** The name is that of a plain type already
before the array types are added. -/
theorem exists_findArray?_of_resolve {schema : Schema} (loaded : schema.IsLoaded)
    (same : context.catalog = schema.catalog) {named : TypeName} (dotted : IsDotted named.name)
    {element : TypeId} (resolved : context.resolve named = .ok element) :
    ∃ array, context.catalog.findArray? element 1 = some array := by
  obtain ⟨catalog, built, isLast⟩ := loaded.exists_withArrays
  have unmarked := isUnmarked_expandAlias dotted
  have known {name : String} (found : context.catalog.findType? name = some element) :
      catalog.findType? name = some element := by
    rwa [same, isLast, Catalog.findType?, Schema.names_withArrays] at found
  have plain : catalog.IsPlain element := by
    obtain here | ⟨place, there⟩ :=
      Context.findType?_of_uniqueType? (Context.resolve_eq_ok_iff.mp resolved).1
    · exact built.isPlain_of_findType? (not_isMarked unmarked) (known here)
    · exact built.isPlain_of_findType? (not_isMarked_qualified place unmarked) (known there)
  rw [same, isLast]
  exact Schema.exists_findArray?_of_isPlain plain

/-! ## Messages -/

/-- A text that begins with a fixed text begins with the same letter. -/
theorem any_head?_append {test : Char → Bool} {front : String}
    (begins : front.toList.head?.any test = true) (tail : String) :
    (front ++ tail).toList.head?.any test = true := by
  rw [String.toList_append, List.head?_append]
  cases isFirst : front.toList.head? with
  | none =>
      rw [isFirst] at begins
      cases begins
  | some first =>
      rw [isFirst] at begins
      exact begins

/-- Only the message of a missing array type begins with this letter. -/
theorem Cause.begins_arrayUnavailable (catalog : Catalog) (element : TypeId) :
    ((Cause.arrayUnavailable element).message catalog).toList.head?.any (· = 'A') = true := by
  unfold Cause.message
  repeat with_reducible refine any_head?_append ?_ _
  decide

theorem Cause.begins_of_isArrayUnavailable_eq_false {cause : Cause}
    (isOther : cause.isArrayUnavailable = false) (catalog : Catalog) :
    (cause.message catalog).toList.head?.any (· ≠ 'A') = true := by
  cases cause with
  | arrayUnavailable _ => cases isOther
  | _ =>
      unfold Cause.message
      try unfold ticked
      repeat with_reducible refine any_head?_append ?_ _
      decide

end Binding

/-! ## Texts -/

namespace SurfaceCompiler

open Binding Surface

variable {schema : Schema} {catalog : Catalog} {session : Session} {environment : Environment}
  {report : Diagnostic}

/-- The diagnostic says that an array type is missing. -/
def LacksArray (catalog : Catalog) (report : Diagnostic) : Prop :=
  ∃ element, report.message = (Cause.arrayUnavailable element).message catalog

theorem not_lacksArray_of_begins (begins : report.message.toList.head?.any (· ≠ 'A') = true) :
    ¬ LacksArray catalog report := by
  rintro ⟨element, same⟩
  have other := Cause.begins_arrayUnavailable catalog element
  rw [← same] at other
  cases isFirst : report.message.toList.head? with
  | none =>
      rw [isFirst] at other
      cases other
  | some first =>
      rw [isFirst, Option.any_some, decide_eq_true_eq] at begins other
      exact begins other

theorem not_lacksArray_of_read_error (failed : read session = .error report) :
    ¬ LacksArray catalog report := by
  refine not_lacksArray_of_begins ?_
  unfold read at failed
  split at failed
  next fault cannotCut =>
    cases failed
    unfold diagnostic
    cases fault <;>
    · dsimp only [TokenFault.message]
      repeat with_reducible refine any_head?_append ?_ _
      decide
  next tokens cut =>
    obtain ⟨fault, _, rfl⟩ := exists_of_mapError_eq_error failed
    unfold diagnostic
    cases fault <;>
    · dsimp only [ParseFault.message]
      repeat with_reducible refine any_head?_append ?_ _
      decide

theorem exists_findArray?_of_read (loaded : schema.IsLoaded) {expression : Expression}
    (isRead : read session = .ok expression) {named : TypeName} {items : List Expression}
    {span : Span}
    (occurs : (Part.expression (.createArray named items span)).Occurs (.expression expression))
    {element : TypeId}
    (resolved : (context schema.catalog session environment).resolve named = .ok element) :
    ∃ array, schema.catalog.findArray? element 1 = some array := by
  have isName : (Part.type named).Occurs (.expression (.createArray named items span)) :=
    .inPart List.mem_cons_self .root
  have dotted := Recompiler.namesDotted_of_read isRead named (isName.trans occurs)
  exact exists_findArray?_of_resolve loaded rfl dotted resolved

/-- Over the types of a loaded schema binding never fails for want of an array type. -/
theorem not_lacksArray_of_compile_error (loaded : schema.IsLoaded)
    (failed : compile schema.catalog session environment = .error report) :
    ¬ LacksArray schema.catalog report := by
  rcases cases_of_bind_eq_error failed with cannotRead | ⟨expression, isRead, failed⟩
  · exact not_lacksArray_of_read_error cannotRead
  · obtain ⟨fault, cannotBind, rfl⟩ := exists_of_mapError_eq_error failed
    cases blames_of_compile_error cannotBind with
    | part occurs isOther =>
        refine not_lacksArray_of_begins ?_
        exact Cause.begins_of_isArrayUnavailable_eq_false isOther schema.catalog
    | array occurs resolved absent =>
        obtain ⟨array, there⟩ := exists_findArray?_of_read loaded isRead occurs resolved
        cases absent.symm.trans there

/-- The conversion to a target asks for no array type. -/
theorem not_lacksArray_of_retarget_error {compiled : Compiled} {target : TypeId}
    (failed : retarget catalog session compiled target = .error (.source report)) :
    ¬ LacksArray catalog report := by
  unfold retarget at failed
  split at failed
  · cases failed
  · split at failed
    · cases failed
    · split at failed
      next fault cannotConvert =>
        have here := faultsAt_coerce (wholeText session) catalog compiled.body target
        rw [cannotConvert] at here
        cases here with
        | error isOther =>
          cases failed
          refine not_lacksArray_of_begins ?_
          exact Cause.begins_of_isArrayUnavailable_eq_false isOther catalog
      next => cases failed

/-- **No array type is missing** in a loaded schema, whatever the text, the hints and the variables.
Wherever the text creates an array of a type that can be named, the array type exists, and no
diagnostic says of any type that its array type is not available. -/
theorem arrays_available (loaded : schema.IsLoaded) (session : Session)
    (environment : Environment) :
    (∀ expression, read session = .ok expression → ∀ named items span,
      (Part.expression (.createArray named items span)).Occurs (.expression expression) →
        ∀ element, (context schema.catalog session environment).resolve named = .ok element →
          ∃ array, schema.catalog.findArray? element 1 = some array) ∧
      ∀ report,
        ((compiler schema.catalog).compileInferred session environment = .error (.source report) ∨
          ∃ target, (compiler schema.catalog).compileTargeted session environment target =
            .error ⟨.source report⟩) →
          ¬ LacksArray schema.catalog report := by
  refine ⟨fun expression isRead named items span occurs element => ?_, fun report reported => ?_⟩
  · exact exists_findArray?_of_read loaded isRead occurs
  rcases reported with inferred | ⟨target, targeted⟩
  · obtain ⟨inner, failed, same⟩ := exists_of_mapError_eq_error inferred
    cases same
    exact not_lacksArray_of_compile_error loaded failed
  · dsimp only [compiler] at targeted
    split at targeted
    next fault cannotCompile =>
      obtain ⟨inner, failed, rfl⟩ := exists_of_mapError_eq_error cannotCompile
      cases targeted
      exact not_lacksArray_of_compile_error loaded failed
    next compiled compiles =>
      obtain ⟨inner, failed, same⟩ := exists_of_mapError_eq_error targeted
      cases same
      exact not_lacksArray_of_retarget_error failed

/-- A document with one class. -/
def boxesText : String :=
  "[[assembly]]\nname = \"Crm\"\n[[type]]\nname = \"Box\"\nassembly = \"Crm\"\n"

/-- An array of boxes is created. -/
def newBoxes : Session := { text := "new Box[] {}", assemblies := [], namespaces := [] }

def boxName : TypeName := ⟨"Box", ⟨4, 3⟩⟩

def newBoxesRead : Expression := .createArray boxName [] ⟨0, 12⟩

theorem exists_boxes : ∃ schema, Schema.ofText boxesText = .ok schema ∧
    schema.catalog.findType? "Box" = some (.entry 16) := by
  have known : (Schema.ofText boxesText).toOption.any (fun schema =>
      schema.catalog.findType? "Box" = some (.entry 16)) = true := by
    decide +kernel
  cases loaded : Schema.ofText boxesText with
  | error fault =>
      rw [loaded] at known
      cases known
  | ok schema =>
      rw [loaded] at known
      exact ⟨schema, rfl, of_decide_eq_true known⟩

/-- The array type of boxes is there, though the document does not mention it. -/
theorem arrays_available_boxes : ∃ schema, Schema.ofText boxesText = .ok schema ∧
    read newBoxes = .ok newBoxesRead ∧
      (context schema.catalog newBoxes {}).resolve boxName = .ok (.entry 16) ∧
        (∃ array, schema.catalog.findArray? (.entry 16) 1 = some array) ∧
          ∀ report, (compiler schema.catalog).compileInferred newBoxes {} =
            .error (.source report) → ¬ LacksArray schema.catalog report := by
  obtain ⟨schema, loaded, known⟩ := exists_boxes
  have isRead : read newBoxes = .ok newBoxesRead := by with_unfolding_all rfl
  have unique : (context schema.catalog newBoxes {}).uniqueType? "Box" = some (.entry 16) := by
    have offered : (context schema.catalog newBoxes {}).candidates "Box" = [.entry 16] := by
      have plain : expandAlias "Box" = "Box" := by decide
      unfold Context.candidates
      dsimp only [context]
      rw [plain, known]
    rw [Context.uniqueType?, offered]
  have resolved := Context.resolve_eq_ok_iff.mpr
    (⟨unique, rfl⟩ : (context schema.catalog newBoxes {}).uniqueType? boxName.name = _ ∧ _)
  obtain ⟨arrays, spared⟩ := arrays_available (.inl ⟨boxesText, loaded⟩) newBoxes {}
  exact ⟨schema, loaded, isRead, resolved, arrays _ isRead _ _ _ .root _ resolved,
    fun report failed => spared report (.inl failed)⟩

end SurfaceCompiler

end ExprImports
