import ExprImports.Proofs.Schema.Readings
import ExprImports.Proofs.Schema.Declaring

/-!
# What loading makes of outlines

Each step of loading a schema is told here once more as a step on outlines, which knows nothing of
identities. In a loaded catalog the step itself agrees with it: both fail, or both succeed and the
outline of the catalog afterwards is the one that is told.
-/

set_option autoImplicit false

namespace ExprImports

namespace Schema

open Catalog (Grown Loaded Continues Follows)

variable {namespaceName : Option String} {before : Catalog}

/-! ## Texts -/

theorem resolve_text_agrees (loaded : before.Loaded) (isPlain : IsPlainNamespace namespaceName)
    (referrer : Referrer) (text : String) :
    Agrees (Resolves before) (resolve namespaceName referrer text before)
      ((TypeReference.ofText text).reading? before.outline.headings namespaceName) :=
  (resolve_agrees loaded (arePlain_lookups_ofText isPlain text)).mapError

theorem resolveAll_agrees (loaded : before.Loaded) (isPlain : IsPlainNamespace namespaceName)
    (referrer : Referrer) (texts : List String) :
    Agrees (ResolvesAll before) (texts.mapM (resolve namespaceName referrer) before)
      (readings? before.outline.headings namespaceName (texts.map .ofText)) := by
  induction texts generalizing before with
  | nil =>
      rw [List.map_nil, readings?]
      exact .ok ⟨.refl loaded, .nil⟩
  | cons text rest ih =>
      rw [List.mapM_cons, List.map_cons, readings?]
      refine (resolve_text_agrees loaded isPlain referrer text).bind ?_
      rintro ⟨type, middle⟩ ⟨heading, made⟩ ⟨grown, told⟩
      have others := ih grown.loaded
      rw [grown.headings_eq] at others
      dsimp only
      rw [Option.map_eq_bind]
      refine others.bind ?_
      rintro ⟨types, last⟩ ⟨headings, further⟩ ⟨grownAgain, areOthers⟩
      exact .ok ⟨grown.trans grownAgain,
        .cons (grown.loaded.heading?_eq grownAgain.interns.kept told) areOthers⟩

/-! ## Declarations -/

namespace DeclaredType

variable (declared : DeclaredType)

/-- The name by which the type is found, which has the number of parameters behind it if there are
any. -/
def recordedName : String :=
  if declared.genericParameters.isEmpty then declared.fullName
  else genericName declared.fullName declared.genericParameters.length

/-- No name that is declared has an opening angle bracket. -/
def HasPlainName : Prop :=
  '<' ∉ declared.fullName.toList

/-- What is handed to the catalog. -/
def declaration (assembly : AssemblyId) (base : Option TypeId) (interfaces : List TypeId) :
    TypeDeclaration where
  name := declared.name
  namespaceName := declared.namespace?
  assembly
  kind := declared.kind
  base
  interfaces
  parameters := declared.genericParameters

/-- The full name of the base type. -/
def readBase? (headings : String → Option Heading) : Option (Option String × Set Heading) :=
  match declared.base with
  | some text =>
    ((TypeReference.ofText text).reading? headings declared.namespace?).map fun (base, made) =>
      (some base.fullName, made)
  | none => some (declared.defaultBase.map Catalog.initial.fullName, ∅)

/-- The heading that the type gets, and all other headings that come with it, as long as its name is
not known. -/
def announced? (assemblies : String → Option AssemblyId) (headings : String → Option Heading) :
    Option (Heading × Set Heading) :=
  (assemblies declared.assembly).bind fun assembly =>
    if (headings declared.fullName).isSome ||
        (headings (genericName declared.fullName declared.genericParameters.length)).isSome then
      none
    else
      (declared.readBase? headings).bind fun (base, made) =>
        (readings? headings declared.namespace? (declared.interfaces.map .ofText)).map
          fun (interfaces, further) =>
            let declaration := declared.declaration assembly none []
            (declaration.heading base (interfaces.map (·.fullName)),
              (made ∪ further) ∪ declaration.parameterHeadings)

end DeclaredType

/-- The outline with the declared type, if there can be one. -/
def declare? (outline : Outline) (declared : DeclaredType) : Option Outline :=
  (declared.announced? outline.assemblies outline.headings).map fun (heading, made) =>
    outline.declare heading made

theorem declare_gain (outline : Outline) (heading : Heading) (made parameters : Set Heading) :
    (outline.gain made).declare heading parameters = outline.declare heading (made ∪ parameters) := by
  simp only [Outline.gain, Outline.declare, Set.union_assoc]

section Declaring

variable {declared : DeclaredType}

theorem isPlainNamespace_namespace? (plain : declared.HasPlainName) :
    IsPlainNamespace declared.namespace? := by
  intro place isPlace inside
  refine plain ?_
  rw [DeclaredType.fullName, isPlace, String.toList_append, String.toList_append]
  exact List.mem_append_left _ (List.mem_append_left _ inside)

theorem not_isBracketed_genericName (definition : String) (arity : Nat) :
    ¬ IsBracketed (genericName definition arity) :=
  not_isBracketed_of_getLast? (getLast?_genericName definition arity)

theorem not_isBracketed_recordedName (plain : declared.HasPlainName) :
    ¬ IsBracketed declared.recordedName := by
  unfold DeclaredType.recordedName
  split
  · exact fun bracketed => plain bracketed.1
  · exact not_isBracketed_genericName _ _

theorem isKnown_eq (loaded : before.Loaded) (plain : declared.HasPlainName) :
    declared.isKnown before =
      ((before.outline.headings declared.fullName).isSome ||
        (before.outline.headings
          (genericName declared.fullName declared.genericParameters.length)).isSome) := by
  rw [loaded.isSome_headings fun bracketed => plain bracketed.1,
    loaded.isSome_headings (not_isBracketed_genericName _ _)]
  rfl

theorem findType?_recordedName_eq_none (unknown : declared.isKnown before = false) :
    before.findType? declared.recordedName = none := by
  obtain ⟨here, generic⟩ := Bool.or_eq_false_iff.mp unknown
  unfold DeclaredType.recordedName
  split
  · exact Option.isNone_iff_eq_none.mp (Option.isSome_eq_false_iff.mp here)
  · exact Option.isNone_iff_eq_none.mp (Option.isSome_eq_false_iff.mp generic)

/-- The base type is the one whose name is read. -/
abbrev HasBase (before : Catalog) : Option TypeId × Catalog → Option String × Set Heading → Prop :=
  fun resolved read => Grown before resolved.2 read.2 ∧
    (∀ base, resolved.1 = some base → resolved.2.Admits base) ∧
      resolved.1.map resolved.2.fullName = read.1

/-- The step that finds the base type. -/
def baseOf (declared : DeclaredType) : Load (Option TypeId) :=
  match declared.base with
  | some text => some <$> resolve declared.namespace? (.type declared.fullName) text
  | none => pure declared.defaultBase

theorem baseOf_agrees (loaded : before.Loaded) (plain : declared.HasPlainName) :
    Agrees (HasBase before) (baseOf declared before)
      (declared.readBase? before.outline.headings) := by
  unfold baseOf DeclaredType.readBase?
  cases declared.base with
  | some text =>
      refine (resolve_text_agrees loaded (isPlainNamespace_namespace? plain) _ text).map ?_
      rintro ⟨type, after⟩ ⟨heading, made⟩ ⟨grown, told⟩
      refine ⟨grown, ?_, congrArg some (Catalog.fullName_of_heading? told)⟩
      rintro base ⟨⟩
      exact Catalog.admits_of_heading? told
  | none =>
      have admitted (base : TypeId) := @admits_defaultBase declared before loaded.built base
      refine .ok ⟨.refl loaded, admitted, Option.map_congr fun base isBase => ?_⟩
      refine loaded.built.fullName_core ?_
      unfold DeclaredType.defaultBase at isBase
      split at isBase <;> cases isBase <;> decide

theorem get_bind {α : Type} (next : Catalog → Load α) (before : Catalog) :
    ((get : Load Catalog) >>= next) before = next before before := rfl

theorem declare_eq (declared : DeclaredType) (before : Catalog) :
    declared.declare before =
      match before.findAssembly? declared.assembly with
      | none => .error (.unknownAssembly declared.fullName declared.assembly)
      | some assembly =>
        if declared.isKnown before then .error (.duplicateType declared.fullName)
        else
          baseOf declared before >>= fun (base, middle) =>
            declared.interfaces.mapM
                (resolve declared.namespace? (.type declared.fullName)) middle >>=
              fun (interfaces, last) =>
                .ok (last.define (declared.declaration assembly base interfaces)) := by
  unfold DeclaredType.declare baseOf
  rw [get_bind]
  cases before.findAssembly? declared.assembly with
  | none => rfl
  | some assembly =>
      dsimp only
      rw [get_bind]
      cases declared.isKnown before with
      | true => rfl
      | false =>
          cases declared.base with
          | some text => rfl
          | none => rfl

/-- **Declaring a type agrees with announcing it.** Afterwards the type is found by its name. -/
theorem declare_agrees (loaded : before.Loaded) (plain : declared.HasPlainName) :
    Agrees (fun made told => Follows before made.2 told ∧
        made.2.findType? declared.recordedName = some made.1)
      (declared.declare before) (declare? before.outline declared) := by
  rw [declare_eq, declare?, DeclaredType.announced?,
    show before.outline.assemblies = before.findAssembly? from rfl]
  cases before.findAssembly? declared.assembly with
  | none => exact .error _
  | some assembly =>
      rw [Option.bind_some]
      dsimp only
      rw [← isKnown_eq loaded plain]
      cases known : declared.isKnown before with
      | true => exact .error _
      | false =>
          rw [if_neg Bool.false_ne_true, if_neg Bool.false_ne_true, Option.map_bind]
          refine (baseOf_agrees loaded plain).bind ?_
          rintro ⟨base, middle⟩ ⟨baseName, made⟩ ⟨grown, admitsBase, isBaseName⟩
          rw [Function.comp_apply, Option.map_map, Option.map_eq_bind]
          have parents := resolveAll_agrees grown.loaded (isPlainNamespace_namespace? plain)
            (.type declared.fullName) declared.interfaces
          rw [grown.headings_eq] at parents
          refine parents.bind ?_
          rintro ⟨interfaces, last⟩ ⟨headings, further⟩ ⟨grownAgain, areInterfaces⟩
          have all := grown.trans grownAgain
          have isPlain := not_isBracketed_recordedName plain
          have unknown := (all.interns.findType?_eq isPlain).trans
            (findType?_recordedName_eq_none known)
          have admitted : ∀ parent ∈ interfaces ++ base.toList, last.Admits parent := by
            intro parent isParent
            rcases List.mem_append.mp isParent with isInterface | isBase
            · exact areInterfaces.admits parent isInterface
            · exact Nat.le_trans (admitsBase parent (Option.mem_toList.mp isBase))
                grownAgain.interns.kept.size_le
          have sameBase : base.map last.fullName = baseName := by
            refine (Option.map_congr fun parent isBase => ?_).trans isBaseName
            exact grownAgain.interns.kept.fullName_eq (admitsBase parent isBase)
          have follows := @Catalog.Loaded.follows_define last
            (declared.declaration assembly base interfaces) admitted unknown all.loaded isPlain
          refine .ok ⟨⟨follows.loaded, all.interns.continues.trans follows.continues, ?_⟩,
            Catalog.findType?_define_self last _⟩
          rw [follows.outline, all.outline, declare_gain]
          simp only [DeclaredType.declaration, sameBase, areInterfaces.map_fullName]
          rfl

end Declaring

/-! ## Reading members -/

/-- What is read to be added to a body, and the headings that come with it. -/
abbrev Addition := Option (Body × Set Heading)

/-- One addition behind another one. -/
def Addition.andThen (first second : Addition) : Addition :=
  first.bind fun (body, made) => second.map fun (others, further) =>
    (body.append others, made ∪ further)

/-- Several additions, one behind the other. -/
def Addition.all : List Addition → Addition
  | [] => some ({}, ∅)
  | first :: rest => first.andThen (all rest)

section Reading

variable (headings : String → Option Heading) (namespaceName : Option String)

/-- A property or a field. -/
def readMember? (name type : String) (kind : MemberKind) (isStatic : Bool) : Addition :=
  ((TypeReference.ofText type).reading? headings namespaceName).map fun (type, made) =>
    ({ members := [⟨name, type.fullName, kind, isStatic⟩] }, made)

/-- The full name of what a method returns. -/
def readReturns? (returns : Option String) : Option (String × Set Heading) :=
  match returns with
  | some text =>
    ((TypeReference.ofText text).reading? headings namespaceName).map fun (type, made) =>
      (type.fullName, made)
  | none => some (Catalog.initial.fullName CoreType.void, ∅)

def readMethod? (method : DeclaredMethod) : Addition :=
  (readings? headings namespaceName (method.parameters.map .ofText)).bind
    fun (parameters, made) =>
      (readReturns? headings namespaceName method.returns).map fun (returnType, further) =>
        ({ methods := [
          { name := method.name
            parameters := parameters.map (·.fullName)
            returnType
            genericArguments := []
            isGenericDefinition := false
            isStatic := method.isStatic
            kind := .ordinary }] }, made ∪ further)

def readConstructor? (constructor : DeclaredConstructor) : Addition :=
  (readings? headings namespaceName (constructor.parameters.map .ofText)).map
    fun (parameters, made) => ({ constructors := [parameters.map (·.fullName)] }, made)

def readIndexer? (indexer : DeclaredIndexer) : Addition :=
  (readings? headings namespaceName (indexer.parameters.map .ofText)).bind
    fun (parameters, made) =>
      ((TypeReference.ofText indexer.type).reading? headings namespaceName).map
        fun (type, further) =>
          ({ methods := [
            { name := Catalog.indexerName
              parameters := parameters.map (·.fullName)
              returnType := type.fullName
              genericArguments := []
              isGenericDefinition := false
              isStatic := false
              kind := .indexer indexer.settable }] }, made ∪ further)

/-- All that the type declares. -/
def DeclaredType.readBody? (declared : DeclaredType) : Addition :=
  let namespaceName := declared.namespace?
  (Addition.all (declared.properties.map fun property =>
    readMember? headings namespaceName property.name property.type (.property property.settable)
      property.isStatic)).andThen <|
  (Addition.all (declared.fields.map fun field =>
    readMember? headings namespaceName field.name field.type (.field field.readOnly)
      field.isStatic)).andThen <|
  (Addition.all (declared.methods.map (readMethod? headings namespaceName))).andThen <|
  (Addition.all (declared.constructors.map (readConstructor? headings namespaceName))).andThen <|
  Addition.all (declared.indexers.map (readIndexer? headings namespaceName))

end Reading

/-- The outline with the members of the type, if all types in them can be read. -/
def describe? (outline : Outline) (declared : DeclaredType) : Option Outline :=
  (declared.readBody? outline.headings).map fun (body, made) =>
    (outline.gain made).record declared.recordedName body

section Members

variable {type : TypeId} {name : String} {α β : Type}

/-- The step adds to the body of the name what is read, wherever the name stands for the type. -/
def Records (type : TypeId) (name : String) (holds : α → Prop) (step : Load α)
    (read? : (String → Option Heading) → Addition) : Prop :=
  ∀ ⦃before : Catalog⦄, before.Loaded → before.findType? name = some type →
    Agrees (fun made read => holds made.1 ∧
        Follows before made.2 ((before.outline.gain read.2).record name read.1))
      (step before) (read? before.outline.headings)

/-- A round of a loop that goes on. -/
abbrev RecordsRound (type : TypeId) (name : String) (round : Load (ForInStep PUnit))
    (read? : (String → Option Heading) → Addition) : Prop :=
  Records type name (· = .yield PUnit.unit) round read?

theorem record_record (outline : Outline) (name : String) (first second : Body)
    (made further : Set Heading) :
    (((outline.gain made).record name first).gain further).record name second =
      (outline.gain (made ∪ further)).record name (first.append second) := by
  simp only [Outline.gain, Outline.record, Function.update_self, Function.update_idem,
    Body.append_assoc, Set.union_assoc]

theorem record_empty (outline : Outline) (name : String) :
    (outline.gain ∅).record name {} = outline := by
  rw [Outline.gain_empty, Outline.record, Body.append_empty, Function.update_eq_self]

theorem records_pure {holds : α → Prop} {value : α} (isSo : holds value) :
    Records type name holds (pure value) fun _ => some ({}, ∅) := by
  intro before loaded stands
  refine .ok ⟨isSo, ?_⟩
  rw [record_empty]
  exact .refl loaded

theorem Records.andThen {always : α → Prop} {holds : β → Prop} {first : Load α}
    {next : α → Load β} {here there : (String → Option Heading) → Addition}
    (plain : ¬ IsBracketed name) (start : Records type name always first here)
    (continues : ∀ value, always value → Records type name holds (next value) there) :
    Records type name holds (first >>= next)
      fun headings => (here headings).andThen (there headings) := by
  intro before loaded stands
  refine (start loaded stands).bind ?_
  rintro ⟨value, middle⟩ ⟨body, made⟩ ⟨isSo, follows⟩
  have headings : middle.outline.headings = before.outline.headings := by
    rw [follows.outline]
    rfl
  have further := continues value isSo follows.loaded
    (follows.continues.names name type plain stands)
  rw [headings] at further
  dsimp only
  refine further.mapTold ?_
  rintro ⟨result, last⟩ ⟨others, more⟩ ⟨holds, followsAgain⟩
  refine ⟨holds, followsAgain.loaded, follows.continues.trans followsAgain.continues, ?_⟩
  rw [followsAgain.outline, follows.outline, record_record]

theorem Records.discard {always : α → Prop} {step : Load α}
    {read? : (String → Option Heading) → Addition} (records : Records type name always step read?) :
    Records type name (fun _ => True) (step >>= fun _ => pure PUnit.unit) read? := by
  intro before loaded stands
  have agrees := records loaded stands
  rw [← Option.bind_fun_some (read? before.outline.headings)]
  refine agrees.bind ?_
  rintro ⟨value, after⟩ read ⟨_, follows⟩
  exact .ok ⟨trivial, follows⟩

/-- **A loop** adds what its rounds add, one behind the other. -/
theorem records_forIn (type : TypeId) (items : List α) {round : α → Load (ForInStep PUnit)}
    {read? : (String → Option Heading) → α → Addition} (plain : ¬ IsBracketed name)
    (each : ∀ item, RecordsRound type name (round item) fun headings => read? headings item) :
    Records type name (fun _ => True) (forIn items PUnit.unit fun item _ => round item)
      fun headings => Addition.all (items.map (read? headings)) := by
  induction items with
  | nil => exact records_pure trivial
  | cons item rest ih =>
      rw [List.forIn_cons]
      refine (each item).andThen plain ?_
      rintro _ rfl
      exact ih

theorem follows_of_grown {middle after : Catalog} {made : Set Heading} {body : Body}
    (grown : Grown before middle made)
    (follows : Follows middle after (middle.outline.record name body)) :
    Follows before after ((before.outline.gain made).record name body) :=
  ⟨follows.loaded, grown.interns.continues.trans follows.continues,
    grown.outline ▸ follows.outline⟩

/-! ## Adding members -/

/-- What a method returns. -/
def returnOf (namespaceName : Option String) (referrer : Referrer) (returns : Option String) :
    Load TypeId :=
  match returns with
  | some text => resolve namespaceName referrer text
  | none => pure CoreType.void

/-- Whether it is given or not, loading goes on in the same way. -/
theorem returnOf_bind {β : Type} (referrer : Referrer) (returns : Option String)
    (next : TypeId → Load β) :
    (match returns with
      | some text => resolve namespaceName referrer text >>= next
      | none => pure CoreType.void >>= next) = returnOf namespaceName referrer returns >>= next := by
  cases returns <;> rfl

theorem returnOf_agrees (loaded : before.Loaded) (isPlain : IsPlainNamespace namespaceName)
    (referrer : Referrer) (returns : Option String) :
    Agrees (fun resolved read => Grown before resolved.2 read.2 ∧
        resolved.2.Admits resolved.1 ∧ resolved.2.fullName resolved.1 = read.1)
      (returnOf namespaceName referrer returns before)
      (readReturns? before.outline.headings namespaceName returns) := by
  unfold returnOf readReturns?
  cases returns with
  | some text =>
      refine (resolve_text_agrees loaded isPlain referrer text).mapTold ?_
      rintro ⟨type, after⟩ ⟨heading, made⟩ ⟨grown, told⟩
      exact ⟨grown, Catalog.admits_of_heading? told, Catalog.fullName_of_heading? told⟩
  | none =>
      have core : CoreType.void.height ≤ CoreType.count := by decide
      have admitted : before.Admits CoreType.void := Nat.le_trans
        (Nat.le_trans core (Nat.le_of_eq Catalog.size_initial.symm))
        loaded.built.extends_initial.size_le
      exact .ok ⟨.refl loaded, admitted, loaded.built.fullName_core core⟩

section Rounds

variable {namespaceName : Option String} (plain : ¬ IsBracketed name)
  (isPlain : IsPlainNamespace namespaceName)
include plain isPlain

theorem records_member (referrer : Referrer) (text member : String) (kind : MemberKind)
    (isStatic : Bool) :
    RecordsRound type name
      (do
        let memberType ← resolve namespaceName referrer text
        modify (·.addMember type member memberType kind isStatic)
        pure (.yield PUnit.unit))
      fun headings => readMember? headings namespaceName member text kind isStatic := by
  intro before loaded stands
  dsimp only [readMember?]
  rw [Option.map_eq_bind]
  refine (resolve_text_agrees loaded isPlain referrer text).bind ?_
  rintro ⟨memberType, middle⟩ ⟨heading, made⟩ ⟨grown, told⟩
  have standsStill := grown.interns.continues.names name type plain stands
  have admitted := Catalog.admits_of_heading? told
  have follows : Follows middle (middle.addMember type member memberType kind isStatic) _ :=
    grown.loaded.follows_addMember plain standsStill admitted kind isStatic
  rw [Catalog.fullName_of_heading? told] at follows
  exact .ok ⟨rfl, follows_of_grown grown follows⟩

theorem records_constructor (referrer : Referrer) (constructor : DeclaredConstructor) :
    RecordsRound type name
      (do
        let parameters ← resolveAll namespaceName referrer constructor.parameters
        modify (·.addConstructor type parameters)
        pure (.yield PUnit.unit))
      fun headings => readConstructor? headings namespaceName constructor := by
  intro before loaded stands
  dsimp only [readConstructor?]
  rw [Option.map_eq_bind]
  refine (resolveAll_agrees loaded isPlain referrer constructor.parameters).bind ?_
  rintro ⟨parameters, middle⟩ ⟨headings, made⟩ ⟨grown, told⟩
  have follows := grown.loaded.follows_addConstructor plain
    (grown.interns.continues.names name type plain stands) told.admits
  rw [told.map_fullName] at follows
  exact .ok ⟨rfl, follows_of_grown grown follows⟩

theorem records_indexer (referrer : Referrer) (indexer : DeclaredIndexer) :
    RecordsRound type name
      (do
        let parameters ← resolveAll namespaceName referrer indexer.parameters
        let itemType ← resolve namespaceName referrer indexer.type
        modify (·.addIndexer type parameters itemType indexer.settable)
        pure (.yield PUnit.unit))
      fun headings => readIndexer? headings namespaceName indexer := by
  intro before loaded stands
  dsimp only [readIndexer?]
  refine (resolveAll_agrees loaded isPlain referrer indexer.parameters).bind ?_
  rintro ⟨parameters, middle⟩ ⟨headings, made⟩ ⟨grown, told⟩
  dsimp only
  rw [← grown.headings_eq, Option.map_eq_bind]
  refine (resolve_text_agrees grown.loaded isPlain referrer indexer.type).bind ?_
  rintro ⟨itemType, last⟩ ⟨heading, further⟩ ⟨grownAgain, isItem⟩
  have all := grown.trans grownAgain
  have still : last.AreTold parameters headings :=
    told.imp fun _ _ => grown.loaded.heading?_eq grownAgain.interns.kept
  have follows := all.loaded.follows_addIndexer plain
    (all.interns.continues.names name type plain stands) (List.forall_mem_append.mpr
      ⟨still.admits, List.forall_mem_singleton.mpr (Catalog.admits_of_heading? isItem)⟩)
    indexer.settable
  rw [still.map_fullName, Catalog.fullName_of_heading? isItem] at follows
  exact .ok ⟨rfl, follows_of_grown all follows⟩

theorem records_method (referrer : Referrer) (method : DeclaredMethod) :
    RecordsRound type name
      (do
        let parameters ← resolveAll namespaceName referrer method.parameters
        let returnType ←
          match method.returns with
          | some text => resolve namespaceName referrer text
          | none => pure CoreType.void
        modify (·.addMethod type {
          name := method.name
          declaringType := type
          parameters
          returnType
          isStatic := method.isStatic })
        pure (.yield PUnit.unit))
      fun headings => readMethod? headings namespaceName method := by
  intro before loaded stands
  dsimp only [readMethod?]
  refine (resolveAll_agrees loaded isPlain referrer method.parameters).bind ?_
  rintro ⟨parameters, middle⟩ ⟨headings, made⟩ ⟨grown, told⟩
  dsimp only
  rw [← grown.headings_eq]
  rw [returnOf_bind, Option.map_eq_bind]
  refine (returnOf_agrees grown.loaded isPlain referrer method.returns).bind ?_
  rintro ⟨returnType, last⟩ ⟨returned, further⟩ ⟨grownAgain, admitted, rfl⟩
  have all := grown.trans grownAgain
  have still : last.AreTold parameters headings :=
    told.imp fun _ _ => grown.loaded.heading?_eq grownAgain.interns.kept
  have follows := all.loaded.follows_addMethod plain
    (all.interns.continues.names name type plain stands)
    { name := method.name, declaringType := type, parameters, returnType
      isStatic := method.isStatic } (List.forall_mem_append.mpr
        ⟨still.admits, List.forall_mem_singleton.mpr admitted⟩)
  rw [still.map_fullName] at follows
  exact .ok ⟨rfl, follows_of_grown all follows⟩

end Rounds

/-- **Adding the members of a type agrees with reading its body.** -/
theorem addMembers_agrees (loaded : before.Loaded) {declared : DeclaredType}
    (plain : declared.HasPlainName) (stands : before.findType? declared.recordedName = some type) :
    Agrees (fun made told => Follows before made.2 told) (declared.addMembers type before)
      (describe? before.outline declared) := by
  have isPlain := isPlainNamespace_namespace? plain
  have notBracketed := not_isBracketed_recordedName plain
  have properties := records_forIn type declared.properties notBracketed fun property =>
    records_member notBracketed isPlain (.property (before.fullName type) property.name)
      property.type property.name (.property property.settable) property.isStatic
  have fields := records_forIn type declared.fields notBracketed fun field =>
    records_member notBracketed isPlain (.field (before.fullName type) field.name) field.type
      field.name (.field field.readOnly) field.isStatic
  have methods := records_forIn type declared.methods notBracketed fun method =>
    records_method notBracketed isPlain (.method (before.fullName type) method.name) method
  have constructors := records_forIn type declared.constructors notBracketed fun constructor =>
    records_constructor notBracketed isPlain (.constructor (before.fullName type)) constructor
  have indexers := records_forIn type declared.indexers notBracketed fun indexer =>
    records_indexer notBracketed isPlain (.indexer (before.fullName type)) indexer
  have chain := properties.andThen notBracketed fun _ _ => fields.andThen notBracketed fun _ _ =>
    methods.andThen notBracketed fun _ _ => constructors.andThen notBracketed fun _ _ =>
      indexers.discard
  have records := chain loaded stands
  exact records.mapTold fun _ _ holds => holds.2

end Members

end Schema

end ExprImports
