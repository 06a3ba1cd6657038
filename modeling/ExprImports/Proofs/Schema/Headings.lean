import ExprImports.Proofs.Schema.References
import Mathlib.Data.List.Forall2
import Mathlib.Data.Set.Insert

/-!
# Types without identities

The identity of a type is its place in the catalog, so it depends on the order in which types are
created. What is told of a type here names all other types by their full names: its heading says
what it is and what it is made of, and its body what it declares. Neither changes as the catalog
grows (`Extends.heading_eq`, `Extends.body_eq`).

**Loaded catalogs.** As long as a schema is loaded no two types are known by one name, and the
heading of an array or of an instantiation can be told from the headings of the types that it is made
of (`Loaded`).
-/

set_option autoImplicit false

namespace ExprImports

/-! ## Headings and bodies -/

/-- What a type is, with the full name of the element of an array. -/
inductive HeadingKind where
  | nominal (kind : NominalKind)
  | array (element : String) (rank : Nat)
  | parameter
  deriving DecidableEq, Inhabited

/-- The part that a type plays in generics, with the full names of the types that it is made of. -/
inductive HeadingGenericity where
  | plain
  | definition (parameters : List String)
  | instantiation (definition : String) (arguments : List String)
  deriving DecidableEq, Inhabited

/-- What a type is and what it is made of, all types by their full names. -/
structure Heading where
  fullName : String
  name : String
  namespaceName : Option String
  assembly : AssemblyId
  kind : HeadingKind
  base : Option String
  interfaces : List String
  genericity : HeadingGenericity
  deriving DecidableEq, Inhabited

structure BodyMember where
  name : String
  type : String
  kind : MemberKind
  isStatic : Bool
  deriving DecidableEq, Inhabited

structure BodyMethod where
  name : String
  parameters : List String
  returnType : String
  genericArguments : List String
  isGenericDefinition : Bool
  isStatic : Bool
  kind : MethodKind
  deriving DecidableEq, Inhabited

/-- What a type declares, all types by their full names. A constructor is told by its parameters. -/
structure Body where
  members : List BodyMember := []
  methods : List BodyMethod := []
  constructors : List (List String) := []
  deriving DecidableEq, Inhabited

/-- What the first one declares, and behind it what the second one does. -/
def Body.append (first second : Body) : Body where
  members := first.members ++ second.members
  methods := first.methods ++ second.methods
  constructors := first.constructors ++ second.constructors

theorem Body.append_assoc (first second third : Body) :
    (first.append second).append third = first.append (second.append third) := by
  simp only [append, List.append_assoc]

@[simp] theorem Body.append_empty (body : Body) : body.append {} = body := by
  simp only [append, List.append_nil]

namespace Heading

/-- The name with its namespace, but without parameters or arguments. -/
def qualifiedName (heading : Heading) : String :=
  match heading.namespaceName with
  | none => heading.name
  | some namespaceName => namespaceName ++ "." ++ heading.name

/-- The heading of the array type of one dimension. -/
def array (element : Heading) : Heading where
  fullName := element.fullName ++ Catalog.arrayBrackets 1
  name := ""
  namespaceName := element.namespaceName
  assembly := element.assembly
  kind := .array element.fullName 1
  base := some "System.Array"
  interfaces := []
  genericity := .plain

/-- The heading of an instantiation, which is that of the definition but for the arguments. -/
def instantiate (definition : Heading) (arguments : List Heading) : Heading :=
  let names := arguments.map (·.fullName)
  { definition with
    fullName := definition.qualifiedName ++ "<" ++ ", ".intercalate names ++ ">"
    genericity := .instantiation definition.fullName names }

/-- The number of parameters, if it is an open definition. -/
def arity? (heading : Heading) : Option Nat :=
  match heading.genericity with
  | .definition parameters => some parameters.length
  | _ => none

/-- The heading of a parameter of a definition. -/
def parameter (assembly : AssemblyId) (name : String) : Heading where
  fullName := name
  name
  namespaceName := none
  assembly
  kind := .parameter
  base := none
  interfaces := []
  genericity := .plain

end Heading

namespace TypeEntry

/-- Whether the type is known by a name of its own: it is declared, and not an instantiation. -/
def isNamed (entry : TypeEntry) : Bool :=
  match entry.kind, entry.genericity with
  | .nominal _, .instantiation _ _ => false
  | .nominal _, _ => true
  | _, _ => false

/-- The types that occur in what a type declares. -/
def mentions (entry : TypeEntry) : List TypeId :=
  entry.members.map (·.type) ++
    entry.methods.flatMap (fun method =>
      method.parameters ++ method.returnType :: method.genericArguments) ++
    entry.constructors.flatMap (·.parameters)

/-- The types that are named by the heading and the body of the type. The parameters of a
definition are no parts of it, as they come behind it. -/
def toldTypes (entry : TypeEntry) : List TypeId :=
  entry.parts ++ entry.genericity.arguments ++ entry.mentions

theorem Extends.isNamed_eq {later earlier : TypeEntry} (grown : later.Extends earlier) :
    later.isNamed = earlier.isNamed := by
  simp only [isNamed, grown.kind, grown.genericity]

end TypeEntry

namespace Catalog

/-! ## What is told of a type -/

def headingKind (catalog : Catalog) : TypeKind → HeadingKind
  | .nominal kind => .nominal kind
  | .array element rank => .array (catalog.fullName element) rank
  | .parameter => .parameter

def headingGenericity (catalog : Catalog) : Genericity → HeadingGenericity
  | .plain => .plain
  | .definition parameters => .definition (parameters.map catalog.fullName)
  | .instantiation generic arguments =>
    .instantiation (catalog.fullName generic) (arguments.map catalog.fullName)

/-- The heading of a type with this entry. -/
def heading (catalog : Catalog) (type : TypeId) (entry : TypeEntry) : Heading where
  fullName := catalog.fullName type
  name := entry.name
  namespaceName := entry.namespaceName
  assembly := entry.assembly
  kind := catalog.headingKind entry.kind
  base := entry.base.map catalog.fullName
  interfaces := entry.interfaces.map catalog.fullName
  genericity := catalog.headingGenericity entry.genericity

def heading? (catalog : Catalog) (type : TypeId) : Option Heading :=
  (catalog.find? type).map (catalog.heading type)

/-- The headings of several types. -/
abbrev AreTold (catalog : Catalog) : List TypeId → List Heading → Prop :=
  List.Forall₂ fun type heading => catalog.heading? type = some heading

/-- The body of a type with this entry. -/
def body (catalog : Catalog) (entry : TypeEntry) : Body where
  members := entry.members.map fun member =>
    ⟨member.name, catalog.fullName member.type, member.kind, member.isStatic⟩
  methods := entry.methods.map fun method =>
    { name := method.name
      parameters := method.parameters.map catalog.fullName
      returnType := catalog.fullName method.returnType
      genericArguments := method.genericArguments.map catalog.fullName
      isGenericDefinition := method.isGenericDefinition
      isStatic := method.isStatic
      kind := method.kind }
  constructors := entry.constructors.map fun constructor =>
    constructor.parameters.map catalog.fullName

section Told

variable {catalog before after later earlier : Catalog} {type : TypeId} {entry : TypeEntry}

theorem fullName_of_heading? {heading : Heading} (told : catalog.heading? type = some heading) :
    catalog.fullName type = heading.fullName := by
  obtain ⟨entry, _, rfl⟩ := Option.map_eq_some_iff.mp told
  rfl

theorem heading?_of_find? (found : catalog.find? type = some entry) :
    catalog.heading? type = some (catalog.heading type entry) := by
  rw [heading?, found, Option.map_some]

theorem admits_of_heading? {heading : Heading} (told : catalog.heading? type = some heading) :
    catalog.Admits type := by
  obtain ⟨entry, found, _⟩ := Option.map_eq_some_iff.mp told
  exact admits_of_find? found

namespace AreTold

variable {types : List TypeId} {headings others : List Heading}

theorem admits (told : catalog.AreTold types headings) : ∀ type ∈ types, catalog.Admits type := by
  induction told with
  | nil => exact List.forall_mem_nil _
  | cons first _ ih => exact List.forall_mem_cons.mpr ⟨admits_of_heading? first, ih⟩

theorem map_fullName (told : catalog.AreTold types headings) :
    types.map catalog.fullName = headings.map (·.fullName) := by
  induction told with
  | nil => rfl
  | cons first _ ih => rw [List.map_cons, List.map_cons, ih, fullName_of_heading? first]

theorem unique (told : catalog.AreTold types headings) (again : catalog.AreTold types others) :
    headings = others :=
  List.right_unique_forall₂' (fun _ _ _ here there => Option.some.inj (here.symm.trans there))
    told again

end AreTold

/-- **What is told of a type does not change**, as the types that it is made of keep their names. -/
theorem Extends.heading_eq (extended : later.Extends earlier)
    (found : earlier.find? type = some entry)
    (admitted : ∀ part ∈ entry.toldTypes, earlier.Admits part) {grown : TypeEntry}
    (more : grown.Extends entry) : later.heading type grown = earlier.heading type entry := by
  have part {part : TypeId} (isPart : part ∈ entry.toldTypes) :
      later.fullName part = earlier.fullName part := extended.fullName_eq (admitted part isPart)
  have base : entry.base.map later.fullName = entry.base.map earlier.fullName := by
    refine Option.map_congr fun parent isBase => part ?_
    simp [TypeEntry.toldTypes, TypeEntry.parts, isBase]
  have interfaces : entry.interfaces.map later.fullName = entry.interfaces.map earlier.fullName := by
    refine List.map_congr_left fun interface isInterface => part ?_
    simp [TypeEntry.toldTypes, TypeEntry.parts, isInterface]
  have kind : later.headingKind entry.kind = earlier.headingKind entry.kind := by
    cases isKind : entry.kind with
    | nominal | parameter => rfl
    | array element rank =>
        simp only [headingKind]
        rw [part (by simp [TypeEntry.toldTypes, TypeEntry.parts, isKind, TypeKind.parts])]
  have genericity :
      later.headingGenericity entry.genericity = earlier.headingGenericity entry.genericity := by
    cases generic : entry.genericity with
    | plain => rfl
    | definition parameters =>
        simp only [headingGenericity]
        refine congrArg _ (List.map_congr_left fun parameter isParameter => part ?_)
        simp [TypeEntry.toldTypes, generic, Genericity.arguments, isParameter]
    | instantiation definition arguments =>
        simp only [headingGenericity]
        rw [part (by simp [TypeEntry.toldTypes, TypeEntry.parts, generic, Genericity.parts])]
        refine congrArg _ (List.map_congr_left fun argument isArgument => part ?_)
        simp [TypeEntry.toldTypes, generic, Genericity.arguments, isArgument]
  simp only [heading, extended.fullName_eq (admits_of_find? found), more.name, more.namespaceName,
    more.assembly, more.kind, more.base, more.interfaces, more.genericity, base, interfaces, kind,
    genericity]

theorem Extends.body_eq (extended : later.Extends earlier)
    (admitted : ∀ part ∈ entry.toldTypes, earlier.Admits part) :
    later.body entry = earlier.body entry := by
  have part {part : TypeId} (isMentioned : part ∈ entry.mentions) :
      later.fullName part = earlier.fullName part :=
    extended.fullName_eq (admitted part (List.mem_append_right _ isMentioned))
  have members (member : Member) (inside : member ∈ entry.members) :
      member.type ∈ entry.mentions :=
    List.mem_append_left _ (List.mem_append_left _ (List.mem_map_of_mem inside))
  have methods (method : Method) (inside : method ∈ entry.methods) (type : TypeId)
      (isType : type ∈ method.parameters ++ method.returnType :: method.genericArguments) :
      type ∈ entry.mentions :=
    List.mem_append_left _ (List.mem_append_right _ (List.mem_flatMap.mpr ⟨method, inside, isType⟩))
  have constructors (constructor : Constructor) (inside : constructor ∈ entry.constructors)
      (type : TypeId) (isType : type ∈ constructor.parameters) : type ∈ entry.mentions :=
    List.mem_append_right _ (List.mem_flatMap.mpr ⟨constructor, inside, isType⟩)
  simp only [body, Body.mk.injEq]
  refine ⟨List.map_congr_left fun member inside => ?_, List.map_congr_left fun method inside => ?_,
    List.map_congr_left fun constructor inside => List.map_congr_left fun type isType => ?_⟩
  · rw [part (members member inside)]
  · have parameters : method.parameters.map later.fullName =
        method.parameters.map earlier.fullName :=
      List.map_congr_left fun type isType =>
        part (methods method inside type (List.mem_append_left _ isType))
    have generic : method.genericArguments.map later.fullName =
        method.genericArguments.map earlier.fullName :=
      List.map_congr_left fun type isType => part (methods method inside type
        (List.mem_append_right _ (List.mem_cons_of_mem _ isType)))
    have returns := part (methods method inside method.returnType
      (List.mem_append_right _ List.mem_cons_self))
    rw [parameters, generic, returns]
  · exact part (constructors constructor inside type isType)

end Told

/-! ## Full names -/

section Names

variable {catalog : Catalog} {type : TypeId} {entry : TypeEntry}
  (found : catalog.find? type = some entry)
include found

theorem Ordered.fullName_array (ordered : catalog.Ordered) {element : TypeId} {rank : Nat}
    (isArray : entry.kind = .array element rank) :
    catalog.fullName type = catalog.fullName element ++ arrayBrackets rank := by
  have older := ordered.part_lt (isPartOf_element found isArray)
  rw [fullName, nameOf, found]
  simp only [isArray, if_pos older]
  rfl

theorem Ordered.fullName_instantiation (ordered : catalog.Ordered)
    (noArray : entry.kind.isArray = false) {generic : TypeId} {arguments : List TypeId}
    (applied : entry.genericity = .instantiation generic arguments) :
    catalog.fullName type =
      (catalog.heading type entry).qualifiedName ++ "<" ++
        ", ".intercalate (arguments.map catalog.fullName) ++ ">" := by
  have parts : arguments.map (fun older =>
      if older.height < type.height then catalog.nameOf true older else unknownName) =
        arguments.map catalog.fullName := by
    refine List.map_congr_left fun argument isArgument => ?_
    exact if_pos (ordered.part_lt (isPartOf_argument found applied isArgument))
  rw [fullName, nameOf, found]
  cases isKind : entry.kind with
  | array element rank =>
      rw [isKind] at noArray
      cases noArray
  | nominal _ | parameter =>
      simp only [isKind, applied, parts, Heading.qualifiedName, heading]
      cases entry.namespaceName <;> rfl

theorem fullName_of_not_instantiation (noArray : entry.kind.isArray = false) :
    (entry.genericity = .plain → catalog.fullName type =
      (catalog.heading type entry).qualifiedName) ∧
    ∀ parameters, entry.genericity = .definition parameters →
      catalog.fullName type = Schema.genericName (catalog.heading type entry).qualifiedName
        parameters.length := by
  rw [fullName, nameOf, found]
  cases isKind : entry.kind with
  | array element rank =>
      rw [isKind] at noArray
      cases noArray
  | nominal _ | parameter =>
      refine ⟨fun plain => ?_, fun parameters definition => ?_⟩
      · simp only [isKind, plain, Heading.qualifiedName, heading]
        cases entry.namespaceName <;> rfl
      · simp only [isKind, definition, Heading.qualifiedName, heading, Schema.genericName]
        cases entry.namespaceName <;> rfl

end Names

/-! ## Loaded catalogs -/

/-- What is told of the type is right. A type with a name of its own is found by it. Any other one
declares nothing, and if it is an array or an instantiation, its heading can be told from those of
the types that it is made of. -/
structure IsTold (catalog : Catalog) (type : TypeId) (entry : TypeEntry) : Prop where
  named : entry.isNamed = true → ¬ IsBracketed (catalog.fullName type) ∧
    catalog.findType? (catalog.fullName type) = some type
  bare : entry.isNamed = false → entry.IsBare
  array : ∀ element rank, entry.kind = .array element rank →
    ∃ inner, catalog.heading? element = some inner ∧ catalog.heading type entry = inner.array
  instantiation : ∀ generic arguments, entry.genericity = .instantiation generic arguments →
    ∃ definition inners, catalog.heading? generic = some definition ∧
      catalog.AreTold arguments inners ∧ catalog.heading type entry = definition.instantiate inners
  admits : ∀ part ∈ entry.toldTypes, catalog.Admits part

/-- A catalog as it is while a schema is loaded. -/
structure Loaded (catalog : Catalog) : Prop where
  built : catalog.Built
  told : catalog.Every catalog.IsTold

/-- The later catalog has all that the earlier one has, and the names without brackets that stood
for types stand for the same types. -/
structure Continues (before after : Catalog) : Prop where
  kept : after.Extends before
  names : ∀ name type, ¬ IsBracketed name → before.findType? name = some type →
    after.findType? name = some type

section Growing

variable {before after : Catalog} {type : TypeId} {entry : TypeEntry}

theorem Interns.continues (interns : Interns before after) : Continues before after :=
  ⟨interns.kept, fun _ _ plain found => (interns.findType?_eq plain).trans found⟩

theorem Continues.trans {middle : Catalog} (first : Continues before middle)
    (second : Continues middle after) : Continues before after :=
  ⟨second.kept.trans first.kept, fun name type plain found =>
    second.names name type plain (first.names name type plain found)⟩

theorem Loaded.heading?_eq (loaded : before.Loaded) (extended : after.Extends before)
    {heading : Heading} (told : before.heading? type = some heading) :
    after.heading? type = some heading := by
  obtain ⟨entry, found, rfl⟩ := Option.map_eq_some_iff.mp told
  obtain ⟨grown, known, more⟩ := extended.types type entry found
  rw [heading?_of_find? known,
    extended.heading_eq found (loaded.told type entry found).admits more]

/-- What is told of a type stays right as long as its entry is not changed. -/
theorem Loaded.isTold (loaded : before.Loaded) (continues : Continues before after)
    (found : before.find? type = some entry) : after.IsTold type entry := by
  have told := loaded.told type entry found
  have sameName := continues.kept.fullName_eq (admits_of_find? found)
  have sameHeading := continues.kept.heading_eq found told.admits (.refl entry)
  constructor
  · rw [sameName]
    intro isNamed
    obtain ⟨plain, stands⟩ := told.named isNamed
    exact ⟨plain, continues.names _ _ plain stands⟩
  · exact told.bare
  · rw [sameHeading]
    intro element rank isArray
    obtain ⟨inner, isInner, same⟩ := told.array element rank isArray
    exact ⟨inner, loaded.heading?_eq continues.kept isInner, same⟩
  · rw [sameHeading]
    intro generic arguments applied
    obtain ⟨definition, inners, isDefinition, areInners, same⟩ :=
      told.instantiation generic arguments applied
    exact ⟨definition, inners, loaded.heading?_eq continues.kept isDefinition,
      areInners.imp fun _ _ => loaded.heading?_eq continues.kept, same⟩
  · exact fun part isPart => Nat.le_trans (told.admits part isPart) continues.kept.size_le

end Growing

end Catalog

end ExprImports
