/-!
# Arguments

The arguments of a command line are read from left to right: options in their long
or short form, and the text of the expression. A value may be attached to its option
or be the next argument. In that case the option stays open, and it is settled only
when the next option or the expression is met, so that an argument which is not
understood is reported before a fault of the option before it.
-/

set_option autoImplicit false

namespace ExprImports.CommandLine

/-- The options of the command. -/
inductive Parameter where
  | schema
  | configuration
  | reference
  | target
  | namespaceHint
  | assemblyHint
  | json
  | help
  | version
  deriving DecidableEq, Inhabited

namespace Parameter

/-- The names of the options, each behind two hyphens. -/
def longNames : List (String × Parameter) :=
  [ ("schema", schema),
    ("config", configuration),
    ("reference", reference),
    ("target", target),
    ("namespace", namespaceHint),
    ("assembly", assemblyHint),
    ("json", json),
    ("help", help),
    ("version", version) ]

/-- The letters of the options, each behind one hyphen. -/
def letters : List (Char × Parameter) :=
  [ ('s', schema),
    ('c', configuration),
    ('r', reference),
    ('t', target),
    ('n', namespaceHint),
    ('a', assemblyHint),
    ('h', help),
    ('V', version) ]

/-- Whether an option is given with a value. -/
def takesValue : Parameter → Bool
  | schema | configuration | target | namespaceHint | assemblyHint => true
  | reference | json | help | version => false

end Parameter

/-- Why arguments are not taken. Asking for help or the version ends the reading too. -/
inductive UsageFault where
  | unknownArgument (argument : String)
  | missingExpression
  | missingValue (parameter : Parameter)
  | emptyPath (parameter : Parameter)
  | repeated (parameter : Parameter)
  | unneededValue (parameter : Parameter)
  | helpAsked
  | versionAsked
  deriving DecidableEq, Inhabited

/-- What the options ask for. -/
structure Options where
  schema : Option String := none
  configuration : Option String := none
  isReference : Bool := false
  target : Option String := none
  namespaces : List String := []
  assemblies : List String := []
  asJson : Bool := false
  deriving DecidableEq, Inhabited

namespace Options

/-- The path that an option gives, which may not be empty and is given once. -/
def path (parameter : Parameter) (known : Option String) (value : String) :
    Except UsageFault (Option String) :=
  if known.isSome then .error (.repeated parameter)
  else if value.isEmpty then .error (.emptyPath parameter)
  else .ok (some value)

/-- The options with one more that takes a value. -/
def withValue (options : Options) (parameter : Parameter) (value : String) :
    Except UsageFault Options :=
  match parameter with
  | .schema => do
    return { options with schema := ← path parameter options.schema value }
  | .configuration => do
    return { options with configuration := ← path parameter options.configuration value }
  | .target =>
    if options.target.isSome then .error (.repeated parameter)
    else .ok { options with target := some value }
  | .namespaceHint => .ok { options with namespaces := options.namespaces ++ [value] }
  | .assemblyHint => .ok { options with assemblies := options.assemblies ++ [value] }
  | _ => .error (.unneededValue parameter)

/-- The options with one more that takes no value. -/
def withFlag (options : Options) (parameter : Parameter) : Except UsageFault Options :=
  match parameter with
  | .reference =>
    if options.isReference then .error (.repeated parameter)
    else .ok { options with isReference := true }
  | .json =>
    if options.asJson then .error (.repeated parameter) else .ok { options with asJson := true }
  | .help => .error .helpAsked
  | .version => .error .versionAsked
  | _ => .error (.missingValue parameter)

end Options

/-- An expression with the options under which it is compiled. -/
structure Invocation where
  expression : String
  options : Options := {}
  deriving DecidableEq, Inhabited

/-- An option that is given and not settled, with the value it has so far. -/
structure OpenOption where
  parameter : Parameter
  value : Option String
  deriving DecidableEq, Inhabited

/-- What has been read from the arguments on the left. -/
structure Progress where
  options : Options := {}
  expression : Option String := none
  unsettled : Option OpenOption := none
  onlyExpression : Bool := false
  deriving DecidableEq, Inhabited

namespace Progress

/-- Settles the option that is open. It must have its value by now. -/
def settle (progress : Progress) : Except UsageFault Progress :=
  match progress.unsettled with
  | none => .ok progress
  | some ⟨parameter, none⟩ => .error (.missingValue parameter)
  | some ⟨parameter, some value⟩ => do
    let options ← progress.options.withValue parameter value
    return { progress with options, unsettled := none }

/-- Settles what is open and takes an option without a value. -/
def takeFlag (progress : Progress) (parameter : Parameter) : Except UsageFault Progress := do
  let progress ← progress.settle
  let options ← progress.options.withFlag parameter
  return { progress with options }

/-- Settles what is open and takes an option with its value attached. -/
def takeValue (progress : Progress) (parameter : Parameter) (value : String) :
    Except UsageFault Progress := do
  let progress ← progress.settle
  let options ← progress.options.withValue parameter value
  return { progress with options }

/-- Settles what is open and opens an option whose value is to follow. -/
def openOption (progress : Progress) (parameter : Parameter) : Except UsageFault Progress := do
  let progress ← progress.settle
  return { progress with unsettled := some ⟨parameter, none⟩ }

/-- Takes a long option, of which the hyphens have been read. An equals sign stands
before an attached value. -/
def takeLong (progress : Progress) (argument : String) (text : List Char) :
    Except UsageFault Progress :=
  let name := String.ofList (text.takeWhile (· ≠ '='))
  match Parameter.longNames.lookup name, text.dropWhile (· ≠ '=') with
  | none, _ => .error (.unknownArgument argument)
  | some parameter, [] =>
    if parameter.takesValue then progress.openOption parameter else progress.takeFlag parameter
  | some parameter, _ :: value =>
    if parameter.takesValue then progress.takeValue parameter (String.ofList value)
    else .error (.unneededValue parameter)

/-- Takes options that are written by their letters. Those without a value may stand
together; what follows the first one with a value is its value, behind an equals sign
or not. -/
def takeLetters (argument : String) : Progress → List Char → Except UsageFault Progress
  | progress, [] => .ok progress
  | progress, letter :: rest =>
    match Parameter.letters.lookup letter with
    | none => .error (.unknownArgument argument)
    | some parameter =>
      if parameter.takesValue then
        match rest with
        | [] => progress.openOption parameter
        | '=' :: value => progress.takeValue parameter (String.ofList value)
        | value => progress.takeValue parameter (String.ofList value)
      else do
        takeLetters argument (← progress.takeFlag parameter) rest

/-- Takes the expression, of which there is only one. -/
def takeExpression (progress : Progress) (argument : String) : Except UsageFault Progress :=
  if progress.expression.isSome then .error (.unknownArgument argument)
  else do
    let progress ← progress.settle
    return { progress with expression := some argument }

/-- Takes an argument that is no option: the value of the option that waits for one, or
else the expression. -/
def takePlain (progress : Progress) (argument : String) : Except UsageFault Progress :=
  match progress.unsettled with
  | some ⟨parameter, none⟩ =>
    .ok { progress with unsettled := some ⟨parameter, some argument⟩ }
  | _ => progress.takeExpression argument

/-- Takes the next argument. Two hyphens alone say that no option follows. -/
def take (progress : Progress) (argument : String) : Except UsageFault Progress :=
  if progress.onlyExpression then progress.takeExpression argument
  else
    match argument.toList with
    | ['-', '-'] => .ok { progress with onlyExpression := true }
    | '-' :: '-' :: text => progress.takeLong argument text
    | '-' :: letter :: rest => takeLetters argument progress (letter :: rest)
    | _ => progress.takePlain argument

/-- What is asked for when all arguments are read. -/
def finish (progress : Progress) : Except UsageFault Invocation := do
  let progress ← progress.settle
  match progress.expression with
  | some expression => return { expression, options := progress.options }
  | none => throw .missingExpression

end Progress

/-- What the arguments ask for. -/
def Invocation.ofArguments (arguments : List String) : Except UsageFault Invocation := do
  (← arguments.foldlM Progress.take {}).finish

end ExprImports.CommandLine
