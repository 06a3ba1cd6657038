import ExprImports.CommandLine.Report

/-!
# The command

Reads the files that the arguments name, prints the report on the expression and ends
with 0; a failure ends with 1 and arguments that are not taken end with 2.
-/

set_option autoImplicit false

namespace ExprImports.CommandLine

/-- How the command is used. -/
def usage : String :=
  "Recompile a Lite expression and print its type and import closure\n\n" ++
  "Usage: [OPTIONS] <EXPRESSION>\n\n" ++
  "Options:\n" ++
  "  -s, --schema <SCHEMA>          TOML schema declaring assemblies, types and variables\n" ++
  "  -c, --config <CONFIG>          TOML engine configuration\n" ++
  "  -r, --reference                Compile as an assignable location instead of a value\n" ++
  "  -t, --target <TARGET>          Result type the expression must produce\n" ++
  "  -n, --namespace <NAMESPACES>   Namespace import hint (repeatable)\n" ++
  "  -a, --assembly <ASSEMBLIES>    Assembly reference hint, as a display name (repeatable)\n" ++
  "      --json                     Print the result as JSON\n" ++
  "  -h, --help                     Print help\n" ++
  "  -V, --version                  Print version\n"

/-- The number under which the system reports an error. Some of them arrive negated. -/
def systemNumber (code : UInt32) : UInt32 :=
  if code < 0x80000000 then code else 0 - code

/-- The fault that an error on the disk stands for. -/
def ReadFault.ofError (error : IO.Error) : ReadFault :=
  match error with
  | .noFileOrDirectory .. => .missing
  | .permissionDenied .. => .permissionDenied
  | .inappropriateType _ code _ =>
    if systemNumber code == 20 then .notFolder
    else if systemNumber code == 21 then .isFolder
    else .other (toString error)
  | .invalidArgument _ code _ =>
    if systemNumber code == 36 then .nameTooLong else .other (toString error)
  | _ => .other (toString error)

/-- The contents of a file on the disk. -/
def readContents (path : String) : IO Contents := do
  if path.toList.contains '\x00' then return .error .nulInPath
  try
    let bytes ← IO.FS.readBinFile path
    match String.fromUTF8? bytes with
    | some text => return .ok text
    | none => return .error .notText
  catch error => return .error (.ofError error)

/-- The files that the options name. -/
def readDocuments (options : Options) : IO Documents := do
  return {
    schema := ← options.schema.mapM readContents
    configuration := ← options.configuration.mapM readContents }

/-- Compiles what is asked for and prints the report. -/
def runInvocation (invocation : Invocation) : IO UInt32 := do
  match invocation.output (← readDocuments invocation.options) with
  | .ok output =>
    IO.print output
    return 0
  | .error failure =>
    IO.eprintln s!"Error: {failure.message}"
    return 1

/-- Runs the command with its arguments. -/
def run (arguments : List String) : IO UInt32 := do
  match Invocation.ofArguments arguments with
  | .ok invocation => runInvocation invocation
  | .error .helpAsked =>
    IO.print usage
    return 0
  | .error .versionAsked =>
    IO.println "0.1.0"
    return 0
  | .error _ =>
    IO.eprint usage
    return 2

end ExprImports.CommandLine

/-- The entry point of the command. -/
def main (arguments : List String) : IO UInt32 :=
  ExprImports.CommandLine.run arguments
