import ExprImports.Span
import ExprImports.Text.Pieces

/-!
# Files

A file is found by its path: the parts between the slashes are looked up one after
the other in a tree of folders, from the root if a slash stands in front and from the
working folder if not. Why there is nothing to read is told in the words of the
system. A tree that is held in memory answers as a disk would, so the command can be
run on it (`Files.read`).
-/

set_option autoImplicit false

namespace ExprImports.CommandLine

/-- Why a file cannot be read. -/
inductive ReadFault where
  | missing
  | permissionDenied
  | notFolder
  | isFolder
  | nameTooLong
  | nulInPath
  | notText
  | other (message : String)
  deriving DecidableEq, Inhabited

namespace ReadFault

/-- The text of a fault. -/
def message : ReadFault → String
  | missing => "No such file or directory (os error 2)"
  | permissionDenied => "Permission denied (os error 13)"
  | notFolder => "Not a directory (os error 20)"
  | isFolder => "Is a directory (os error 21)"
  | nameTooLong => "File name too long (os error 36)"
  | nulInPath => "file name contained an unexpected NUL byte"
  | notText => "stream did not contain valid UTF-8"
  | other message => message

end ReadFault

/-- The contents of a file, or why it cannot be read. -/
abbrev Contents := Except ReadFault String

/-- The names that lead from the root to a file or a folder, the last one first. -/
abbrev Place := List (List Char)

/-- What stands at a place. -/
inductive Entry where
  | folder
  | text (contents : String)
  | bytes
  deriving DecidableEq, Inhabited

/-- A tree of files, and the folder from which relative paths start. -/
structure Files where
  entries : List (Place × Entry) := []
  workingFolder : Place := []
  deriving Inhabited

namespace Files

/-- The longest name of a file, in bytes. -/
def nameLimit : Nat := 255

/-- The longest path, in bytes. -/
def pathLimit : Nat := 4095

/-- What stands at a place, if anything does. The root is a folder. -/
def entryAt? (files : Files) (place : Place) : Option Entry :=
  if place = [] then some .folder else files.entries.lookup place

/-- One part of a path further on. An empty part and a dot stay where they are, two dots
go to the folder around it, and all of them ask for a folder. -/
def step (files : Files) (place : Place) (part : List Char) : Except ReadFault Place :=
  match files.entryAt? place with
  | none => .error .missing
  | some (.text _) | some .bytes => .error .notFolder
  | some .folder =>
    if part = [] ∨ part = ['.'] then .ok place
    else if part = ['.', '.'] then .ok place.tail
    else if nameLimit < byteLength part then .error .nameTooLong
    else if (files.entryAt? (part :: place)).isNone then .error .missing
    else .ok (part :: place)

/-- The place to which a path leads. -/
def find (files : Files) (path : List Char) : Except ReadFault Place :=
  if '\x00' ∈ path then .error .nulInPath
  else if pathLimit < byteLength path then .error .nameTooLong
  else
    match path with
    | [] => .error .missing
    | '/' :: rest => (Text.pieces '/' rest).foldlM files.step []
    | _ => (Text.pieces '/' path).foldlM files.step files.workingFolder

/-- The contents of the file to which a path leads. -/
def read (files : Files) (path : String) : Contents := do
  match files.entryAt? (← files.find path.toList) with
  | none => .error .missing
  | some .folder => .error .isFolder
  | some .bytes => .error .notText
  | some (.text contents) => .ok contents

/-- The place that a path from the root names, without looking at what is there. -/
def placeOf (path : String) : Place :=
  ((Text.pieces '/' path.toList).filter (· ≠ [])).reverse

/-- The tree with one more entry, which hides what was at its place. -/
def insert (files : Files) (path : String) (entry : Entry) : Files :=
  { files with entries := (placeOf path, entry) :: files.entries }

/-- The folders that a system has. -/
def systemFolders : List String :=
  [ "/bin", "/dev", "/etc", "/home", "/lib", "/opt", "/proc", "/proc/self", "/root", "/run",
    "/sys", "/tmp", "/usr", "/usr/bin", "/usr/lib", "/var", "/var/tmp" ]

/-- The programs that a system has. They are no texts. -/
def systemPrograms : List String :=
  ["/bin/ls", "/bin/sh", "/proc/self/exe", "/usr/bin/env"]

/-- A system on which nothing has been written yet. Its null device reads as empty. -/
def system : Files :=
  let empty : Files := { workingFolder := placeOf "/home" }
  let folders := systemFolders.foldl (fun files path => files.insert path .folder) empty
  let programs := systemPrograms.foldl (fun files path => files.insert path .bytes) folders
  let devices := programs.insert "/dev/null" (.text "")
  devices.insert "/etc/passwd" (.text "root:x:0:0:root:/root:/bin/sh\n")

end Files

end ExprImports.CommandLine
