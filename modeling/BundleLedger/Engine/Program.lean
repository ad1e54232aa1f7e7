import BundleLedger.Shell.Run

/-!
# Programs on disk

A program is an executable file whose first line names its interpreter, which has to be a shell. A
program named with a path is taken from there, any other is looked for in the directories of the
search path.
-/
namespace BundleLedger.Program

def shells : List String :=
  ["/bin/sh", "/usr/bin/sh", "/bin/dash", "/usr/bin/dash", "/bin/bash", "/usr/bin/bash"]

/-- The program that looks its argument up among the shells. -/
def lookups : List String := ["/usr/bin/env", "/bin/env"]

/-- Whether a file at `path` could be run. -/
def isExecutable (disk : Disk) (path : String) : Bool :=
  match disk.resolve path.toList with
  | .error _ => false
  | .ok place =>
    match disk.node? place with
    | some (.file _ executable) => executable
    | _ => false

/-- Where a program may lie. -/
def candidates (disk : Disk) (searchPath : List String) (name : String) : List String :=
  let parts := FilePath.components name.toList
  if 1 < parts.length then
    if FilePath.isAbsolute name.toList then [name]
    else
      let parts := parts.filter (· ≠ .here)
      [String.ofList (parts.foldl (fun path c => FilePath.join path c.text) disk.workingPath)]
  else searchPath.map fun dir => String.ofList (FilePath.join dir.toList name.toList)

/-- The path of a program. -/
def find? (disk : Disk) (searchPath : List String) (name : String) : Option String :=
  (candidates disk searchPath name).find? (isExecutable disk)

/-- The interpreter that a script's first line names, and its argument. -/
def interpreter? (script : List Char) : Option (String × String) :=
  match script with
  | '#' :: '!' :: rest =>
    let isBlank (c : Char) : Bool := c == ' ' || c == '\t'
    let line := Text.dropTrailing isBlank ((rest.takeWhile (· != '\n')).dropWhile isBlank)
    let path := line.takeWhile (!isBlank ·)
    if path = [] then none
    else some (String.ofList path, String.ofList ((line.drop path.length).dropWhile isBlank))
  | _ => none

def isShell (path argument : String) : Bool :=
  shells.contains path || (lookups.contains path && shells.contains ("/bin/" ++ argument))

/-- The script of a program that can be started, and whether it is strict. -/
def script? (disk : Disk) (path : String) : Except OsError (List UInt8 × Bool) := do
  let content ← disk.read path
  if !isExecutable disk path then throw .denied
  match interpreter? (Text.Octets.ofBytes content.bytes) with
  | none => throw .execFormat
  | some (interpreter, argument) =>
    if isShell interpreter argument then
      return (content.bytes, argument.startsWith "-" && argument.contains 'e')
    else throw .notFound

end BundleLedger.Program
