import BundleLedger.CommandLine.Run

/-!
# The program

Reads the working directory, runs the command line on what it holds, and writes back what changed.
A file that starts as a script counts as executable.
-/
open BundleLedger

def startsAsScript (bytes : List UInt8) : Bool := [0x23, 0x21].isPrefixOf bytes

/-- The disk with what a directory holds planted at a place. -/
partial def readTree (dir : IO.FS.DirEntry) (place : Place) (disk : Disk) : IO Disk := do
  let mut disk := disk
  for entry in ← dir.path.readDir do
    let here := place ++ [entry.fileName.toList]
    match (← entry.path.metadata).type with
    | .dir => disk ← readTree entry here (disk.plant here .directory)
    | .file =>
      let bytes := (← IO.FS.readBinFile entry.path).toList
      disk := disk.plant here (.file (Content.ofBytes bytes) (startsAsScript bytes))
    | _ => pure ()
  return disk

def writeBack (before after : Disk) : IO Unit := do
  for (names, node) in Disk.fresh before after do
    let path := String.ofList (Text.join ['/'] names)
    match node with
    | .directory => IO.FS.createDirAll path
    | .file content _ => IO.FS.writeBinFile path (ByteArray.mk content.bytes.toArray)

/-- The variables that are set. -/
def readEnvironment : IO Environment := do
  let text := String.fromUTF8! (← IO.FS.readBinFile "/proc/self/environ")
  return (Text.split '\x00' text.toList).filterMap fun line =>
    (Text.cut? '=' line).map fun (name, value) => (String.ofList name, String.ofList value)

/-- Runs the command line that the program was started with. -/
def main (arguments : List String) : IO UInt32 := do
  let work ← IO.currentDir
  let place := Disk.plainNames work.toString
  let start : Disk := { workingDir := place }
  let disk ← readTree ⟨work, ""⟩ place (start.plant place .directory)
  let out := CommandLine.run (← readEnvironment) disk arguments
  writeBack disk out.disk
  IO.print out.standard
  IO.eprint out.error
  return UInt32.ofNat out.code
