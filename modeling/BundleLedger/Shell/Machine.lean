import BundleLedger.Disk.Operations
import BundleLedger.Shell.Word
import BundleLedger.Text.Utf8

/-!
# What a shell script works on

The files, the bytes still to be read, the bytes written so far, the variables, and the status of
the last command. A channel leads to one of the two outputs, to a file, or nowhere. Texts are held
as one character for each byte.
-/
namespace BundleLedger.Shell

/-- Where a channel leads. -/
inductive Sink where
  | standard
  | error
  | file (path : String)
  | nowhere
  deriving DecidableEq, Repr

/-- Where the two output channels of a command lead. -/
structure Channels where
  standard : Sink := .standard
  error : Sink := .error
  deriving DecidableEq, Repr

/-- What a script works on. -/
structure Machine where
  disk : Disk
  /-- What is still to be read. -/
  input : List Char
  standard : List Char := []
  error : List Char := []
  /-- The name of the script, and its arguments. -/
  name : List Char
  arguments : List (List Char)
  bindings : List (List Char × List Char) := []
  /-- How the last command ended; zero is success. -/
  status : Nat := 0
  /-- The line of the last command. -/
  line : Nat := 1
  /-- Whether a command that fails ends the script. -/
  strict : Bool := false

/-- Whether a script goes on. -/
inductive Flow where
  | next
  | exit
  | killed (signal : Nat)
  deriving DecidableEq, Repr

/-- The path that swallows what is written to it, and is empty. -/
def nullPath : String := "/dev/null"

/-- The number that stands for the script's own process. -/
def processId : List Char := "4096".toList

namespace Machine

def ended (m : Machine) (status : Nat) : Machine := { m with status }

def pathOf (s : List Char) : String := String.ofList (Text.lossy (Text.Octets.bytes s))

/-- What a file holds. -/
def contents (m : Machine) (path : String) : Except OsError (List Char) :=
  if path = nullPath then .ok []
  else (m.disk.read path).map fun content => Text.Octets.ofBytes content.bytes

/-- The machine after a file got this text. -/
def store (m : Machine) (path : String) (s : List Char) : Except OsError Machine :=
  (m.disk.store path (Content.ofBytes (Text.Octets.bytes s))).map fun disk => { m with disk }

/-- The machine after a text was written to where a channel leads. -/
def put (m : Machine) (sink : Sink) (s : List Char) : Machine :=
  match sink with
  | .standard => { m with standard := m.standard ++ s }
  | .error => { m with error := m.error ++ s }
  | .nowhere => m
  | .file path =>
    match m.contents path with
    | .error _ => m
    | .ok old => (m.store path (old ++ s)).toOption.getD m

/-- The machine after a file was opened to write, and where a channel to it leads. -/
def openOutput (m : Machine) (append : Bool) (path : String) : Except OsError (Sink × Machine) :=
  if path = nullPath then .ok (.nowhere, m)
  else do
    let old := if append then (m.contents path).toOption.getD [] else []
    return (.file path, ← m.store path old)

def digits (n : Nat) : List Char := (toString n).toList

def value (m : Machine) (name : List Char) : List Char :=
  match name with
  | ['?'] => digits m.status
  | ['#'] => digits m.arguments.length
  | ['$'] => processId
  | ['@'] | ['*'] => Text.join [' '] m.arguments
  | ['-'] | ['!'] => []
  | ['0'] => m.name
  | name =>
    if name.all Char.isDigit then
      (m.arguments[name.foldl (fun n c => n * 10 + (c.toNat - 48)) 0 - 1]?).getD []
    else (m.bindings.lookup name).getD []

/-- The machine with a variable set. -/
def assign (m : Machine) (name value : List Char) : Machine :=
  { m with bindings := (name, value) :: m.bindings.filter (·.1 != name) }

end Machine

end BundleLedger.Shell
