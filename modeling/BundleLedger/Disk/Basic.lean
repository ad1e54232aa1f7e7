import BundleLedger.FilePath
import BundleLedger.Text.Utf8

/-!
# Files and directories

A disk is a tree of directories and files, held as a list of places. A place is the list of names on
the way from the root. Paths are walked name by name from the working directory, so that each
directory on the way has to exist, also those that `..` leaves again.

Results:

* `node?_put`: what stands at a place after one was written.
-/
namespace BundleLedger

/-- Why the system refuses an operation. -/
inductive OsError where
  | notFound
  | execFormat
  | denied
  | exists
  | notDirectory
  | isDirectory
  | nameTooLong
  | containsNul
  | notText
  | other (text : String)
  deriving DecidableEq, Repr

/-- The wording of a refusal. -/
def OsError.message : OsError → String
  | .notFound => "No such file or directory (os error 2)"
  | .execFormat => "Exec format error (os error 8)"
  | .denied => "Permission denied (os error 13)"
  | .exists => "File exists (os error 17)"
  | .notDirectory => "Not a directory (os error 20)"
  | .isDirectory => "Is a directory (os error 21)"
  | .nameTooLong => "File name too long (os error 36)"
  | .containsNul => "file name contained an unexpected NUL byte"
  | .notText => "stream did not contain valid UTF-8"
  | .other text => text

/-- What a file holds: a text, or bytes that are none. -/
inductive Content where
  | text (s : String)
  | raw (bytes : List UInt8)
  deriving DecidableEq, Repr

namespace Content

def ofBytes (bytes : List UInt8) : Content :=
  match Text.decode? bytes with
  | some s => .text (String.ofList s)
  | none => .raw bytes

def bytes : Content → List UInt8
  | .text s => Text.utf8 s.toList
  | .raw bytes => bytes

/-- The content as a text, with replacements where it is none. -/
def shown : Content → String
  | .text s => s
  | .raw bytes => String.ofList (Text.lossy bytes)

end Content

/-- A directory, or a file that may be a program. -/
inductive Node where
  | directory
  | file (content : Content) (executable : Bool)
  deriving DecidableEq, Repr

/-- The names on the way from the root. -/
abbrev Place := List (List Char)

/-- A tree of directories and files. -/
structure Disk where
  /-- What stands where; the root is always a directory and not listed. -/
  nodes : List (Place × Node) := []
  /-- Where relative paths start. -/
  workingDir : Place := []
  /-- What befalls the coming attempts to write, in order; none of them fails for lack of an
  entry. -/
  outages : List (Option OsError) := []
  deriving Repr

namespace Disk

/-- What stands at a place. -/
def node? (d : Disk) (place : Place) : Option Node :=
  if place = [] then some .directory else (d.nodes.find? (·.1 == place)).map (·.2)

/-- The disk with `node` at a place. -/
def put (d : Disk) (place : Place) (node : Node) : Disk :=
  { d with nodes := (place, node) :: d.nodes.filter (·.1 != place) }

/-- The disk without a place and all below it. -/
def erase (d : Disk) (place : Place) : Disk :=
  { d with nodes := d.nodes.filter fun (p, _) => !place.isPrefixOf p }

def names (d : Disk) (place : Place) : List (List Char) :=
  d.nodes.filterMap fun (p, _) =>
    match place.isPrefixOf? p with
    | some [name] => some name
    | _ => none

def pathOf (place : Place) : List Char := '/' :: Text.join ['/'] place

def workingPath (d : Disk) : List Char := pathOf d.workingDir

/-- The longest name that a directory can hold, in bytes. -/
def nameLimit : Nat := 255

def pathLimit : Nat := 4095

/-- The place where the names `pieces` lead from `start`. -/
def walk (d : Disk) (start : Place) : List (List Char) → Except OsError Place
  | [] => .ok start
  | piece :: pieces =>
    match d.node? start with
    | some .directory =>
      if piece = [] ∨ piece = ['.'] then walk d start pieces
      else if piece = ['.', '.'] then walk d start.dropLast pieces
      else if nameLimit < Text.byteLength piece then .error .nameTooLong
      else match d.node? (start ++ [piece]) with
        | some _ => walk d (start ++ [piece]) pieces
        | none => .error .notFound
    | _ => .error .notDirectory

/-- What is wrong with a path before anything is looked up. -/
def pathFault? (path : List Char) : Option OsError :=
  if path.contains '\x00' then some .containsNul
  else if path = [] then some .notFound
  else if pathLimit < Text.byteLength path then some .nameTooLong
  else none

def startOf (d : Disk) (path : List Char) : Place :=
  if FilePath.isAbsolute path then [] else d.workingDir

/-- The place that a path leads to. -/
def resolve (d : Disk) (path : List Char) : Except OsError Place :=
  match pathFault? path with
  | some e => .error e
  | none => d.walk (d.startOf path) (Text.split '/' path)

/-- The directory that is to hold what a path names, and the name in it. There is no name where the
path ends in `.` or `..` or is the root. -/
def resolveNew (d : Disk) (path : List Char) : Except OsError (Place × Option (List Char)) :=
  match pathFault? path with
  | some e => .error e
  | none =>
    let pieces := Text.split '/' (Text.dropTrailing (· == '/') path)
    match pieces.getLast? with
    | none => .error .notFound
    | some last =>
      match d.walk (d.startOf path) pieces.dropLast with
      | .error e => .error e
      | .ok place =>
        match d.node? place with
        | some .directory =>
          if last = [] ∨ last = ['.'] ∨ last = ['.', '.'] then .ok (place, none)
          else if nameLimit < Text.byteLength last then .error .nameTooLong
          else .ok (place, some last)
        | _ => .error .notDirectory

/-- Whether a path leads somewhere. -/
def exists? (d : Disk) (path : String) : Bool := (d.resolve path.toList).toBool

def isDirectory (d : Disk) (path : List Char) : Bool :=
  match d.resolve path with
  | .ok place => d.node? place == some .directory
  | .error _ => false

theorem node?_put (d : Disk) {place p : Place} (node : Node) (h : p ≠ []) :
    (d.put place node).node? p = if p = place then some node else d.node? p := by
  simp only [node?, put, h, if_false]
  by_cases hp : p = place
  · subst hp; simp
  · simp only [hp, if_false, List.find?_cons]
    have : (place == p) = false := by simpa using fun he => hp he.symm
    simp only [this]
    congr 1
    induction d.nodes with
    | nil => rfl
    | cons n ns ih =>
      by_cases hn : n.1 = place
      · have h1 : (n.1 == p) = false := by rw [hn]; exact this
        simp [hn, this, ih]
      · by_cases h2 : n.1 = p
        · simp [h2, hp]
        · simp [hn, h2, ih]

end Disk

end BundleLedger
