import BundleLedger.Disk.Basic

/-!
# Reading and writing

The operations that a session performs on a disk. One that fails may still have made directories, so
each gives the disk back beside its outcome.

Results:

* `write_error`: a write that fails leaves all files as they were.
-/
namespace BundleLedger.Disk

/-- The content of the file at a path. -/
def read (d : Disk) (path : String) : Except OsError Content :=
  match d.resolve path.toList with
  | .error e => .error e
  | .ok place =>
    match d.node? place with
    | some (.file content _) => .ok content
    | some .directory => .error .isDirectory
    | none => .error .notFound

def readText (d : Disk) (path : String) : Except OsError String :=
  match d.read path with
  | .error e => .error e
  | .ok (.text s) => .ok s
  | .ok (.raw _) => .error .notText

/-- The disk with a file at a path, which is made or replaced. -/
def store (d : Disk) (path : String) (content : Content) : Except OsError Disk :=
  match d.resolveNew path.toList with
  | .error e => .error e
  | .ok (_, none) => .error .isDirectory
  | .ok (place, some name) =>
    if path.toList.getLast? = some '/' then .error .isDirectory
    else match d.node? (place ++ [name]) with
      | some .directory => .error .isDirectory
      | some (.file _ executable) => .ok (d.put (place ++ [name]) (.file content executable))
      | none => .ok (d.put (place ++ [name]) (.file content false))

/-- What befalls an attempt to write, and the disk on which it is made. -/
def attempt (d : Disk) : Option OsError × Disk :=
  match d.outages with
  | [] => (none, d)
  | fault :: outages => (fault, { d with outages := outages })

def write (d : Disk) (path text : String) : Except OsError Unit × Disk :=
  match d.attempt with
  | (some e, d) => (.error e, d)
  | (none, d) =>
    match d.store path (.text text) with
    | .ok d => (.ok (), d)
    | .error e => (.error e, d)

def makeDirectory (d : Disk) (path : List Char) : Except OsError Disk :=
  match d.resolveNew path with
  | .error e => .error e
  | .ok (_, none) => .error .exists
  | .ok (place, some name) =>
    match d.node? (place ++ [name]) with
    | some _ => .error .exists
    | none => .ok (d.put (place ++ [name]) .directory)

/-- Makes the first of some directories, each of which lies in the next. Where one is missing
because the next is missing, that is made first. A directory that is there already is fine. -/
def makeChain (d : Disk) : List (List Char) → Except OsError Unit × Disk
  | [] => (.ok (), d)
  | path :: parents =>
    if path = [] then (.ok (), d) else
    match d.makeDirectory path with
    | .ok d => (.ok (), d)
    | .error .notFound =>
      match makeChain d parents with
      | (.error e, d) => (.error e, d)
      | (.ok (), d) =>
        match d.makeDirectory path with
        | .ok d => (.ok (), d)
        | .error e => if d.isDirectory path then (.ok (), d) else (.error e, d)
    | .error e => if d.isDirectory path then (.ok (), d) else (.error e, d)

/-- A path and the directories above it, up to the beginning of the path. -/
def chainOf (path : List Char) : List (List Char) :=
  let parts := FilePath.components path
  path :: (List.range parts.length).reverse.map fun n => FilePath.ofComponents (parts.take n)

def makeDirectories (d : Disk) (path : String) : Except OsError Unit × Disk :=
  match d.attempt with
  | (some e, d) => (.error e, d)
  | (none, d) => d.makeChain (chainOf path.toList)

/-! ## Setting a disk up -/

def plainNames (path : String) : Place :=
  (FilePath.components path.toList).filterMap fun
    | .name s => some s
    | _ => none

/-- The disk with a node at a place and directories above it. -/
def plant (d : Disk) (place : Place) (node : Node) : Disk :=
  let d := (List.range place.length).foldl (fun d n =>
    let p := place.take n
    if (d.node? p).isSome then d else d.put p .directory) d
  d.put place node

/-- The disk with a file below the working directory, or with a directory where the path ends in
`/`. -/
def plantText (d : Disk) (path text : String) (executable : Bool) : Disk :=
  let place := d.workingDir ++ plainNames path
  if path.toList.getLast? = some '/' then
    if (d.node? place).isSome then d else d.plant place .directory
  else d.plant place (.file (.text text) executable)

/-- The disk without what a path below the working directory names. -/
def uproot (d : Disk) (path : String) : Disk := d.erase (d.workingDir ++ plainNames path)

/-! ## Comparing disks -/

/-- What lies below the working directory, with the names that lead there. -/
def contents (d : Disk) : List (Place × Node) :=
  d.nodes.filterMap fun (place, node) =>
    match d.workingDir.isPrefixOf? place with
    | none | some [] => none
    | some names => some (names, node)

/-- The relative path of what lies below the working directory; that of a directory ends in `/`. -/
def shownPath (names : Place) (node : Node) : String :=
  let path := Text.join ['/'] names
  String.ofList (if node = .directory then path ++ ['/'] else path)

/-- What a node shows; a directory shows nothing. -/
def shownContent : Node → String
  | .directory => ""
  | .file content _ => content.shown

/-- What lies below the working directory, as it is shown. -/
def listing (d : Disk) : List (String × String) :=
  d.contents.map fun (names, node) => (shownPath names node, shownContent node)

/-- What differs below the working directory, in the order of the paths: new contents, or `none` for
what is gone. -/
def changes (before after : Disk) : List (String × Option String) :=
  let old := before.listing
  let new := after.listing
  let written := (new.filter fun e => old.lookup e.1 != some e.2).map fun e => (e.1, some e.2)
  let gone := (old.filter fun e => (new.lookup e.1).isNone).map fun e => (e.1, none)
  (written ++ gone).mergeSort fun a b => decide (a.1 ≤ b.1)

/-- What a run left below the working directory that was not there before, in the order of the
places, so that a directory comes before what lies in it. -/
def fresh (before after : Disk) : List (Place × Node) :=
  (after.contents.filter fun e => before.node? (before.workingDir ++ e.1) != some e.2).mergeSort
    fun a b => decide (a.1.length ≤ b.1.length)

theorem write_error {d d' : Disk} {path text : String} {e : OsError}
    (h : d.write path text = (.error e, d')) : d'.nodes = d.nodes := by
  unfold write attempt at h
  cases ho : d.outages with
  | nil =>
    rw [ho] at h
    dsimp only at h
    split at h
    · cases h
    · cases h; rfl
  | cons fault outages =>
    rw [ho] at h
    cases fault with
    | some f => cases h; rfl
    | none =>
      dsimp only at h
      split at h
      · cases h
      · cases h; rfl

end BundleLedger.Disk
