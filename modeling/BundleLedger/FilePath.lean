import BundleLedger.Text.Search

/-!
# File paths

A file path is a text whose components are separated by `/`. Repeated separators count once, and a
`.` counts only where the path begins with it.

Results:

* `join_absolute`: an absolute right side replaces the left side.
* `join_empty_left`: joining onto the empty path gives the right side.
-/
namespace BundleLedger.FilePath

/-- One step of a path. -/
inductive Component where
  | root
  | here
  | up
  | name (s : List Char)
  deriving DecidableEq, Repr

def Component.text : Component → List Char
  | .root => ['/']
  | .here => ['.']
  | .up => ['.', '.']
  | .name s => s

/-- Whether a path starts at the root. -/
def isAbsolute (path : List Char) : Bool := path.head? == some '/'

/-- What a piece between separators stands for, away from the beginning of the path. -/
def component? (piece : List Char) : Option Component :=
  if piece = [] ∨ piece = ['.'] then none
  else if piece = ['.', '.'] then some .up
  else some (.name piece)

def components (path : List Char) : List Component :=
  let pieces := Text.split '/' path
  let start := if isAbsolute path then [.root] else if pieces.head? = some ['.'] then [.here] else []
  start ++ pieces.filterMap component?

/-- `right` seen from the directory `left`. -/
def join (left right : List Char) : List Char :=
  if isAbsolute right then right
  else if left = [] then right
  else if left.getLast? = some '/' then left ++ right
  else left ++ '/' :: right

def ofComponents (parts : List Component) : List Char :=
  parts.foldl (fun path c => join path c.text) []

/-- The path seen from the root, where relative paths start at `workingDir`. Names of parent
directories stay, a trailing separator stays, and so do exactly two leading separators. -/
def absolute? (workingDir path : List Char) : Option (List Char) :=
  if path = [] then none else
  let parts := (components path).filter (· ≠ .here)
  let base :=
    if isAbsolute path then
      if ['/', '/'].isPrefixOf path && !(['/', '/', '/'].isPrefixOf path) then
        parts.tail.foldl (fun p c => join p c.text) ['/', '/']
      else ofComponents parts
    else parts.foldl (fun p c => join p c.text) workingDir
  if path.getLast? = some '/' then some (join base []) else some base

/-- What is left of `path` below `base`, compared component by component. -/
def below? (base path : List Char) : Option (List Char) :=
  ((components base).isPrefixOf? (components path)).map ofComponents

theorem join_absolute {left right : List Char} (h : isAbsolute right = true) :
    join left right = right := by simp [join, h]

theorem join_empty_left (right : List Char) : join [] right = right := by
  simp [join]

/-! ## The way from one directory to another -/

/-- The components that lead from `base` to `path`; `none` where `base` goes up at the point of
divergence. `diverged` says that a step up was already taken. -/
def steps? (diverged : Bool) : (path base : List Component) → Option (List Component)
  | path, [] => some path
  | [], _ :: base => (steps? true [] base).map (.up :: ·)
  | a :: path, b :: base =>
    if !diverged && a = b then steps? false path base
    else if b = .here then (steps? true path base).map (a :: ·)
    else if b = .up then none
    else some (.up :: base.map (fun _ => .up) ++ a :: path)

/-- The path that leads from the directory `base` to `path`. -/
def relative? (path base : List Char) : Option (List Char) :=
  if isAbsolute path != isAbsolute base then
    if isAbsolute path then some path else none
  else (steps? false (components path) (components base)).map ofComponents

/-- The absolute form of a directory, without `.` and without a trailing separator. A path that has
none stays as it is. -/
def absoluteDir (workingDir path : List Char) : List Char :=
  ofComponents ((components ((absolute? workingDir path).getD path)).filter (· ≠ .here))

/-- The text that leads from one directory to another when it stands before a relative path: empty,
or ending in `/`. -/
def prefixBetween (workingDir source target : List Char) : List Char :=
  let source := absoluteDir workingDir source
  let target := absoluteDir workingDir target
  match relative? target source with
  | none => Text.dropTrailing (· == '/') (Text.replaceChar '\\' '/' target) ++ ['/']
  | some path =>
    match (components path).map Component.text with
    | [] => []
    | parts => Text.join ['/'] parts ++ ['/']

end BundleLedger.FilePath
