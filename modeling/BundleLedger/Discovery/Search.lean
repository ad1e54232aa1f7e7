import BundleLedger.Discovery.Pattern
import BundleLedger.Disk.Basic
import BundleLedger.ModuleName

/-!
# Finding entry files

All entry files below the source root are found by a pattern: the root, any number of directories,
and the name of an entry file. What is special in a pattern is special in the name of the root, too.
-/
namespace BundleLedger.Discovery

def fileName? (path : List Char) : Option (List Char) :=
  match (FilePath.components path).getLast? with
  | some (.name s) => some s
  | _ => none

/-- Whether a path is the working directory itself. -/
def isHere (path : List Char) : Bool := FilePath.components path == [.here]

/-- A name in a directory; the working directory is left out in front. -/
def child (path name : List Char) : List Char := if isHere path then name else FilePath.join path name

def childNames (disk : Disk) (path : List Char) : List (List Char) :=
  match disk.resolve path with
  | .ok place => disk.names place
  | .error _ => []

/-- The steps from the last of the leading steps for any number of directories. -/
def collapsed : List Pattern → List Pattern
  | p :: q :: ps => if p.isRecursive && q.isRecursive then collapsed (q :: ps) else p :: q :: ps
  | ps => ps

def dotNames : List (List Char) := [['.'], ['.', '.']]

mutual

/-- The paths below `path` that the steps lead to; at most as many steps as the fuel says. -/
def stepsFrom (disk : Disk) : Nat → List Pattern → List Char → List (List Char)
  | 0, _, _ | _, [], _ => []
  | fuel + 1, p :: rest, path =>
    let reached (next : List Char) : List (List Char) :=
      if rest.isEmpty then [next] else stepsFrom disk fuel rest next
    match p.literal? with
    | some name =>
      let next := child path name
      let found := if dotNames.contains name then disk.isDirectory path
        else disk.exists? (String.ofList next)
      if found then reached next else []
    | none =>
      if disk.isDirectory path then
        let dots := if p.head? = some (.char '.') then
            dotNames.filter p.isMatch
          else []
        (childNames disk path).flatMap (fun name => visit disk fuel (p :: rest) (child path name)) ++
          dots.flatMap fun name => reached (FilePath.join path name)
      else []

/-- The paths that the steps lead to, where `path` lies in a directory that was searched for the
first of them. -/
def visit (disk : Disk) : Nat → List Pattern → List Char → List (List Char)
  | 0, _, _ => []
  | fuel + 1, steps, path =>
    match collapsed steps with
    | [] => []
    | p :: rest =>
      if p.isRecursive then
        let deeper := if disk.isDirectory path then stepsFrom disk fuel (p :: rest) path else []
        let here :=
          if rest.isEmpty then if disk.isDirectory path then [path] else []
          else visit disk fuel rest path
        deeper ++ here
      else match fileName? path with
        | none => []
        | some name =>
          if !p.isMatch name then []
          else if rest.isEmpty then [path]
          else stepsFrom disk fuel rest path

end

def anyDirectories : List Char := ['*', '*']

/-- The pattern of the entry files below a directory. -/
def pattern (base : List Char) : List Char :=
  FilePath.join (FilePath.join base anyDirectories) ModuleName.entryFile.toList

def steps? (pattern : List Char) : Option (List Pattern) := do
  let _ ← Pattern.parse? pattern
  let relative := if FilePath.isAbsolute pattern then pattern.tail else pattern
  (Text.split '/' relative).mapM Pattern.parse?

/-- How many steps a search can take. -/
def fuelFor (disk : Disk) (steps : List Pattern) : Nat :=
  3 * (steps.length + 1) * (disk.nodes.length + 2)

/-- The entry files below `base`, seen from there, in order; `none` if `base` makes a malformed
pattern. Spec §6. -/
def entryFiles? (disk : Disk) (base : String) : Option (List String) := do
  let pattern := pattern base.toList
  let steps ← steps? pattern
  let start := if FilePath.isAbsolute pattern then ['/'] else ['.']
  let paths := stepsFrom disk (fuelFor disk steps) steps start
  let names := paths.map fun path =>
    ModuleName.normalized (String.ofList ((FilePath.below? base.toList path).getD path))
  return names.mergeSort fun a b => decide (a ≤ b)

end BundleLedger.Discovery
