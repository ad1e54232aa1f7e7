import BundleLedger.FilePath
import BundleLedger.LoaderConfig.Merge
import BundleLedger.ModuleName

/-!
# From locations to files

The aliases of `paths` say where a location lies on disk. An alias may hold one `*`, which captures
the rest of the location and is put into the target. The longest alias that matches counts.

Results:

* `captured?_append`: what a wildcard captures lies between the two sides of the alias.
-/
namespace BundleLedger.LoaderConfig

open Json

/-- What the `*` of an alias with these two sides captures in `location`. -/
def captured? (before after location : List Char) : Option (List Char) :=
  match before.isPrefixOf? location with
  | some rest => (after.reverse.isPrefixOf? rest.reverse).map List.reverse
  | none => none

/-- `target` with `captured` in the place of its first `*`. -/
def fillStar (target captured : List Char) : List Char :=
  match Text.cut? '*' target with
  | some (before, after) => before ++ captured ++ after
  | none => target

/-- The target of the alias `name` for a location that it matches. -/
def matchAlias? (name target location : List Char) : Option (List Char) :=
  match Text.cut? '*' name with
  | some (before, after) => (captured? before after location).map (fillStar target)
  | none => if name = location then some target else none

/-- The longer of two matches, the earlier one when both are as long. -/
def better : Option (Nat × List Char) → Option (Nat × List Char) → Option (Nat × List Char)
  | none, m => m
  | m, none => m
  | some a, some b => if a.1 < b.1 then some b else some a

/-- The match of a location with the longest alias, and the length of that alias in bytes. -/
def bestMatch? (c : LoaderConfig) (location : List Char) : Option (Nat × List Char) :=
  c.aliases.foldl (fun best (name, target) =>
    better best ((matchAlias? name.toList target.toList location).map (name.utf8ByteSize, ·))) none

def withoutFileScheme (target : List Char) : List Char :=
  match "file:///".toList.isPrefixOf? target with
  | some rest => '/' :: rest
  | none => ("file://".toList.isPrefixOf? target).getD target

/-- The path of a location, relative to `baseUrl` (spec §11). -/
def resolve? (c : LoaderConfig) (location baseUrl : String) : Option String :=
  (c.bestMatch? location.toList).map fun (_, target) =>
    String.ofList (FilePath.join baseUrl.toList (withoutFileScheme target))

/-- The target of an alias as a file URL. Targets that are file URLs stay as they are. -/
def absoluteTarget (workingDir baseUrl target : List Char) : List Char :=
  if "file:".toList.isPrefixOf target then target
  else
    let joined := FilePath.join baseUrl target
    let path := (FilePath.absolute? workingDir joined).getD joined
    "file://".toList ++ Text.replaceChar '\\' '/' path

def absoluteAlias (workingDir baseUrl : String) : Value → Value
  | .string target =>
    .string (String.ofList (absoluteTarget workingDir.toList baseUrl.toList target.toList))
  | v => v

/-- The configuration that the engine is given: an empty ledger, `baseURL` set, and every target of
`paths` absolute. Spec §11. -/
def forEngine (c : LoaderConfig) (workingDir baseUrl : String) : LoaderConfig :=
  let c := c.clearBundles.set "baseURL" (.string baseUrl)
  match c.section? "paths" with
  | some paths =>
    c.set "paths" (.object (paths.map fun (key, v) => (key, absoluteAlias workingDir baseUrl v)))
  | none => c

/-- The main file of an installed package: its location's path with the ending `.js`.
Spec §4.3. -/
def mainFile? (c : LoaderConfig) (name baseUrl : String) : Option String := do
  let location ← c.locationOf? name
  let path ← c.resolve? location baseUrl
  return path ++ ".js"

theorem captured?_append (before captured after : List Char) :
    captured? before after (before ++ captured ++ after) = some captured := by
  simp [captured?, List.append_assoc, ModuleName.isPrefixOf?_append]

end BundleLedger.LoaderConfig
