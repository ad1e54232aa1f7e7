import BundleLedger.Disk.Operations
import BundleLedger.FilePath
import BundleLedger.Graph
import BundleLedger.LoaderConfig.Merge
import BundleLedger.ModuleName
import BundleLedger.Options.Basic

/-!
# Saving bundles

A bundle of `components/header` is written to `<dest>/components/header.js` and entered in the
ledger as `bundles/components/header`. The bundle of the whole project is called `index`.

A bundle is written below the output directory, its source map before it and beside it, and is then
entered in the ledger. A bundle without modules leaves no trace. The sources of a map are resolved
from the directory of the map; `SourceMap.relocate?` puts a text in front of the relative ones.

Results:

* `save_of_isEmpty`: saving a bundle without modules changes nothing.
-/
namespace BundleLedger

/-! ## Where a bundle goes -/

/-- Where a bundle is written, and its id in the ledger. -/
structure Target where
  id : String
  dir : String
  filename : String
  deriving DecidableEq, Repr

namespace Target

def path (t : Target) : String := String.ofList (FilePath.join t.dir.toList t.filename.toList)

/-- The name of the source map, which lies beside the bundle. -/
def mapFilename (t : Target) : String := t.filename ++ ".map"

def mapPath (t : Target) : String := String.ofList (FilePath.join t.dir.toList t.mapFilename.toList)

def lastSegment (name : List Char) : List Char := (name.reverse.takeWhile (· != '/')).reverse

/-- A root in its usual form: `/` between segments and none at the end. -/
def trimmedRoot (root : String) : List Char :=
  Text.dropTrailing (· == '/') (Text.replaceChar '\\' '/' root.toList)

/-- The target for a component root or a bundle name (spec §4.3). -/
def forRoot (root : String) (options : Options) : Target :=
  let root := trimmedRoot root
  if ModuleName.isProject root then
    ⟨options.bundlesBaseUrl ++ "/index", options.dest, "index.js"⟩
  else
    let parent := ModuleName.above root
    { id := options.bundlesBaseUrl ++ "/" ++ String.ofList root
      dir := if parent = [] then options.dest
        else String.ofList (FilePath.join options.dest.toList parent)
      filename := String.ofList (lastSegment root) ++ ".js" }

end Target

/-! ## Source maps -/

namespace SourceMap

open Json

/-- Whether a source is relative: it neither starts with `/` nor has a scheme. -/
def isRelative (source : List Char) : Bool := source.head? != some '/' && !source.contains ':'

def relocateSource (lead : String) : Value → Value
  | .string s => if isRelative s.toList then .string (lead ++ s) else .string s
  | v => v

/-- A map whose relative sources have `lead` in front. -/
def relocateValue (lead : String) : Value → Value
  | .object members =>
    match Entries.get? members "sources" with
    | some (.array sources) =>
      .object (Entries.put members "sources" (.array (sources.map (relocateSource lead))))
    | _ => .object members
  | v => v

/-- The text of a map whose relative sources have `lead` in front; `none` if it is no JSON.
Spec §11. -/
def relocate? (map lead : String) : Option String :=
  (parse? map).map fun v => (relocateValue lead v).text

end SourceMap

/-! ## Bundles -/

namespace Bundle

def mapText? (target : Target) (b : Bundle) (options : Options) (workingDir : List Char) :
    Except Failure (Option String) :=
  if !options.sourceMaps then .ok none else
  match b.sourceMap with
  | none => .ok none
  | some map =>
    if !options.relativeSourceMaps then .ok (some map) else
    let lead := FilePath.prefixBetween workingDir target.dir.toList options.baseUrl.toList
    match SourceMap.relocate? map (String.ofList lead) with
    | some map => .ok (some map)
    | none => .error (.sourceMap "the map is no JSON")

/-- The line that names the source map of a bundle. -/
def mapReference (target : Target) : String := "\n\n//# sourceMappingURL=" ++ target.mapFilename

def writeFile (path text : String) (disk : Disk) : Except Failure Unit × Disk :=
  match disk.write path text with
  | (.ok (), disk) => (.ok (), disk)
  | (.error e, disk) => (.error (.write path e.message), disk)

def makeDirectory (target : Target) (disk : Disk) : Except Failure Unit × Disk :=
  match disk.makeDirectories target.dir with
  | (.ok (), disk) => (.ok (), disk)
  | (.error e, disk) => (.error (.write target.dir e.message), disk)

/-- Writes the source map, if there is one, and then the bundle. -/
def writeFiles (target : Target) (source : String) (map? : Option String) (disk : Disk) :
    Except Failure Unit × Disk :=
  match map? with
  | none => writeFile target.path source disk
  | some map =>
    match writeFile target.mapPath map disk with
    | (.error e, disk) => (.error e, disk)
    | (.ok (), disk) => writeFile target.path (source ++ mapReference target) disk

/-- Writes a bundle and its source map to where `target` says. -/
def write (target : Target) (b : Bundle) (options : Options) (disk : Disk) :
    Except Failure Unit × Disk :=
  match makeDirectory target disk with
  | (.error e, disk) => (.error e, disk)
  | (.ok (), disk) =>
    match mapText? target b options disk.workingPath with
    | .error e => (.error e, disk)
    | .ok map? => writeFiles target b.source map? disk

/-- Writes a bundle for `root` and enters it in the ledger. There is no target for a bundle without
modules. Spec §4.3. -/
def save (root : String) (b : Bundle) (options : Options) (c : LoaderConfig) (disk : Disk) :
    Except Failure (Option Target) × LoaderConfig × Disk :=
  if b.isEmpty then (.ok none, c, disk)
  else
    let target := Target.forRoot root options
    match write target b options disk with
    | (.error e, disk) => (.error e, c, disk)
    | (.ok (), disk) => (.ok (some target), c.register target.id b.modules, disk)

theorem save_of_isEmpty {b : Bundle} (h : b.isEmpty = true) (root : String) (options : Options)
    (c : LoaderConfig) (disk : Disk) : save root b options c disk = (.ok none, c, disk) := by
  simp [save, h]

end Bundle

end BundleLedger
