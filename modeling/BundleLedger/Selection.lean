import BundleLedger.Graph
import BundleLedger.LoaderConfig.Basic
import BundleLedger.Ownership

/-!
# Selecting modules

Each filter keeps the records of a graph whose name passes a test, in their order.
-/
namespace BundleLedger.Selection

open ModuleName

def keepNames (keep : String → Bool) (graph : Graph) : Graph := graph.filter fun (_, r) => keep r.name

/-- The records that no bundle holds yet (spec §4.2). -/
def unbundled (c : LoaderConfig) (graph : Graph) : Graph :=
  keepNames (fun name => !c.isBundled name) graph

/-- The records that belong to no registry package (spec §4.2). -/
def localOnly (graph : Graph) : Graph := keepNames (fun name => !isVendor name) graph

/-- The records that belong to the component at `root` (spec §4.2). -/
def ownedBy (isComponent : List Char → Bool) (root : String) (graph : Graph) : Graph :=
  keepNames (Ownership.isOwn isComponent root) graph

def stylePlugin : String := "plugin-css@"

/-- Whether a plugin mark stands somewhere before the name of the style plugin. -/
def isStyle (name : String) : Bool :=
  match Text.indexOf? [pluginMark] name.toList, Text.indexOf? stylePlugin.toList name.toList with
  | some mark, some plugin => mark < plugin
  | _, _ => false

/-- Spec §4.2. -/
def withoutStyles (c : LoaderConfig) (graph : Graph) : Graph :=
  if c.buildsStyles then graph else keepNames (fun name => !isStyle name) graph

/-- The records of the component at `root` that no bundle holds yet (spec §4.3). -/
def component (isComponent : List Char → Bool) (root : String) (c : LoaderConfig) (graph : Graph) :
    Graph :=
  withoutStyles c (ownedBy isComponent root (localOnly (unbundled c graph)))

/-! ## Packages -/

def packageLocation (c : LoaderConfig) (name : String) : String := (c.locationOf? name).getD name

/-- `found` and all that its dependencies lead to. `pending` are the locations in `found` whose
dependencies are still to be looked at. The fuel bounds how many that can be. -/
def closeLocations (c : LoaderConfig) : Nat → List String → List String → List String
  | 0, _, found => found
  | _, [], found => found
  | fuel + 1, location :: pending, found =>
    let fresh := ((c.dependenciesOf location).filter (!found.contains ·)).eraseDups
    closeLocations c fuel (fresh ++ pending) (found ++ fresh)

def dependencyCount (c : LoaderConfig) : Nat :=
  ((c.section? "map").getD []).foldr (fun (_, v) n => (v.members?.getD []).length + n) 0

/-- Spec §4.2. -/
def packageLocations (c : LoaderConfig) (names : List String) : List String :=
  let start := (names.map (packageLocation c)).eraseDups
  (closeLocations c (start.length + dependencyCount c) start start).mergeSort (· ≤ ·)

/-- The records whose name starts with the location of a kept package (spec §4.2). -/
def packages (c : LoaderConfig) (names : List String) (graph : Graph) : Graph :=
  let locations := packageLocations c names
  keepNames (fun name => locations.any fun l => l.toList.isPrefixOf name.toList) graph

end BundleLedger.Selection
