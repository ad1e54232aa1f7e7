import BundleLedger.Disk.Basic
import BundleLedger.ModuleName

/-!
# Components

A component is a directory with an entry file. It is named by that directory, the project root by
`.`; below the source root, a directory is a component when its entry file is on disk.

Results:

* `ofEntry_entry`: the entry file of a root that is no project root leads back to the root.
-/
namespace BundleLedger

namespace ComponentRoot

open ModuleName

/-- The directory, or `.` for none. -/
def orProject (dir : List Char) : String := if dir = [] then "." else String.ofList dir

def ofEntry (entry : String) : String := orProject (above entry.toList)

/-- The root that a component's name stands for. -/
def ofName (name : String) : String :=
  orProject (Text.dropTrailing (· == '/') (normalized name).toList)

/-- The entry file of the component at `root`. -/
def entry (root : String) : String := if root = "." then entryFile else root ++ "/" ++ entryFile

theorem ofEntry_entry {root : String} (h : root ≠ ".") (hne : root ≠ "") :
    ofEntry (entry root) = root := by
  have hr : root.toList ≠ [] := by simpa using hne
  have : (root ++ "/" ++ entryFile).toList = root.toList ++ '/' :: entryFile.toList := by simp
  rw [entry, if_neg h, ofEntry, this, above_append (by decide), orProject, if_neg hr,
    String.ofList_toList]

end ComponentRoot

namespace Disk

def entryPath (base : String) (dir : List Char) : String :=
  String.ofList (FilePath.join (FilePath.join base.toList dir) ModuleName.entryFile.toList)

/-- Whether a directory below `base` has an entry file (spec §4.1). -/
def isComponent (d : Disk) (base : String) (dir : List Char) : Bool :=
  dir != [] && d.exists? (entryPath base dir)

end Disk

end BundleLedger
