import BundleLedger.Text.Search

/-!
# Module names

A module is named by a `/`-separated path such as `components/header/index.js`. A registry scheme
marks a vendor module (`npm:lodash@4.17.4/index.js`), and a loader plugin may follow after a `!`
(`components/header/style.css!npm:plugin-css@0.1.20`).

Results:

* `normalized_of_not_mem`: only names with a `\` are changed.
* `path_cases`, `above_append` and `above_of_not_mem`: a name stands in the directory above it, or in
  none.
* `isWithin_self`: every name lies within itself.
* `isWithin_project`: every name lies within the project root.
-/
namespace BundleLedger.ModuleName

def pluginMark : Char := '!'

def schemeMark : Char := ':'

/-- The file that makes its directory a component. -/
def entryFile : String := "index.js"

/-- With `/` for every `\` (spec §11). -/
def normalized (name : String) : String := String.ofList (Text.replaceChar '\\' '/' name.toList)

/-- What stands before the last `/`; empty where there is none. -/
def above (name : List Char) : List Char :=
  ((name.reverse.dropWhile (· != '/')).drop 1).reverse

/-- The name of the directory that holds `name`; empty at the top. -/
def parent (name : String) : String := String.ofList (above name.toList)

/-- The name without its plugin. -/
def resourceChars (name : List Char) : List Char := name.takeWhile (· != pluginMark)

/-- The name without its plugin (spec §4.1). -/
def resource (name : String) : String := String.ofList (resourceChars name.toList)

/-- Whether the resource belongs to a registry package (spec §4.1). -/
def isVendor (name : String) : Bool := (resourceChars name.toList).contains schemeMark

def isProject (root : List Char) : Bool := root == [] || root == ['.']

/-- Whether `child` is `root` or continues it at a `/`. The project holds everything. -/
def isWithinChars (child root : List Char) : Bool :=
  isProject root ||
  match root.isPrefixOf? child with
  | some [] => true
  | some (c :: _) => c == '/'
  | none => false

/-- Whether the module `child` lies under the directory `root` (spec §4.1). -/
def isWithin (child root : String) : Bool := isWithinChars child.toList root.toList

theorem normalized_of_not_mem {name : String} (h : '\\' ∉ name.toList) : normalized name = name := by
  rw [normalized, Text.replaceChar_of_not_mem h, String.ofList_toList]

theorem bne_of_mem_reverse {file : List Char} (h : '/' ∉ file) :
    ∀ c ∈ file.reverse, (c != '/') = true := by
  intro c hc
  rw [List.mem_reverse] at hc
  simpa using fun e : c = '/' => h (e ▸ hc)

theorem above_append {dir file : List Char} (h : '/' ∉ file) : above (dir ++ '/' :: file) = dir := by
  simp [above, List.dropWhile_append_of_pos (bne_of_mem_reverse h)]

theorem above_of_not_mem {file : List Char} (h : '/' ∉ file) : above file = [] := by
  have hdrop : (file.reverse ++ []).dropWhile (· != '/') = [] :=
    List.dropWhile_append_of_pos (bne_of_mem_reverse h)
  rw [List.append_nil] at hdrop
  rw [above, hdrop]
  rfl

/-- A path is a name, or a name in the directory above it. -/
theorem path_cases (path : List Char) :
    '/' ∉ path ∨ ∃ dir file, path = dir ++ '/' :: file ∧ '/' ∉ file := by
  induction path with
  | nil => exact .inl (by simp)
  | cons c path ih =>
    rcases ih with h | ⟨dir, file, rfl, hfile⟩
    · by_cases hc : c = '/'
      · exact .inr ⟨[], path, by rw [hc]; rfl, h⟩
      · exact .inl (by simp [h, Ne.symm hc])
    · exact .inr ⟨c :: dir, file, rfl, hfile⟩

theorem isPrefixOf?_append (a b : List Char) : a.isPrefixOf? (a ++ b) = some b := by
  induction a with
  | nil => rfl
  | cons c a ih =>
    show (if (c == c) = true then a.isPrefixOf? (a ++ b) else none) = some b
    rw [if_pos (beq_self_eq_true c), ih]

theorem isWithin_self (name : String) : isWithin name name = true := by
  have h := isPrefixOf?_append name.toList []
  rw [List.append_nil] at h
  simp [isWithin, isWithinChars, h]

theorem isWithin_project (name : String) : isWithin name "." = true := by
  simp [isWithin, isWithinChars, isProject]

end BundleLedger.ModuleName
