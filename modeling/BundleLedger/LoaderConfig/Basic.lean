import BundleLedger.Json.Value

/-!
# The loader configuration

What the configuration file of the module loader sets: an object whose members keep their order.
Four members have a meaning here: `map` (package names to locations), `paths` (location aliases),
`buildCSS`, and `bundles`, the ledger that says which bundle holds which modules. All others are
carried along.
-/
namespace BundleLedger

open Json

/-- The members of a configuration in order (spec §3). -/
structure LoaderConfig where
  entries : Members
  deriving Repr

namespace LoaderConfig

/-- A configuration that sets nothing. -/
def empty : LoaderConfig := ⟨[]⟩

/-- The value that is set for `key`. -/
def get? (c : LoaderConfig) (key : String) : Option Value := Entries.get? c.entries key

/-- The members that `key` is set to, where it is set to an object. -/
def section? (c : LoaderConfig) (key : String) : Option Members := (c.get? key).bind Value.members?

def toValue (c : LoaderConfig) : Value := .object c.entries

/-- Whether two configurations set the same values, whatever the order of members. -/
def same (a b : LoaderConfig) : Bool := Value.same a.toValue b.toValue

/-- Whether a value counts as set: not `null`, `false`, zero or the empty text. -/
def isTruthy : Value → Bool
  | .null => false
  | .bool b => b
  | .string s => s != ""
  | .number (.integer n) => n != 0
  | .number (.double d) => !d.isZero
  | .array _ => true
  | .object _ => true

def buildsStyles (c : LoaderConfig) : Bool := ((c.get? "buildCSS").map isTruthy).getD false

/-! ## Package locations -/

/-- What `map` says about a package name or a location. -/
def mapEntry? (c : LoaderConfig) (name : String) : Option Value :=
  (c.section? "map").bind (Entries.get? · name)

def locationOf? (c : LoaderConfig) (name : String) : Option String :=
  (c.mapEntry? name).bind Value.string?

/-- The locations of the dependencies that `map` lists for a location. -/
def dependenciesOf (c : LoaderConfig) (location : String) : List String :=
  match (c.mapEntry? location).bind Value.members? with
  | some members => members.filterMap (·.2.string?)
  | none => []

def aliases (c : LoaderConfig) : List (String × String) :=
  ((c.section? "paths").getD []).filterMap fun (key, target) => target.string?.map (key, ·)

/-! ## The ledger -/

def listedNames (v : Value) : List String := (v.items?.getD []).filterMap Value.string?

/-- Spec §3. -/
def bundles (c : LoaderConfig) : List (String × List String) :=
  ((c.section? "bundles").getD []).map fun (id, modules) => (id, listedNames modules)

/-- Whether the ledger has an entry for `id`. -/
def hasBundle (c : LoaderConfig) (id : String) : Bool :=
  Entries.has ((c.section? "bundles").getD []) id

def bundledModules (c : LoaderConfig) : List String := c.bundles.flatMap (·.2)

def isBundled (c : LoaderConfig) (module : String) : Bool := c.bundledModules.contains module

theorem listedNames_strings (modules : List String) : listedNames (.strings modules) = modules := by
  simp only [listedNames, Value.strings, Value.items?, Option.getD_some]
  induction modules with
  | nil => rfl
  | cons m ms ih => rw [List.map_cons, List.filterMap_cons, Value.string?]; simp only [ih]

end LoaderConfig

end BundleLedger
