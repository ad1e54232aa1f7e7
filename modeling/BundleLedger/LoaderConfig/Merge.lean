import BundleLedger.LoaderConfig.Basic

/-!
# Changing a configuration

A bundle is entered in the ledger under its id. A configuration file may set members by several
calls: a member that is an object is merged, one level deep, into what earlier calls set for its key;
any other value replaces it.

Results:

* `get?_register`: a registration changes the member `bundles` and no other.
* `bundles_register`: the ledger after a registration.
-/
namespace BundleLedger.LoaderConfig

open Json

/-- The configuration with `value` for `key`. -/
def set (c : LoaderConfig) (key : String) (value : Value) : LoaderConfig :=
  ⟨Entries.put c.entries key value⟩

/-! ## The ledger -/

/-- The configuration whose ledger says that the bundle `id` holds `modules`. -/
def register (c : LoaderConfig) (id : String) (modules : List String) : LoaderConfig :=
  c.set "bundles" (.object (Entries.put ((c.section? "bundles").getD []) id (.strings modules)))

/-- The configuration with an empty ledger. -/
def clearBundles (c : LoaderConfig) : LoaderConfig := c.set "bundles" (.object [])

theorem get?_set (c : LoaderConfig) (key k : String) (v : Value) :
    (c.set key v).get? k = if key = k then some v else c.get? k :=
  Entries.get?_put ..

theorem get?_register (c : LoaderConfig) (id : String) (modules : List String) {key : String}
    (h : key ≠ "bundles") : (c.register id modules).get? key = c.get? key := by
  simp [register, get?_set, Ne.symm h]

theorem bundles_register (c : LoaderConfig) (id : String) (modules : List String) :
    (c.register id modules).bundles =
      (Entries.put ((c.section? "bundles").getD []) id (.strings modules)).map
        fun (id, modules) => (id, listedNames modules) := by
  simp [bundles, section?, register, get?_set, Value.members?]

/-! ## Configuration calls -/

def applyMember (c : LoaderConfig) (key : String) (value : Value) : LoaderConfig :=
  match value with
  | .object members => c.set key (.object (Entries.putAll ((c.section? key).getD []) members))
  | v => c.set key v

/-- The configuration after a call with these members (spec §6). -/
def apply (c : LoaderConfig) (members : Members) : LoaderConfig :=
  members.foldl (fun c (key, value) => c.applyMember key value) c

end BundleLedger.LoaderConfig
