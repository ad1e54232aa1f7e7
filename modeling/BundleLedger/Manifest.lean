import BundleLedger.Failure
import BundleLedger.Json.Decoder

/-!
# The project manifest

The part of `package.json` that says which packages a project depends on.
-/
namespace BundleLedger

open Json

/-- What is read of a manifest: its name, and the section with the dependencies.
Spec §6. -/
structure Manifest where
  name : Option String
  /-- The section `jspm` and, if it has them, its dependencies. -/
  jspm : Option (Option (Entries String))
  deriving DecidableEq, Repr

namespace Manifest

def jspmDecoder : Decoder (Option (Entries String)) := fun limit tree => do
  match ← Slots.of ["dependencies"] limit tree with
  | ([dependencies], limit) =>
    Decoder.optional none (.nullable (.entries .string)) limit dependencies
  | _ => none

/-- Reads a manifest. -/
def decoder : Decoder Manifest := fun limit tree => do
  match ← Slots.of ["name", "jspm"] limit tree with
  | ([name, jspm], limit) =>
    return {
      name := ← Decoder.optional none (.nullable .string) limit name
      jspm := ← Decoder.optional none (.nullable jspmDecoder) limit jspm }
  | _ => none

/-- The manifest that a text holds. -/
def parse? (text : String) : Option Manifest := decoder.run text

def dependencies? (m : Manifest) : Option (Entries String) := m.jspm.bind id

def dependencyNames (m : Manifest) (path : String) : Except ManifestFailure (List String) :=
  match m.dependencies? with
  | some dependencies => .ok (Entries.keys dependencies)
  | none => .error (.missingDependencies path)

end Manifest

end BundleLedger
