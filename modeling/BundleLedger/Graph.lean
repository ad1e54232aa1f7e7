import BundleLedger.Disk.Basic
import BundleLedger.Failure
import BundleLedger.Json.Decoder
import BundleLedger.Json.Printer

/-!
# Module graphs and engines

An engine does what the bundler leaves to others: to find the modules that a name leads to, and to
compile modules into one text. What is exchanged with it is the graph that a trace found, the options
of a compilation and the bundle that it made. A record of a graph has a name; all else that the
engine noted about a module is carried along as it came.

Results:

* `Engine.expression_singleton`: one name is traced as it is.
-/
namespace BundleLedger

open Json

/-- A traced module (spec §3). -/
structure Record where
  name : String
  metadata : Members := []
  deriving Repr

/-- Traced modules by key, in the order in which they were found (spec §3). -/
abbrev Graph := Entries Record

/-- A compiled bundle: its text, its source map and the modules it holds. Spec §3. -/
structure Bundle where
  source : String
  sourceMap : Option String := none
  modules : List String := []
  deriving DecidableEq, Repr

structure CompileOptions where
  sourceMaps : Bool
  minify : Bool
  cssOptimize : Bool
  deriving DecidableEq, Repr

namespace Graph

def ofRecords (records : List Record) : Graph := Entries.ofPairs (records.map fun r => (r.name, r))

/-- Both graphs together; where both have a key, the later record counts. -/
def merge (first later : Graph) : Graph := Entries.putAll first later

def names (graph : Graph) : List String := graph.map (·.2.name)

end Graph

/-! ## Written forms -/

namespace Record

/-- A record as an object: its name, then all else. -/
def toValue (r : Record) : Value := .object (("name", .string r.name) :: r.metadata)

/-- Reads a record from an object with one string member `name`. -/
def decoder : Decoder Record
  | limit + 1, .object members => do
    let pairs ← Tree.members? limit members
    match pairs.filter (·.1 = "name") with
    | [(_, .string name)] => some ⟨name, Entries.ofPairs (pairs.filter (·.1 ≠ "name"))⟩
    | _ => none
  | _, _ => none

end Record

namespace Graph

/-- A graph as an object of its records. -/
def toValue (graph : Graph) : Value := .object (graph.map fun (key, r) => (key, r.toValue))

/-- Reads a graph from an object of records. -/
def decoder : Decoder Graph := Decoder.entries Record.decoder

/-- The graph that a text holds. -/
def parse? (text : String) : Option Graph := decoder.run text

end Graph

namespace Bundle

/-- Whether the bundle holds no module. -/
def isEmpty (b : Bundle) : Bool := b.modules.isEmpty

/-- A bundle as an object. -/
def toValue (b : Bundle) : Value :=
  .object [("source", .string b.source),
    ("sourceMap", match b.sourceMap with | some map => .string map | none => .null),
    ("modules", Value.strings b.modules)]

/-- Reads a bundle; only its source is required. -/
def decoder : Decoder Bundle := fun limit tree => do
  match ← Slots.of ["source", "sourceMap", "modules"] limit tree with
  | ([source, sourceMap, modules], limit) =>
    return {
      source := ← Decoder.required .string limit source
      sourceMap := ← Decoder.optional none (.nullable .string) limit sourceMap
      modules := ← Decoder.optional [] (.list .string) limit modules }
  | _ => none

/-- The bundle that a text holds. -/
def parse? (text : String) : Option Bundle := decoder.run text

end Bundle

namespace CompileOptions

/-- The options as an object. -/
def toValue (o : CompileOptions) : Value :=
  .object [("sourceMaps", .bool o.sourceMaps), ("minify", .bool o.minify),
    ("cssOptimize", .bool o.cssOptimize)]

/-- Reads the options; all three are required. -/
def decoder : Decoder CompileOptions := fun limit tree => do
  match ← Slots.of ["sourceMaps", "minify", "cssOptimize"] limit tree with
  | ([sourceMaps, minify, cssOptimize], limit) =>
    return {
      sourceMaps := ← Decoder.required .bool limit sourceMaps
      minify := ← Decoder.required .bool limit minify
      cssOptimize := ← Decoder.required .bool limit cssOptimize }
  | _ => none

/-- The options that a text holds. -/
def parse? (text : String) : Option CompileOptions := decoder.run text

end CompileOptions

/-! ## Engines -/

/-- Something that traces and compiles. `ε` is what it remembers; it may also change files.
Spec §1. -/
structure Engine (ε : Type) where
  /-- Finds the modules that an expression leads to. -/
  trace : String → ε → Disk → Except EngineFailure Graph × ε × Disk
  /-- Compiles exactly the modules of a graph. -/
  compile : Graph → CompileOptions → ε → Disk → Except EngineFailure Bundle × ε × Disk
  /-- How many turns the trace of an expression takes when several are under way. -/
  turns : String → Nat := fun _ => 0

namespace Engine

/-- What stands between two names that are traced together. -/
def conjunction : List Char := " + ".toList

/-- The expression that names several modules or packages at once. -/
def expression (names : List String) : String :=
  String.ofList (Text.join conjunction (names.map String.toList))

theorem expression_singleton (name : String) : expression [name] = name := by
  simp [expression, Text.join]

end Engine

end BundleLedger
