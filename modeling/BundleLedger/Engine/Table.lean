import BundleLedger.Graph
import BundleLedger.Text.Search

/-!
# An engine that answers from tables

For rehearsing a session: which modules a name stands for, what each imports, and what goes wrong is
laid down beforehand. The engine remembers what it was asked to compile.
-/
namespace BundleLedger.Engine

open Json

/-- What the answers of an engine are taken from. -/
structure Table where
  /-- The modules that a name stands for; otherwise the name itself. -/
  packages : Entries (List String) := []
  /-- What a module imports; otherwise nothing. -/
  imports : Entries (List String) := []
  /-- The name in the record of a module; otherwise the module. -/
  names : Entries String := []
  /-- The names whose trace fails, with the message. -/
  broken : Entries String := []
  /-- How many turns the trace of a name takes; otherwise none. -/
  delays : Entries Nat := []
  /-- The message with which every compilation fails, if it does. -/
  failure : Option String := none
  /-- The modules that a compilation leaves out. -/
  dropped : List String := []
  /-- The text of every bundle; otherwise the list of its modules. -/
  source : Option String := none
  /-- The source map of every bundle; otherwise one that lists its modules. -/
  sourceMap : Option (Option String) := none

/-- A compilation that was asked for. -/
structure Call where
  options : CompileOptions
  graph : Graph

namespace Table

variable (t : Table)

def importsOf (module : String) : List String := (Entries.get? t.imports module).getD []

/-- The record of a module that was found by tracing `expression`. -/
def record (expression module : String) : Record where
  name := (Entries.get? t.names module).getD module
  metadata := [("deps", Value.strings (t.importsOf module)), ("via", .string expression)]

/-- The graph after everything that the queued modules lead to; each step of the fuel takes one
module from the queue. -/
def walk (expression : String) : Nat → List String → Graph → Graph
  | 0, _, graph | _, [], graph => graph
  | fuel + 1, module :: queue, graph =>
    if Entries.has graph module then walk expression fuel queue graph
    else walk expression fuel (queue ++ t.importsOf module)
      (Entries.put graph module (t.record expression module))

/-- How often a module can be queued by another one. -/
def importCount : Nat := (Entries.values t.imports).foldr (fun names n => names.length + n) 0

def modulesOf (name : String) : List String := (Entries.get? t.packages name).getD [name]

def traceNames (expression : String) : List String → Graph → Except EngineFailure Graph
  | [], graph => .ok graph
  | name :: names, graph =>
    match Entries.get? t.broken name with
    | some message => .error (.trace expression message)
    | none =>
      let start := t.modulesOf name
      traceNames expression names (t.walk expression (start.length + t.importCount) start graph)

def namesOf (expression : String) : List String :=
  (Text.splitAtText conjunction expression.toList).map String.ofList

/-- The modules that a compilation keeps. -/
def kept (graph : Graph) : List String := (Entries.keys graph).filter (!t.dropped.contains ·)

def mapOf (modules : List String) : String :=
  (Value.object [("version", .number (.integer 3)), ("sources", Value.strings modules),
    ("mappings", .string "")]).text

def bundle (graph : Graph) (options : CompileOptions) : Bundle :=
  let modules := t.kept graph
  { source := t.source.getD ("\n".intercalate (modules.map fun m => "/*" ++ m ++ "*/"))
    sourceMap := t.sourceMap.getD (if options.sourceMaps then some (mapOf modules) else none)
    modules := modules }

/-- The engine that answers from a table and remembers the compilations. -/
def engine : Engine (List Call) where
  trace expression calls disk := (t.traceNames expression (namesOf expression) [], calls, disk)
  compile graph options calls disk :=
    (match t.failure with
      | some message => .error (.compile message)
      | none => .ok (t.bundle graph options),
      calls ++ [⟨options, graph⟩], disk)
  turns expression := (namesOf expression).foldr (fun name n => (Entries.get? t.delays name).getD 0 + n) 0

end Table

end BundleLedger.Engine
