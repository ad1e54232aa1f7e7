import BundleLedger.Bundle.Save
import BundleLedger.Disk.Component
import BundleLedger.Event
import BundleLedger.LoaderConfig.Render
import BundleLedger.LoaderConfig.Source
import BundleLedger.Selection

/-!
# Sessions

A session bundles with one engine over one loader configuration. It holds the ledger, the files and
what it has reported so far; an operation gives its outcome and the session after it. A failure
never undoes what was done before.

`spec §` refers to a section of the bundler's specification.

Results:

* `config_start`: a session that keeps existing bundles starts with the configuration as it is.
-/
namespace BundleLedger

/-- A session with an engine that remembers an `ε` (spec §2). -/
structure Session (ε : Type) where
  options : Options
  engine : Engine ε
  /-- What the engine remembers. -/
  memory : ε
  /-- The loader configuration with the ledger. -/
  config : LoaderConfig
  disk : Disk
  /-- What was reported, in order. -/
  events : List Event := []

/-- The outcome of an operation, and the session after it. -/
abbrev Outcome (ε α : Type) := Except Failure α × Session ε

def LoaderConfig.load (disk : Disk) (path : String) : Except ConfigFailure LoaderConfig :=
  match disk.readText path with
  | .ok text => LoaderConfig.parse text
  | .error e => .error (.io path e.message)

namespace Session

variable {ε : Type}

/-- A session over a configuration that was loaded. The ledger starts empty unless it is to be kept.
Spec §11. -/
def start (options : Options) (engine : Engine ε) (memory : ε) (config : LoaderConfig) (disk : Disk) :
    Session ε where
  options := options
  engine := engine
  memory := memory
  config := if options.keepExistingBundles then config else config.clearBundles
  disk := disk

/-- The session after one more report. -/
def emit (s : Session ε) (event : Event) : Session ε := { s with events := s.events ++ [event] }

def trace (s : Session ε) (expression : String) : Outcome ε Graph :=
  match s.engine.trace expression s.memory s.disk with
  | (.ok graph, memory, disk) => (.ok graph, { s with memory, disk })
  | (.error e, memory, disk) => (.error (.engine e), { s with memory, disk })

def compileOptions (options : Options) : CompileOptions where
  sourceMaps := options.sourceMaps
  minify := options.minify
  cssOptimize := options.cssOptimize

def reportSaved (s : Session ε) (root : String) (modules : Nat) : Option Target → Session ε
  | some target => s.emit (.bundleWritten target.id target.path modules)
  | none => s.emit (.bundleSkipped root)

/-- Compiles what a graph holds, writes it and enters it in the ledger. Nothing is compiled when the
graph is empty. Spec §4.3. -/
def compileAndSave (s : Session ε) (root : String) (graph : Graph) : Outcome ε (Option Target) :=
  if graph.isEmpty then (.ok none, s.emit (.bundleSkipped root))
  else
    match s.engine.compile graph (compileOptions s.options) s.memory s.disk with
    | (.error e, memory, disk) => (.error (.engine e), { s with memory, disk })
    | (.ok bundle, memory, disk) =>
      match bundle.save root s.options s.config disk with
      | (.error e, config, disk) => (.error e, { s with memory, config, disk })
      | (.ok target, config, disk) =>
        (.ok target,
          ({ s with memory, config, disk } : Session ε).reportSaved root bundle.modules.length target)

/-- Reports a failure of an operation (spec §7). -/
def finish {α : Type} (operation : String) : Outcome ε α → Outcome ε α
  | (.ok a, s) => (.ok a, s)
  | (.error e, s) => (.error e, s.emit (.failed operation e.message))

theorem config_start {options : Options} (h : options.keepExistingBundles = true) (engine : Engine ε)
    (memory : ε) (config : LoaderConfig) (disk : Disk) :
    (start options engine memory config disk).config = config := by
  simp [start, h]

end Session

end BundleLedger
