import BundleLedger.Session.Basic

/-!
# Pipelines

A pipeline traces an expression, and then commits the graph: it selects modules, compiles them and
enters the bundle in the ledger. Traces of several pipelines run beside each other, while commits
come one after the other, so that no module is bundled twice.

Results:

* `length_traceAll`: every expression has one trace.
-/
namespace BundleLedger.Session

variable {ε : Type}

/-- What is traced, and what is done with the graph. -/
structure Pipeline (ε : Type) where
  expression : String
  commit : Graph → Session ε → Outcome ε (Option Target)

/-! ## Commits -/

/-- The records of a component that no bundle holds yet. -/
def componentModules (s : Session ε) (root : String) (graph : Graph) : Graph :=
  Selection.component (s.disk.isComponent s.options.basePath) root s.config graph

/-- The records of some packages that no bundle holds yet. -/
def packageModules (s : Session ε) (names : List String) (graph : Graph) : Graph :=
  Selection.unbundled s.config (Selection.packages s.config names graph)

def commitComponent (root : String) (graph : Graph) (s : Session ε) : Outcome ε (Option Target) :=
  s.compileAndSave root (s.componentModules root graph)

def commitPackages (names : List String) (root : String) (graph : Graph) (s : Session ε) :
    Outcome ε (Option Target) :=
  s.compileAndSave root (s.packageModules names graph)

/-- What some components own of their graphs, and some packages of theirs, in one graph. -/
def groupModules (s : Session ε) (components : List (String × Graph)) (names : List String)
    (vendor : Option Graph) : Graph :=
  let merged := components.foldl
    (fun merged (root, graph) => Graph.merge merged (s.componentModules root graph)) []
  match vendor with
  | none => merged
  | some graph => Graph.merge merged (s.packageModules names graph)

/-- Bundles components and packages together. -/
def commitGroup (components : List (String × Graph)) (names : List String) (vendor : Option Graph)
    (root : String) (s : Session ε) : Outcome ε (Option Target) :=
  s.compileAndSave root (s.groupModules components names vendor)

/-! ## Single pipelines -/

/-- Traces and commits. -/
def Pipeline.run (p : Pipeline ε) (s : Session ε) : Outcome ε (Option Target) :=
  match s.trace p.expression with
  | (.error e, s) => (.error e, s)
  | (.ok graph, s) => p.commit graph s

def componentPipeline (entry : String) : Pipeline ε :=
  let entry := ModuleName.normalized entry
  ⟨entry, commitComponent (ComponentRoot.ofEntry entry)⟩

/-- The bundle name of some packages, when none is given. -/
def joinedNames (names : List String) : String := "+".intercalate names

def packagesPipeline (names : List String) (saveAs : Option String) : Pipeline ε :=
  ⟨Engine.expression names, commitPackages names (saveAs.getD (joinedNames names))⟩

/-! ## Many pipelines -/

def traceAll (s : Session ε) : List String → List (Except Failure Graph) × Session ε
  | [] => ([], s)
  | expression :: rest =>
    let (graph, s) := s.trace expression
    let (graphs, s) := s.traceAll rest
    (graph :: graphs, s)

/-- A pipeline among others that was traced. -/
structure Job (ε : Type) where
  position : Nat
  pipeline : Pipeline ε
  traced : Except Failure Graph

/-- The outcome of a pipeline, with its position. -/
abbrev Settled := Nat × Except Failure (Option Target)

def Job.commit (job : Job ε) (s : Session ε) : Outcome ε (Option Target) :=
  match job.traced with
  | .error e => (.error e, s)
  | .ok graph => job.pipeline.commit graph s

/-- Spec §5. -/
def commitAll (s : Session ε) : List (Job ε) → List Settled × Session ε
  | [] => ([], s)
  | job :: jobs =>
    let (result, s) := job.commit s
    let (results, s) := s.commitAll jobs
    ((job.position, result) :: results, s)

def jobsOf (pipelines : List (Pipeline ε)) (graphs : List (Except Failure Graph)) : List (Job ε) :=
  (pipelines.zip graphs).zipIdx.map fun ((pipeline, traced), position) => ⟨position, pipeline, traced⟩

/-- The order in which jobs are committed: the sooner a trace is done the earlier, and by position
where two are done at once. -/
def commitOrder (s : Session ε) (jobs : List (Job ε)) : List (Job ε) :=
  jobs.mergeSort fun a b =>
    decide (s.engine.turns a.pipeline.expression ≤ s.engine.turns b.pipeline.expression)

/-- The outcomes by position. -/
def inOrder (results : List Settled) : List (Except Failure (Option Target)) :=
  (results.mergeSort fun a b => decide (a.1 ≤ b.1)).map fun r => r.2

/-- The targets that were written, by position, or the first failure by position.
Spec §7. -/
def report (results : List Settled) : Except Failure (List Target) := do
  return (← (inOrder results).mapM id).filterMap id

/-- Runs pipelines beside each other. A failure of one stops no other. Spec §5. -/
def runAll (s : Session ε) (pipelines : List (Pipeline ε)) : Outcome ε (List Target) :=
  let (graphs, s) := s.traceAll (pipelines.map (·.expression))
  let (results, s) := s.commitAll (s.commitOrder (jobsOf pipelines graphs))
  (report results, s)

theorem length_traceAll (s : Session ε) (expressions : List String) :
    (s.traceAll expressions).1.length = expressions.length := by
  induction expressions generalizing s with
  | nil => rfl
  | cons e expressions ih => simp [traceAll, ih]

end BundleLedger.Session
