import BundleLedger.Session.Operations
import Mathlib.Data.Multiset.AddSub
import Mathlib.Logic.Relation

/-!
# Operations that run beside each other

`Session` runs one operation after the other. Here any number of operations is under way at once.
What a request still has to do is a `Task`; a bulk request leaves one task for each of its units.
Traces run without the lock and may end in any order. A task whose traces are there waits for the
lock; the one that takes it selects its modules and keeps the lock until they are compiled and saved
(`Lock`), or until that fails. Everything else may change files, what the engine remembers and what
was reported at any time (`Step.outside`), also between two steps of the task that holds the lock.

A compilation, a save and the selection of modules are those of `Session`, so the events, the files
and the ledger of a single operation are the same in both (`compileAndSave_eq`).

Results:

* `Step.options` and `Step.engine`: no step changes the settings or the engine.
* `compileAndSave_eq`: what a task does while it holds the lock is what a session does in one go.
-/
namespace BundleLedger.Concurrency

open Session

variable {ε : Type}

/-- What a session can be asked to do. -/
inductive Request where
  | component (entry : String)
  | components (roots : List String) (saveAs : String)
  | bundle (components packages : List String) (saveAs : String)
  | package (name : String)
  | packages (names : List String) (saveAs : Option String)
  | remainingComponents
  | remainingPackages
  deriving DecidableEq, Repr

/-- What is to be bundled once the lock is held. -/
inductive Commit where
  | component (root : String) (graph : Graph)
  | packages (names : List String) (root : String) (graph : Graph)
  | group (components : List (String × Graph)) (packages : List String) (vendor : Option Graph)
      (root : String)

/-- A request, or a unit of one, that traces one expression. -/
inductive Single where
  | component (entry : String)
  | packages (names : List String) (saveAs : Option String)
  deriving DecidableEq, Repr

/-- What is left to do for a request. A group has one slot for each of its components, which is
filled when the component's trace ends. -/
inductive Task where
  | called (request : Request)
  | tracing (single : Single)
  | gathering (slots : List (String × Option (Except Failure Graph))) (packages : List String)
      (saveAs : String)
  | waiting (commit : Commit)

inductive Lock where
  | free
  | compiling (root : String) (graph : Graph)
  | saving (root : String) (bundle : Bundle)

/-- A session with all that is under way in it. -/
structure State (ε : Type) where
  session : Session ε
  lock : Lock
  tasks : Multiset Task

/-! ## Under the lock -/

def Commit.root : Commit → String
  | .component root _ => root
  | .packages _ root _ => root
  | .group _ _ _ root => root

def Commit.modules (s : Session ε) : Commit → Graph
  | .component root graph => s.componentModules root graph
  | .packages names _ graph => s.packageModules names graph
  | .group graphs names vendor _ => s.groupModules graphs names vendor

/-- Compiles a graph; a failure gives the lock back. -/
def compiled (s : Session ε) (root : String) (graph : Graph) : Session ε × Lock :=
  match s.engine.compile graph (compileOptions s.options) s.memory s.disk with
  | (.error _, memory, disk) => ({ s with memory, disk }, .free)
  | (.ok bundle, memory, disk) => ({ s with memory, disk }, .saving root bundle)

def saved (s : Session ε) (root : String) (bundle : Bundle) : Session ε :=
  match bundle.save root s.options s.config s.disk with
  | (.error _, config, disk) => { s with config, disk }
  | (.ok target, config, disk) =>
    ({ s with config, disk } : Session ε).reportSaved root bundle.modules.length target

/-! ## Without the lock -/

def Single.pipeline : Single → Pipeline ε
  | .component entry => componentPipeline entry
  | .packages names saveAs => packagesPipeline names saveAs

def Single.expression : Single → String
  | .component entry => ModuleName.normalized entry
  | .packages names _ => Engine.expression names

def Single.commit (graph : Graph) : Single → Commit
  | .component entry => .component (ComponentRoot.ofEntry (ModuleName.normalized entry)) graph
  | .packages names saveAs => .packages names (saveAs.getD (joinedNames names)) graph

def Single.next (single : Single) : Except Failure Graph → Multiset Task
  | .error _ => 0
  | .ok graph => {.waiting (single.commit graph)}

/-- What is left of a group whose components are traced: nothing if a trace failed, and otherwise
what it commits, after its packages are traced as well. -/
def gathered (s : Session ε) (traces : List (String × Except Failure Graph))
    (packages : List String) (saveAs : String) : Session ε × Multiset Task :=
  match allTraced (traces.map (·.2)) with
  | .error _ => (s, 0)
  | .ok graphs =>
    match s.traceVendor packages with
    | (.error _, s) => (s, 0)
    | (.ok vendor, s) =>
      (s, {.waiting (.group ((traces.map (·.1)).zip graphs) packages vendor saveAs)})

/-- The components without a bundle; none where they cannot be found out. -/
def pendingComponentUnits (s : Session ε) : List Single :=
  match s.pendingComponents with
  | .error _ => []
  | .ok entries => entries.map .component

/-- The declared packages that are ready; none where the manifest cannot be read. -/
def readyPackageUnits (s : Session ε) : List Single :=
  match declaredPackages s.disk s.options.manifest with
  | .error _ => []
  | .ok names =>
    (names.filter fun name => s.readiness name = .ready).map fun name => .packages [name] none

/-- A group none of whose components is traced. -/
def group (components packages : List String) (saveAs : String) : Task :=
  .gathering (components.map fun c => (ComponentRoot.ofName c, none)) packages saveAs

def Request.tasks (s : Session ε) : Request → Multiset Task
  | .component entry => {.tracing (.component entry)}
  | .components roots saveAs => {group roots [] saveAs}
  | .bundle roots names saveAs => {group roots names saveAs}
  | .package name => {.tracing (.packages [name] none)}
  | .packages names saveAs => {.tracing (.packages names saveAs)}
  | .remainingComponents => (pendingComponentUnits s).map Task.tracing
  | .remainingPackages => (readyPackageUnits s).map Task.tracing

def Request.isBulk : Request → Bool
  | .remainingComponents | .remainingPackages => true
  | _ => false

/-! ## Steps -/

/-- One step of one task, or of the world outside. -/
inductive Step : State ε → State ε → Prop where
  /-- Files, the engine's memory and the reports change. -/
  | outside (s : Session ε) (lock : Lock) (tasks : Multiset Task) (memory : ε) (disk : Disk)
      (events : List Event) : Step ⟨s, lock, tasks⟩ ⟨{ s with memory, disk, events }, lock, tasks⟩
  /-- A request gets going; a bulk request looks into the ledger, and no one else holds the lock
  then. -/
  | start (s : Session ε) (lock : Lock) (request : Request) (rest : Multiset Task)
      (h : request.isBulk = true → lock = .free) :
      Step ⟨s, lock, .called request ::ₘ rest⟩ ⟨s, lock, request.tasks s + rest⟩
  /-- The trace of a single ends. -/
  | trace (s : Session ε) (lock : Lock) (single : Single) (rest : Multiset Task) :
      Step ⟨s, lock, .tracing single ::ₘ rest⟩
        ⟨(s.trace single.expression).2, lock, single.next (s.trace single.expression).1 + rest⟩
  /-- The trace of one component of a group ends. -/
  | slot (s : Session ε) (lock : Lock) (before after : List (String × Option (Except Failure Graph)))
      (root : String) (packages : List String) (saveAs : String) (rest : Multiset Task) :
      Step ⟨s, lock, .gathering (before ++ (root, none) :: after) packages saveAs ::ₘ rest⟩
        ⟨(s.trace (ComponentRoot.entry root)).2, lock,
          .gathering (before ++ (root, some (s.trace (ComponentRoot.entry root)).1) :: after)
            packages saveAs ::ₘ rest⟩
  /-- The components of a group are traced; its packages follow. -/
  | gather (s : Session ε) (lock : Lock) (traces : List (String × Except Failure Graph))
      (packages : List String) (saveAs : String) (rest : Multiset Task) :
      Step ⟨s, lock, .gathering (traces.map fun t => (t.1, some t.2)) packages saveAs ::ₘ rest⟩
        ⟨(gathered s traces packages saveAs).1, lock,
          (gathered s traces packages saveAs).2 + rest⟩
  /-- A task takes the lock and selects its modules. -/
  | acquire (s : Session ε) (commit : Commit) (rest : Multiset Task) :
      Step ⟨s, .free, .waiting commit ::ₘ rest⟩
        ⟨s, .compiling commit.root (commit.modules s), rest⟩
  /-- Nothing is left to be compiled. -/
  | skip (s : Session ε) (root : String) (tasks : Multiset Task) :
      Step ⟨s, .compiling root [], tasks⟩ ⟨s.emit (.bundleSkipped root), .free, tasks⟩
  /-- The selected modules are handed to the engine. -/
  | compile (s : Session ε) (root : String) (graph : Graph) (tasks : Multiset Task)
      (h : graph ≠ []) :
      Step ⟨s, .compiling root graph, tasks⟩
        ⟨(compiled s root graph).1, (compiled s root graph).2, tasks⟩
  /-- The bundle is written and entered in the ledger, or a write fails. -/
  | save (s : Session ε) (root : String) (bundle : Bundle) (tasks : Multiset Task) :
      Step ⟨s, .saving root bundle, tasks⟩ ⟨saved s root bundle, .free, tasks⟩

/-- Any number of steps; no request comes in between. -/
abbrev Steps : State ε → State ε → Prop := Relation.ReflTransGen Step

/-- The states that a session can get into: requests come at any time, and their steps are taken in
any order. -/
inductive Reachable (s₀ : Session ε) : State ε → Prop where
  | start : Reachable s₀ ⟨s₀, .free, 0⟩
  | call (st : State ε) (request : Request) (h : Reachable s₀ st) :
      Reachable s₀ ⟨st.session, st.lock, .called request ::ₘ st.tasks⟩
  | step (st st' : State ε) (h : Reachable s₀ st) (hs : Step st st') : Reachable s₀ st'

/-! ## What a step leaves alone -/

@[simp] theorem saved_options (s : Session ε) (root : String) (bundle : Bundle) :
    (saved s root bundle).options = s.options := by
  unfold saved
  split
  · rfl
  · rename_i target _ _ _
    cases target <;> rfl

@[simp] theorem saved_engine (s : Session ε) (root : String) (bundle : Bundle) :
    (saved s root bundle).engine = s.engine := by
  unfold saved
  split
  · rfl
  · rename_i target _ _ _
    cases target <;> rfl

theorem saved_config (s : Session ε) (root : String) (bundle : Bundle) :
    (saved s root bundle).config = (bundle.save root s.options s.config s.disk).2.1 := by
  unfold saved
  split
  · rename_i h
    rw [h]
  · rename_i target _ _ h
    rw [h]
    cases target <;> rfl

theorem saved_disk (s : Session ε) (root : String) (bundle : Bundle) :
    (saved s root bundle).disk = (bundle.save root s.options s.config s.disk).2.2 := by
  unfold saved
  split
  · rename_i h
    rw [h]
  · rename_i target _ _ h
    rw [h]
    cases target <;> rfl

theorem compiled_frame (s : Session ε) (root : String) (graph : Graph) :
    (compiled s root graph).1.options = s.options ∧ (compiled s root graph).1.engine = s.engine ∧
      (compiled s root graph).1.config = s.config := by
  unfold compiled
  split <;> exact ⟨rfl, rfl, rfl⟩

theorem trace_frame (s : Session ε) (expression : String) :
    (s.trace expression).2.options = s.options ∧ (s.trace expression).2.engine = s.engine ∧
      (s.trace expression).2.config = s.config := by
  unfold Session.trace
  split <;> exact ⟨rfl, rfl, rfl⟩

theorem traceVendor_frame (s : Session ε) (packages : List String) :
    (s.traceVendor packages).2.options = s.options ∧
      (s.traceVendor packages).2.engine = s.engine ∧
      (s.traceVendor packages).2.config = s.config := by
  have h := trace_frame s (Engine.expression packages)
  unfold traceVendor
  split
  · exact ⟨rfl, rfl, rfl⟩
  · split <;> rename_i heq <;> rw [heq] at h <;> exact h

theorem gathered_frame (s : Session ε) (traces : List (String × Except Failure Graph))
    (packages : List String) (saveAs : String) :
    (gathered s traces packages saveAs).1.options = s.options ∧
      (gathered s traces packages saveAs).1.engine = s.engine ∧
      (gathered s traces packages saveAs).1.config = s.config := by
  have h := traceVendor_frame s packages
  unfold gathered
  split
  · exact ⟨rfl, rfl, rfl⟩
  · split <;> rename_i heq <;> rw [heq] at h <;> exact h

/-- No step changes the settings. -/
theorem Step.options {st st' : State ε} (h : Step st st') :
    st'.session.options = st.session.options := by
  cases h with
  | trace s _ single _ => exact (trace_frame s _).1
  | slot s _ _ _ root _ _ _ => exact (trace_frame s _).1
  | gather s _ traces packages saveAs _ => exact (gathered_frame s _ _ _).1
  | compile s root graph _ _ => exact (compiled_frame s root graph).1
  | save s root bundle _ => exact saved_options s root bundle
  | outside | start | acquire | skip => rfl

/-- No step changes the engine. -/
theorem Step.engine {st st' : State ε} (h : Step st st') :
    st'.session.engine = st.session.engine := by
  cases h with
  | trace s _ single _ => exact (trace_frame s _).2.1
  | slot s _ _ _ root _ _ _ => exact (trace_frame s _).2.1
  | gather s _ traces packages saveAs _ => exact (gathered_frame s _ _ _).2.1
  | compile s root graph _ _ => exact (compiled_frame s root graph).2.1
  | save s root bundle _ => exact saved_engine s root bundle
  | outside | start | acquire | skip => rfl

/-- Only a save changes the ledger. -/
theorem Step.config {st st' : State ε} (h : Step st st') :
    st'.session.config = st.session.config ∨
      ∃ root bundle, st.lock = .saving root bundle ∧ st'.session = saved st.session root bundle := by
  cases h with
  | trace s _ single _ => exact .inl (trace_frame s _).2.2
  | slot s _ _ _ root _ _ _ => exact .inl (trace_frame s _).2.2
  | gather s _ traces packages saveAs _ => exact .inl (gathered_frame s _ _ _).2.2
  | compile s root graph _ _ => exact .inl (compiled_frame s root graph).2.2
  | save s root bundle _ => exact .inr ⟨root, bundle, rfl, rfl⟩
  | outside | start | acquire | skip => exact .inl rfl

/-- What a save does to the ledger: nothing, or it enters the modules of the bundle. -/
theorem saved_config_cases (s : Session ε) (root : String) (bundle : Bundle) :
    (saved s root bundle).config = s.config ∨
      (saved s root bundle).config =
        s.config.register (Target.forRoot root s.options).id bundle.modules := by
  rw [saved_config, Bundle.save]
  split
  · exact .inl rfl
  · dsimp only
    split
    · exact .inl rfl
    · exact .inr rfl

/-- Compiling and saving in one go. -/
theorem compileAndSave_eq (s : Session ε) (root : String) (graph : Graph) :
    (s.compileAndSave root graph).2 =
      if graph.isEmpty then s.emit (.bundleSkipped root)
      else
        match compiled s root graph with
        | (s, .saving root bundle) => saved s root bundle
        | (s, _) => s := by
  unfold compileAndSave compiled
  split
  · rfl
  · rcases s.engine.compile graph (compileOptions s.options) s.memory s.disk with
      ⟨e | bundle, memory, disk⟩
    · rfl
    · dsimp only [saved]
      rcases bundle.save root s.options s.config disk with ⟨e | target, config, disk'⟩ <;> rfl

end BundleLedger.Concurrency
