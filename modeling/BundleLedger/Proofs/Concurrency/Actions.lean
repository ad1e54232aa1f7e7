import BundleLedger.CommandLine.Run
import BundleLedger.Proofs.Concurrency.EventLog

/-!
# What an operation does, one action after the other

An operation of a session gives its answer and the session after it, and what it did in between is
gone. Here it is laid open as a list of actions: traces, commits and reports. Which actions they are
depends on what the engine answers, so the list is read off the session in which the operation
starts.

The actions are those of `Session`: taking them one after the other leads to the same session
(`follow_request`, `follow_command`). A condition on a whole run can so be put on each of its
actions, in the session in which the action is taken.

Results:

* `follow_bulk`: running pipelines is tracing them, and then committing those that were traced.
* `follow_request` and `follow_command`: the actions of a request and of a command.
* `follow_config`: the configuration after some actions is what their commits registered.
-/
namespace BundleLedger.Concurrency

open Session

variable {ε : Type}

/-- One thing that a session does. -/
inductive Action where
  | trace (expression : String)
  /-- Modules are selected, compiled, saved and reported. -/
  | commit (c : Commit)
  | report (event : Event)

def Action.apply (s : Session ε) : Action → Session ε
  | .trace expression => (s.trace expression).2
  | .commit c => (s.compileAndSave c.root (c.modules s)).2
  | .report event => s.emit event

/-- The session after some actions. -/
def follow (s : Session ε) (actions : List Action) : Session ε := actions.foldl Action.apply s

theorem follow_cons (s : Session ε) (action : Action) (rest : List Action) :
    follow s (action :: rest) = follow (action.apply s) rest := rfl

theorem follow_append (s : Session ε) (first later : List Action) :
    follow s (first ++ later) = follow (follow s first) later :=
  List.foldl_append

theorem follow_reports (s : Session ε) (events : List Event) :
    follow s (events.map .report) = { s with events := s.events ++ events } := by
  induction events generalizing s with
  | nil => simp [follow]
  | cons event events ih =>
    rw [List.map_cons, follow_cons, ih]
    simp [Action.apply, Session.emit]

/-! ## Units -/

def commitsOf (traced : Single × Except Failure Graph) : List Action :=
  match traced.2 with
  | .error _ => []
  | .ok graph => [.commit (traced.1.commit graph)]

def Single.actions (s : Session ε) (single : Single) : List Action :=
  .trace single.expression :: commitsOf (single, (s.trace single.expression).1)

theorem follow_single (s : Session ε) (single : Single) :
    follow s (single.actions s) = (single.pipeline.run s).2 := by
  unfold Single.actions Pipeline.run
  rw [follow_cons, Single.pipeline_expression]
  rcases h : s.trace single.expression with ⟨e | graph, s'⟩
  · simp [Action.apply, follow, commitsOf, h]
  · simp [Action.apply, follow, commitsOf, h, Single.pipeline_commit]

def traces (expressions : List String) : List Action := expressions.map .trace

theorem follow_traces (s : Session ε) (expressions : List String) :
    follow s (traces expressions) = (s.traceAll expressions).2 := by
  induction expressions generalizing s with
  | nil => rfl
  | cons expression expressions ih => exact ih (s.trace expression).2

/-- What a group commits with the graphs of its components, after its packages are traced as well. -/
def gatherActions (s : Session ε) (components : List (String × Graph)) (packages : List String)
    (saveAs : String) : List Action :=
  if packages.isEmpty then [.commit (.group components packages none saveAs)]
  else
    .trace (Engine.expression packages) ::
      match (s.trace (Engine.expression packages)).1 with
      | .error _ => []
      | .ok graph => [.commit (.group components packages (some graph) saveAs)]

def groupActions (s : Session ε) (components packages : List String) (saveAs : String) :
    List Action :=
  let roots := components.map ComponentRoot.ofName
  let entries := roots.map ComponentRoot.entry
  traces entries ++
    match allTraced (s.traceAll entries).1 with
    | .error _ => []
    | .ok graphs => gatherActions (s.traceAll entries).2 (roots.zip graphs) packages saveAs

theorem follow_gather (s : Session ε) (components : List (String × Graph)) (packages : List String)
    (saveAs : String) :
    follow s (gatherActions s components packages saveAs) =
      (match s.traceVendor packages with
        | (.error e, s) => (.error e, s)
        | (.ok vendor, s) => commitGroup components packages vendor saveAs s : Outcome ε _).2 := by
  unfold gatherActions traceVendor
  split
  · rfl
  · rw [follow_cons]
    rcases h : s.trace (Engine.expression packages) with ⟨e | graph, s'⟩
    · simp [Action.apply, follow, h]
    · simp [Action.apply, follow, h, commitGroup, Commit.root, Commit.modules]

theorem follow_group (s : Session ε) (components packages : List String) (saveAs : String) :
    follow s (groupActions s components packages saveAs) = (s.group components packages saveAs).2 := by
  simp only [group_eq_groupTraced, groupActions, follow_append, follow_traces, groupTraced]
  cases allTraced
      (s.traceAll ((components.map ComponentRoot.ofName).map ComponentRoot.entry)).1 with
  | error e => rfl
  | ok graphs => exact follow_gather ..

/-! ## Bulk operations -/

/-- Units in the order in which they commit when nothing else is under way. -/
def inTurn (s : Session ε) (traced : List (Single × Except Failure Graph)) :
    List (Single × Except Failure Graph) :=
  traced.mergeSort fun a b =>
    decide (s.engine.turns a.1.expression ≤ s.engine.turns b.1.expression)

def bulkActions (s : Session ε) (units : List Single) : List Action :=
  traces (units.map Single.expression) ++
    (inTurn s (units.zip (s.traceAll (units.map Single.expression)).1)).flatMap commitsOf

theorem follow_commits {jobs : List (Job ε)} {traced : List (Single × Except Failure Graph)}
    (h : List.Forall₂ Serves jobs traced) (s : Session ε) :
    follow s (traced.flatMap commitsOf) = (s.commitAll jobs).2 := by
  induction h generalizing s with
  | nil => rfl
  | @cons job t _ _ hserves _ ih =>
    obtain ⟨hpipeline, htraced⟩ := hserves
    have hjob : follow s (commitsOf t) = (job.commit s).2 := by
      unfold commitsOf Job.commit
      rw [htraced]
      cases t.2 with
      | error e => rfl
      | ok graph =>
        dsimp only
        rw [hpipeline, Single.pipeline_commit]
        rfl
    rw [List.flatMap_cons, follow_append, hjob, ih]
    rfl

/-- The jobs in their order serve the units in theirs. -/
theorem serves_commitOrder (s : Session ε) (units : List Single)
    (graphs : List (Except Failure Graph)) :
    List.Forall₂ Serves (s.commitOrder (jobsOf (units.map Single.pipeline) graphs))
      (inTurn s (units.zip graphs)) := by
  let job (p : (Single × Except Failure Graph) × Nat) : Job ε := ⟨p.2, p.1.1.pipeline, p.1.2⟩
  let before (p q : (Single × Except Failure Graph) × Nat) : Bool :=
    decide (s.engine.turns p.1.1.expression ≤ s.engine.turns q.1.1.expression)
  have hjobs : jobsOf (units.map Single.pipeline) graphs = (units.zip graphs).zipIdx.map job := by
    simp [jobsOf, List.zip_map_left, List.zipIdx_map, job]
  have horder : s.commitOrder (jobsOf (units.map Single.pipeline) graphs) =
      ((units.zip graphs).zipIdx.mergeSort before).map job := by
    rw [hjobs, commitOrder, List.map_mergeSort]
    intro p _ q _
    simp [before, job, Single.pipeline_expression]
  have hturn : inTurn s (units.zip graphs) =
      ((units.zip graphs).zipIdx.mergeSort before).map Prod.fst := by
    conv_lhs => rw [inTurn, ← List.zipIdx_map_fst 0 (units.zip graphs)]
    rw [List.map_mergeSort]
    exact fun _ _ _ _ => rfl
  rw [horder, hturn, List.forall₂_map_left_iff, List.forall₂_map_right_iff, List.forall₂_same]
  exact fun _ _ => ⟨rfl, rfl⟩

theorem follow_bulk (s : Session ε) (units : List Single) :
    follow s (bulkActions s units) = (s.runAll (units.map Single.pipeline)).2 := by
  have ha := aside_traceAll s (units.map Single.expression)
  rcases htraced : s.traceAll (units.map Single.expression) with ⟨graphs, s'⟩
  rw [htraced] at ha
  obtain ⟨memory, disk, rfl⟩ := ha
  rw [runAll_of_traceAll htraced, bulkActions, follow_append, follow_traces, htraced]
  exact follow_commits (serves_commitOrder { s with memory, disk } units graphs) _

/-! ## Requests -/

def failureReport (operation : String) (result : Except Failure Answer) : List Action :=
  match result with
  | .ok _ => []
  | .error e => [.report (.failed operation e.message)]

theorem follow_failureReport (s : Session ε) (operation : String) (out : Outcome ε Answer)
    {actions : List Action} (h : follow s actions = out.2) :
    follow s (actions ++ failureReport operation (Session.finish operation out).1) =
      (Session.finish operation out).2 := by
  obtain ⟨result, s'⟩ := out
  rw [follow_append, h]
  cases result <;> rfl

/-- The actions of a request, up to the report of its failure. -/
def Request.work (s : Session ε) : Request → List Action
  | .component entry => Single.actions s (.component entry)
  | .components roots saveAs => groupActions s roots [] saveAs
  | .bundle roots names saveAs => groupActions s roots names saveAs
  | .package name => Single.actions s (.packages [name] none)
  | .packages names saveAs => Single.actions s (.packages names saveAs)
  | .remainingComponents =>
    match s.pendingComponents with
    | .error _ => []
    | .ok entries => bulkActions s (entries.map .component)
  | .remainingPackages =>
    match declaredPackages s.disk s.options.manifest with
    | .error _ => []
    | .ok names =>
      (s.skipReports names).map .report ++
        bulkActions (afterSkips s names)
          ((readyNames s names).map fun name => .packages [name] none)

def Request.actions (s : Session ε) (request : Request) : List Action :=
  request.work s ++
    failureReport (Call.request request).operation ((Call.request request).perform s).1

/-- Taking the actions of a request is serving it. -/
theorem follow_request (s : Session ε) (request : Request) :
    follow s (request.actions s) = ((Call.request request).perform s).2 := by
  have hall : ∀ {out : Outcome ε Answer},
      (Call.request request).perform s = Session.finish (Call.request request).operation out →
        follow s (request.work s) = out.2 →
          follow s (request.actions s) = ((Call.request request).perform s).2 := by
    intro out hperform hwork
    rw [Request.actions, hperform]
    exact follow_failureReport s _ out hwork
  cases request with
  | component entry =>
    refine hall (answered_finish ..) ?_
    exact follow_single s (.component entry)
  | components roots saveAs =>
    refine hall (answered_finish ..) ?_
    exact follow_group s roots [] saveAs
  | bundle roots names saveAs =>
    refine hall (answered_finish ..) ?_
    exact follow_group s roots names saveAs
  | package name =>
    refine hall (answered_finish ..) ?_
    exact follow_single s (.packages [name] none)
  | packages names saveAs =>
    refine hall (answered_finish ..) ?_
    exact follow_single s (.packages names saveAs)
  | remainingComponents =>
    refine hall (answered_finish ..) ?_
    cases h : s.pendingComponents with
    | error e => simp only [Request.work, h]; rfl
    | ok entries =>
      have hbulk := follow_bulk s (entries.map .component)
      rw [List.map_map] at hbulk
      simp only [Request.work, h]
      exact hbulk
  | remainingPackages =>
    refine hall (answered_finish ..) ?_
    cases h : declaredPackages s.disk s.options.manifest with
    | error e => simp only [Request.work, h]; rfl
    | ok names =>
      have hbulk := follow_bulk (afterSkips s names)
        ((readyNames s names).map fun name => .packages [name] none)
      rw [List.map_map] at hbulk
      simp only [Request.work, h, follow_append, follow_reports]
      exact hbulk

/-! ## Commands -/

def requestOf : CommandLine.Command → Option Request
  | .component entry => some (.component entry)
  | .components roots saveAs => some (.components roots saveAs)
  | .bundle roots names saveAs => some (.bundle roots names saveAs)
  | .package name => some (.package name)
  | .packages names saveAs => some (.packages names saveAs)
  | .remainingComponents => some .remainingComponents
  | .remainingPackages => some .remainingPackages
  | .all | .showConfig => none

/-- The actions of a command. Components follow on packages where these succeeded. -/
def commandActions (s : Session ε) (c : CommandLine.Command) : List Action :=
  match requestOf c with
  | some request => request.actions s
  | none =>
    if c = .all then
      Request.actions s .remainingPackages ++
        match s.remainingPackages with
        | (.error _, _) => []
        | (.ok _, s) => Request.actions s .remainingComponents
    else []

theorem shown_snd {α : Type} (task : String) (print : α → String) (out : Outcome ε α) :
    (CommandLine.shown task print out).2 = out.2 := by
  obtain ⟨result, s⟩ := out
  cases result <;> rfl

theorem run_snd_of_request {s : Session ε} {c : CommandLine.Command} {request : Request}
    (h : requestOf c = some request) : (c.run s).2 = ((Call.request request).perform s).2 := by
  cases c <;> cases h <;> simp only [CommandLine.Command.run, shown_snd, Call.perform, answered]

theorem all_snd (s : Session ε) :
    (CommandLine.Command.all.run s).2 =
      match s.remainingPackages with
      | (.error _, s) => s
      | (.ok _, s) => s.remainingComponents.2 := by
  simp only [CommandLine.Command.run]
  rcases s.remainingPackages with ⟨e | written, s'⟩
  · rfl
  · simp only [CommandLine.shown, CommandLine.Performance.andThen]
    rcases s'.remainingComponents with ⟨e | written', s''⟩ <;> rfl

/-- Taking the actions of a command is carrying it out. -/
theorem follow_command (s : Session ε) (c : CommandLine.Command) :
    follow s (commandActions s c) = (c.run s).2 := by
  unfold commandActions
  cases hr : requestOf c with
  | some request => exact (follow_request s request).trans (run_snd_of_request hr).symm
  | none =>
    cases c with
    | all =>
      have hpackages := follow_request s .remainingPackages
      simp only [Call.perform, answered] at hpackages
      rw [if_pos rfl, all_snd, follow_append, hpackages]
      rcases s.remainingPackages with ⟨e | written, s'⟩
      · rfl
      · exact follow_request s' .remainingComponents
    | showConfig => rfl
    | _ => cases hr

/-! ## What the commits register -/

def effectsAlong (s : Session ε) : List Action → List Effect
  | [] => []
  | .commit c :: rest =>
    effectOf c.root s (s.compileAndSave c.root (c.modules s)) ::
      effectsAlong (Action.apply s (.commit c)) rest
  | action :: rest => effectsAlong (action.apply s) rest

/-- The configuration after some actions has what their commits registered, and all registrations
are what they are reported to be. -/
theorem follow_config (s : Session ε) (actions : List Action) :
    (∀ effect ∈ effectsAlong s actions, effect.Faithful) ∧
      (follow s actions).config = registerAll s.config (registrations (effectsAlong s actions)) := by
  induction actions generalizing s with
  | nil => exact ⟨by simp [effectsAlong], rfl⟩
  | cons action rest ih =>
    obtain ⟨hfaithful, hconfig⟩ := ih (action.apply s)
    rw [follow_cons, hconfig]
    cases action with
    | trace expression => exact ⟨hfaithful, congrArg (registerAll · _) (trace_frame s expression).2.2⟩
    | report event => exact ⟨hfaithful, rfl⟩
    | commit c =>
      have hfirst := faithful_of_commits c.root (commits_compileAndSave s c.root (c.modules s))
      refine ⟨List.forall_mem_cons.2 ⟨hfirst, hfaithful⟩, ?_⟩
      rw [effectsAlong, registrations_cons, registerAll_append]
      exact congrArg (registerAll · _) hfirst.registration?_eq.1

end BundleLedger.Concurrency
