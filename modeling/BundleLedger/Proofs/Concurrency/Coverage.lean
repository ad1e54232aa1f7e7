import BundleLedger.Proofs.Concurrency.Machine
import Mathlib.Algebra.BigOperators.Group.Multiset.Basic
import Mathlib.Data.List.Perm.Basic

/-!
# The session's operations are runs

The machine of `Machine` has the operations of `Session` among its runs: whatever holds of every
reachable state holds of the session after any sequence of operations. What a bulk operation does
after its traces is a list of moves (`Move`): units commit one after the other, and files may change
in between. The moves of every order are a run, and not only those of the one that `Session` chooses.

Results:

* `takeMoves_commits`: a list of commits is a list of moves.
* `takeMoves_steps`: moves are a run.
* `perform_steps`: serving a request on its own is a run.
* `reachable_perform`: a session that is reachable at rest stays so after an operation.
-/
namespace BundleLedger.Concurrency

open Session

variable {ε : Type}

/-- The session after a request was served with nothing else under way. -/
def Request.perform (s : Session ε) : Request → Session ε
  | .component entry => (s.component entry).2
  | .components roots saveAs => (Session.components s roots saveAs).2
  | .bundle roots names saveAs => (Session.bundle s roots names saveAs).2
  | .package name => (Session.package s name).2
  | .packages names saveAs => (Session.packages s names saveAs).2
  | .remainingComponents => s.remainingComponents.2
  | .remainingPackages => s.remainingPackages.2

/-- A failure of an operation is reported in between. -/
theorem finish_steps {α : Type} (operation : String) (out : Outcome ε α) (lock : Lock)
    (tasks : Multiset Task) :
    Steps ⟨out.2, lock, tasks⟩ ⟨(Session.finish operation out).2, lock, tasks⟩ := by
  obtain ⟨result, s⟩ := out
  cases result with
  | ok a => exact .refl
  | error e =>
    show Steps ⟨s, lock, tasks⟩ ⟨s.emit (.failed operation e.message), lock, tasks⟩
    exact .single (.outside s lock tasks s.memory s.disk _)

/-! ## One commit -/

theorem compiled_steps (s : Session ε) (root : String) (graph : Graph) (tasks : Multiset Task) :
    Steps ⟨(compiled s root graph).1, (compiled s root graph).2, tasks⟩
      ⟨match compiled s root graph with
        | (s, .saving root bundle) => saved s root bundle
        | (s, _) => s, .free, tasks⟩ := by
  unfold compiled
  split
  · exact .refl
  · exact .single (.save _ _ _ _)

/-- Taking the lock, compiling and saving is what `compileAndSave` does. -/
theorem commit_steps (s : Session ε) (commit : Commit) (tasks : Multiset Task) :
    Steps ⟨s, .free, .waiting commit ::ₘ tasks⟩
      ⟨(s.compileAndSave commit.root (commit.modules s)).2, .free, tasks⟩ := by
  refine .head (.acquire s commit tasks) ?_
  rw [compileAndSave_eq]
  cases hg : commit.modules s with
  | nil => exact .single (.skip s commit.root tasks)
  | cons e graph =>
    rw [if_neg (by simp)]
    exact .head (.compile s commit.root (e :: graph) tasks (by simp)) (compiled_steps ..)

/-! ## Singles -/

theorem Single.pipeline_expression (single : Single) :
    (single.pipeline (ε := ε)).expression = single.expression := by
  cases single <;> rfl

theorem Single.pipeline_commit (single : Single) (graph : Graph) (s : Session ε) :
    single.pipeline.commit graph s =
      s.compileAndSave (single.commit graph).root ((single.commit graph).modules s) := by
  cases single <;> rfl

theorem single_steps (s : Session ε) (single : Single) (tasks : Multiset Task) :
    Steps ⟨s, .free, .tracing single ::ₘ tasks⟩ ⟨(single.pipeline.run s).2, .free, tasks⟩ := by
  refine .head (.trace s .free single tasks) ?_
  unfold Pipeline.run
  rw [Single.pipeline_expression]
  split
  · rename_i e s' heq
    simp only [heq, Single.next, zero_add]
    exact .refl
  · rename_i graph s' heq
    simp only [heq, Single.next, Multiset.singleton_add]
    rw [Single.pipeline_commit]
    exact commit_steps s' (single.commit graph) tasks

/-! ## Groups -/

/-- The components of a group are traced from left to right; `done` are those that already are. -/
theorem slots_steps (s : Session ε) (lock : Lock) (done : List (String × Except Failure Graph))
    (roots packages : List String) (saveAs : String) (tasks : Multiset Task) :
    Steps
      ⟨s, lock, .gathering (done.map (fun t => (t.1, some t.2)) ++ roots.map (·, none)) packages
        saveAs ::ₘ tasks⟩
      ⟨(s.traceAll (roots.map ComponentRoot.entry)).2, lock,
        .gathering ((done ++ roots.zip (s.traceAll (roots.map ComponentRoot.entry)).1).map
          fun t => (t.1, some t.2)) packages saveAs ::ₘ tasks⟩ := by
  induction roots generalizing s done with
  | nil =>
    simp only [List.map_nil, List.append_nil, List.zip_nil_left, traceAll]
    exact .refl
  | cons root roots ih =>
    refine .head (.slot s lock _ _ root packages saveAs tasks) ?_
    have h := ih (s.trace (ComponentRoot.entry root)).2
      (done ++ [(root, (s.trace (ComponentRoot.entry root)).1)])
    simpa [traceAll] using h

theorem group_steps (s : Session ε) (components packages : List String) (saveAs : String)
    (tasks : Multiset Task) :
    Steps ⟨s, .free, group components packages saveAs ::ₘ tasks⟩
      ⟨(s.group components packages saveAs).2, .free, tasks⟩ := by
  have hslots := slots_steps s .free [] (components.map ComponentRoot.ofName) packages saveAs tasks
  simp only [List.map_nil, List.nil_append, List.map_map, Function.comp_def] at hslots
  refine hslots.trans ?_
  unfold Session.group
  dsimp only
  simp only [List.map_map, Function.comp_def]
  generalize hr : s.traceAll (components.map fun c => ComponentRoot.entry (ComponentRoot.ofName c)) = r
  have hlen : r.1.length = components.length := by
    rw [← hr, length_traceAll, List.length_map]
  refine .head (.gather r.2 .free _ packages saveAs tasks) ?_
  unfold gathered
  rw [List.map_snd_zip (by simp [hlen]), List.map_fst_zip (by simp [hlen])]
  cases allTraced r.1 with
  | error e =>
    simp only [zero_add]
    exact .refl
  | ok graphs =>
    rcases r.2.traceVendor packages with ⟨e | vendor, s'⟩
    · simp only [zero_add]
      exact .refl
    · simp only [Multiset.singleton_add]
      exact commit_steps s' (.group _ packages vendor saveAs) tasks

/-! ## Moves -/

/-- What happens after the traces of a bulk operation: a unit gets the lock and commits, or files and
what the engine remembers change. -/
inductive Move (ε : Type) where
  | commit (job : Job ε)
  | outside (memory : ε) (disk : Disk)

def jobs : List (Move ε) → List (Job ε)
  | [] => []
  | .commit job :: moves => job :: jobs moves
  | .outside _ _ :: moves => jobs moves

/-- The outcomes of the units in the order of their commits, and the session after them. -/
def takeMoves (s : Session ε) : List (Move ε) → List Settled × Session ε
  | [] => ([], s)
  | .commit job :: moves =>
    let (result, s) := job.commit s
    let (results, s) := takeMoves s moves
    ((job.position, result) :: results, s)
  | .outside memory disk :: moves => takeMoves { s with memory, disk } moves

/-- Committing jobs one after the other is the run in which nothing happens in between. -/
theorem takeMoves_commits (s : Session ε) (order : List (Job ε)) :
    takeMoves s (order.map .commit) = s.commitAll order ∧
      jobs (order.map .commit) = order := by
  induction order generalizing s with
  | nil => exact ⟨rfl, rfl⟩
  | cons job order ih =>
    obtain ⟨hrun, hjobs⟩ := ih (job.commit s).2
    simp only [List.map_cons, takeMoves, commitAll, jobs, hrun, hjobs, and_self]

/-! ## Bulk operations -/

/-- What is left of some singles after their traces. -/
def waitingAfter (traced : List (Single × Except Failure Graph)) : Multiset Task :=
  (traced.map fun t => t.1.next t.2).sum

theorem traceAll_steps (s : Session ε) (lock : Lock) (units : List Single) (tasks : Multiset Task) :
    Steps ⟨s, lock, (units.map Task.tracing : List Task) + tasks⟩
      ⟨(s.traceAll (units.map Single.expression)).2, lock,
        waitingAfter (units.zip (s.traceAll (units.map Single.expression)).1) + tasks⟩ := by
  induction units generalizing s tasks with
  | nil => exact .refl
  | cons u units ih =>
    simp only [List.map_cons, ← Multiset.cons_coe, Multiset.cons_add]
    refine .head (.trace s lock u _) ?_
    have h := ih (s.trace u.expression).2 (u.next (s.trace u.expression).1 + tasks)
    rw [add_left_comm]
    simpa [traceAll, waitingAfter, add_left_comm, add_assoc] using h

/-- A job that commits what a single traced. -/
def Serves (job : Job ε) (traced : Single × Except Failure Graph) : Prop :=
  job.pipeline = traced.1.pipeline ∧ job.traced = traced.2

theorem job_steps {job : Job ε} {traced : Single × Except Failure Graph} (h : Serves job traced)
    (s : Session ε) (tasks : Multiset Task) :
    Steps ⟨s, .free, traced.1.next traced.2 + tasks⟩ ⟨(job.commit s).2, .free, tasks⟩ := by
  obtain ⟨hp, ht⟩ := h
  unfold Job.commit
  rw [ht]
  cases traced.2 with
  | error e =>
    simp only [Single.next, zero_add]
    exact .refl
  | ok graph =>
    simp only [Single.next, Multiset.singleton_add]
    rw [hp, Single.pipeline_commit]
    exact commit_steps s (traced.1.commit graph) tasks

/-- Moves are a run of the machine. -/
theorem takeMoves_steps {moves : List (Move ε)} {traced : List (Single × Except Failure Graph)}
    (h : List.Forall₂ Serves (jobs moves) traced) (s : Session ε) (tasks : Multiset Task) :
    Steps ⟨s, .free, waitingAfter traced + tasks⟩ ⟨(takeMoves s moves).2, .free, tasks⟩ := by
  induction moves generalizing s traced with
  | nil =>
    rw [List.forall₂_nil_left_iff.1 h]
    simp only [waitingAfter, List.map_nil, List.sum_nil, zero_add]
    exact .refl
  | cons move moves ih =>
    cases move with
    | outside memory disk => exact .head (.outside s .free _ memory disk s.events) (ih h _)
    | commit job =>
      obtain ⟨t, traced, hj, hrest, rfl⟩ := List.forall₂_cons_left_iff.1 h
      simp only [waitingAfter, List.map_cons, List.sum_cons, add_assoc]
      exact (job_steps hj s _).trans (ih hrest _)

theorem serves_jobsOf (units : List Single) (graphs : List (Except Failure Graph)) :
    List.Forall₂ Serves (jobsOf (units.map (Single.pipeline (ε := ε))) graphs) (units.zip graphs) := by
  rw [List.forall₂_iff_get]
  refine ⟨by simp [jobsOf], ?_⟩
  intro i h₁ h₂
  simp [jobsOf, Serves]

/-- The units of a bulk operation may commit in any order, and files may change in between. -/
theorem takeMoves_perm_steps {units : List Single} {graphs : List (Except Failure Graph)}
    {moves : List (Move ε)} (h : (jobs moves).Perm (jobsOf (units.map Single.pipeline) graphs))
    (s : Session ε) (tasks : Multiset Task) :
    Steps ⟨s, .free, waitingAfter (units.zip graphs) + tasks⟩
      ⟨(takeMoves s moves).2, .free, tasks⟩ := by
  obtain ⟨traced, hs, hp⟩ := List.perm_comp_forall₂ h (serves_jobsOf units graphs)
  have he : waitingAfter (units.zip graphs) = waitingAfter traced :=
    (hp.symm.map _).sum_eq
  rw [he]
  exact takeMoves_steps hs s tasks

/-- Running the pipelines of some units, after their traces. -/
theorem runAll_of_traceAll {s s' : Session ε} {units : List Single}
    {graphs : List (Except Failure Graph)}
    (h : s.traceAll (units.map Single.expression) = (graphs, s')) :
    s.runAll (units.map Single.pipeline) =
      (report (s'.commitAll (s'.commitOrder (jobsOf (units.map Single.pipeline) graphs))).1,
        (s'.commitAll (s'.commitOrder (jobsOf (units.map Single.pipeline) graphs))).2) := by
  have hexpressions : (units.map (Single.pipeline (ε := ε))).map (·.expression) =
      units.map Single.expression := by
    simp [Single.pipeline_expression]
  unfold runAll
  rw [hexpressions, h]

theorem runAll_steps (s : Session ε) (units : List Single) (tasks : Multiset Task) :
    Steps ⟨s, .free, (units.map Task.tracing : List Task) + tasks⟩
      ⟨(s.runAll (units.map Single.pipeline)).2, .free, tasks⟩ := by
  refine (traceAll_steps s .free units tasks).trans ?_
  rw [runAll_of_traceAll rfl]
  generalize horder : commitOrder _ _ = order
  obtain ⟨hrun, hjobs⟩ := takeMoves_commits (s.traceAll (units.map Single.expression)).2 order
  rw [← hrun]
  refine takeMoves_perm_steps ?_ _ tasks
  rw [hjobs, ← horder]
  exact List.mergeSort_perm _ _

theorem remainingComponents_steps (s : Session ε) (tasks : Multiset Task) :
    Steps ⟨s, .free, ((pendingComponentUnits s).map Task.tracing : List Task) + tasks⟩
      ⟨s.remainingComponents.2, .free, tasks⟩ := by
  refine .trans ?_ (finish_steps ..)
  unfold pendingComponentUnits
  cases s.pendingComponents with
  | error e =>
    simp only [List.map_nil, Multiset.coe_nil, zero_add]
    exact .refl
  | ok entries =>
    have h := runAll_steps s (entries.map .component) tasks
    simp only [List.map_map] at h ⊢
    exact h

theorem remainingPackages_steps (s : Session ε) (tasks : Multiset Task) :
    Steps ⟨s, .free, ((readyPackageUnits s).map Task.tracing : List Task) + tasks⟩
      ⟨s.remainingPackages.2, .free, tasks⟩ := by
  refine .trans ?_ (finish_steps ..)
  unfold readyPackageUnits
  cases declaredPackages s.disk s.options.manifest with
  | error e =>
    simp only [List.map_nil, Multiset.coe_nil, zero_add]
    exact .refl
  | ok names =>
    dsimp only
    refine .head (.outside s .free _ s.memory s.disk (s.events ++ s.skipReports names)) ?_
    have h := runAll_steps { s with events := s.events ++ s.skipReports names }
      ((names.filter fun name => s.readiness name = .ready).map fun name => .packages [name] none)
      tasks
    simp only [List.map_map] at h ⊢
    exact h

/-! ## Requests -/

/-- Serving a request on its own is a run. -/
theorem perform_steps (s : Session ε) (request : Request) (tasks : Multiset Task) :
    Steps ⟨s, .free, .called request ::ₘ tasks⟩ ⟨request.perform s, .free, tasks⟩ := by
  refine .head (.start s .free request tasks fun _ => rfl) ?_
  cases request with
  | component entry => exact (single_steps s (.component entry) tasks).trans (finish_steps ..)
  | components roots saveAs => exact (group_steps s roots [] saveAs tasks).trans (finish_steps ..)
  | bundle roots names saveAs => exact (group_steps s roots names saveAs tasks).trans (finish_steps ..)
  | package name => exact (single_steps s (.packages [name] none) tasks).trans (finish_steps ..)
  | packages names saveAs => exact (single_steps s (.packages names saveAs) tasks).trans (finish_steps ..)
  | remainingComponents => exact remainingComponents_steps s tasks
  | remainingPackages => exact remainingPackages_steps s tasks

theorem Reachable.steps {s₀ : Session ε} {st st' : State ε} (h : Reachable s₀ st)
    (hs : Steps st st') : Reachable s₀ st' := by
  induction hs with
  | refl => exact h
  | tail _ hstep ih => exact ih.step _ _ hstep

theorem reachable_perform {s₀ s : Session ε} (h : Reachable s₀ ⟨s, .free, 0⟩) (request : Request) :
    Reachable s₀ ⟨request.perform s, .free, 0⟩ :=
  (h.call _ request).steps (perform_steps s request 0)

/-- A session at rest in which a single is asked for gets to its compilation when the trace
succeeds. -/
theorem Reachable.compiling {s₀ s s' : Session ε} (h : Reachable s₀ ⟨s, .free, 0⟩)
    (request : Request) (single : Single) (hr : request.tasks s = {.tracing single})
    {graph : Graph} (ht : s.trace single.expression = (.ok graph, s')) :
    Reachable s₀
      ⟨s', .compiling (single.commit graph).root ((single.commit graph).modules s'), 0⟩ := by
  refine (h.call _ request).steps (.head (.start s .free request 0 fun _ => rfl) ?_)
  rw [hr]
  refine .head (.trace s .free single 0) ?_
  rw [ht]
  exact .single (.acquire s' (single.commit graph) 0)

end BundleLedger.Concurrency
