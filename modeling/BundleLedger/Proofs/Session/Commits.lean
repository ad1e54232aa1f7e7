import BundleLedger.Proofs.Bundle.Saving
import BundleLedger.Session.Operations

/-!
# What a commit can do

Everything that a session writes for components and packages goes through one commit: a graph is
compiled, saved and entered in the ledger. A commit has three ends (`Commits`). What is traced before
it leaves the ledger and the reports alone (`Aside`), so an operation that commits once has the same
three ends, whatever its traces were.

Results:

* `commits_compileAndSave`: the ends of a commit.
* `Commits.reports`: a commit reports no failure.
* `commits_run`, `commits_job` and `commits_groupTraced`: the ends of a pipeline, of one that was
  traced before, and of a group.
-/
namespace BundleLedger

def Event.isFailed : Event → Bool
  | .failed .. => true
  | _ => false

def Event.isOutcome : Event → Bool
  | .bundleWritten .. | .bundleSkipped _ => true
  | _ => false

theorem Event.isFailed_of_isOutcome {event : Event} (h : event.isOutcome = true) :
    event.isFailed = false := by
  cases event <;> simp_all [isOutcome, isFailed]

namespace Session

variable {ε : Type} {s s' s'' : Session ε} {out : Outcome ε (Option Target)}

/-! ## Beside the ledger -/

/-- Only files and what the engine remembers may differ. -/
def Aside (s s' : Session ε) : Prop := ∃ memory disk, s' = { s with memory, disk }

theorem Aside.refl (s : Session ε) : Aside s s := ⟨s.memory, s.disk, rfl⟩

theorem Aside.trans (h : Aside s s') (h' : Aside s' s'') : Aside s s'' := by
  obtain ⟨_, _, rfl⟩ := h
  obtain ⟨memory, disk, rfl⟩ := h'
  exact ⟨memory, disk, rfl⟩

theorem aside_trace (s : Session ε) (expression : String) : Aside s (s.trace expression).2 := by
  unfold trace
  split <;> exact ⟨_, _, rfl⟩

theorem aside_traceAll (s : Session ε) (expressions : List String) :
    Aside s (s.traceAll expressions).2 := by
  induction expressions generalizing s with
  | nil => exact .refl s
  | cons expression expressions ih => exact (aside_trace s expression).trans (ih _)

theorem aside_traceVendor (s : Session ε) (packages : List String) :
    Aside s (s.traceVendor packages).2 := by
  have h := aside_trace s (Engine.expression packages)
  unfold traceVendor
  split
  · exact .refl s
  · split <;> rename_i heq <;> rw [heq] at h <;> exact h

/-! ## Commits -/

/-- The ends of a commit: a bundle was written, entered in the ledger and reported, or there was
nothing to write and that was reported, or it failed and nothing was entered or reported. -/
inductive Commits (s : Session ε) : Outcome ε (Option Target) → Prop where
  | written (target : Target) (modules : List String) (memory : ε) (disk : Disk) :
      Commits s (.ok (some target),
        ({ s with memory, disk, config := s.config.register target.id modules } : Session ε).emit
          (.bundleWritten target.id target.path modules.length))
  | skipped (root : String) (memory : ε) (disk : Disk) :
      Commits s (.ok none, ({ s with memory, disk } : Session ε).emit (.bundleSkipped root))
  | failed (e : Failure) (memory : ε) (disk : Disk) : Commits s (.error e, { s with memory, disk })

theorem Commits.of_aside (ha : Aside s s') (h : Commits s' out) : Commits s out := by
  obtain ⟨_, _, rfl⟩ := ha
  cases h with
  | written target modules memory disk => exact .written target modules memory disk
  | skipped root memory disk => exact .skipped root memory disk
  | failed e memory disk => exact .failed e memory disk

/-- What is wrong before a commit is its end. -/
theorem Commits.of_error (ha : Aside s s') (e : Failure) : Commits s (.error e, s') := by
  obtain ⟨memory, disk, rfl⟩ := ha
  exact .failed e memory disk

theorem commits_compileAndSave (s : Session ε) (root : String) (graph : Graph) :
    Commits s (s.compileAndSave root graph) := by
  unfold compileAndSave
  split
  · exact .skipped root s.memory s.disk
  · split
    · exact .failed _ _ _
    · rename_i bundle memory disk _
      rcases Bundle.save_cases disk root bundle s.options s.config with
        h | ⟨e, disk', -, h⟩ | ⟨disk', -, h⟩ <;> rw [h]
      · exact .skipped root memory disk
      · exact .failed e memory disk'
      · exact .written (Target.forRoot root s.options) bundle.modules memory disk'

theorem Commits.options (h : Commits s out) : out.2.options = s.options := by
  cases h <;> rfl

/-- A commit reports nothing but what became of a bundle. -/
theorem Commits.reports (h : Commits s out) :
    ∃ news, out.2.events = s.events ++ news ∧ ∀ event ∈ news, event.isOutcome = true := by
  cases h with
  | written target modules memory disk => exact ⟨_, rfl, by simp [Event.isOutcome]⟩
  | skipped root memory disk => exact ⟨_, rfl, by simp [Event.isOutcome]⟩
  | failed e memory disk => exact ⟨[], (List.append_nil _).symm, by simp⟩

/-! ## Operations that commit once -/

/-- Whatever was traced, a pipeline commits it. -/
def Pipeline.IsCommit (p : Pipeline ε) : Prop := ∀ graph s, Commits s (p.commit graph s)

theorem isCommit_componentPipeline (entry : String) :
    (componentPipeline (ε := ε) entry).IsCommit :=
  fun graph s => commits_compileAndSave s _ (s.componentModules _ graph)

theorem isCommit_packagesPipeline (names : List String) (saveAs : Option String) :
    (packagesPipeline (ε := ε) names saveAs).IsCommit :=
  fun graph s => commits_compileAndSave s _ (s.packageModules names graph)

theorem commits_run {p : Pipeline ε} (hp : p.IsCommit) (s : Session ε) : Commits s (p.run s) := by
  have ha := aside_trace s p.expression
  unfold Pipeline.run
  split <;> rename_i heq <;> rw [heq] at ha
  · exact .of_error ha _
  · exact .of_aside ha (hp _ _)

theorem commits_job {job : Job ε} (hp : job.pipeline.IsCommit) (s : Session ε) :
    Commits s (job.commit s) := by
  unfold Job.commit
  split
  · exact .of_error (.refl s) _
  · exact hp _ s

def groupTraced (s : Session ε) (roots : List String) (traces : List (Except Failure Graph))
    (packages : List String) (saveAs : String) : Outcome ε (Option Target) :=
  match allTraced traces with
  | .error e => (.error e, s)
  | .ok graphs =>
    match s.traceVendor packages with
    | (.error e, s) => (.error e, s)
    | (.ok vendor, s) => commitGroup (roots.zip graphs) packages vendor saveAs s

theorem group_eq_groupTraced (s : Session ε) (components packages : List String) (saveAs : String) :
    s.group components packages saveAs =
      (s.traceAll ((components.map ComponentRoot.ofName).map ComponentRoot.entry)).2.groupTraced
        (components.map ComponentRoot.ofName)
        (s.traceAll ((components.map ComponentRoot.ofName).map ComponentRoot.entry)).1 packages
        saveAs := rfl

theorem commits_groupTraced (s : Session ε) (roots : List String)
    (traces : List (Except Failure Graph)) (packages : List String) (saveAs : String) :
    Commits s (s.groupTraced roots traces packages saveAs) := by
  have ha := aside_traceVendor s packages
  unfold groupTraced
  split
  · exact .of_error (.refl s) _
  · split <;> rename_i heq <;> rw [heq] at ha
    · exact .of_error ha _
    · exact .of_aside ha (commits_compileAndSave ..)

end Session

end BundleLedger
