import BundleLedger.Proofs.Concurrency.Isolation
import BundleLedger.Proofs.KeyedAnswers
import BundleLedger.Proofs.Session.Commits

/-!
# What is reported of a call

A call is served with no other under way, and what it reports is compared with what it did. What it
did is recorded unit by unit (`Effect`): the outcome of the unit, the ledger before and after its
commit, and what was reported in between. A registration is read off the ledger and not off the
report: it is what the ledger says for the id of the target right after the commit.

All that a run leaves open is left open here (`Runs`). The components of a group are traced with any
outcomes; so are the units of a bulk call, which then commit in any order, and between two commits
files and what the engine remembers may change.

Results:

* `faithful_of_commits`: one commit reports what it did.
* `takeMoves_log`: so does every run of units, by induction on the run.
* `ends_logged`: the reports of a call that ends in any of the ways that are left open.
* `call_logged`: among them is the way of the session's own operations.
-/
namespace BundleLedger.Concurrency

open Session

variable {ε : Type}

/-! ## Calls -/

/-- What a session can be asked to do that it reports about. -/
inductive Call where
  | request (request : Request)
  | saveConfig
  deriving DecidableEq, Repr

/-- The name under which the failure of a call is reported. -/
def Call.operation : Call → String
  | .request (.component _) => "bundle_component"
  | .request (.components _ _) => "bundle_components"
  | .request (.bundle _ _ _) => "bundle"
  | .request (.package _) => "bundle_package"
  | .request (.packages _ _) => "bundle_packages"
  | .request .remainingComponents => "bundle_remaining_components"
  | .request .remainingPackages => "bundle_remaining_packages"
  | .saveConfig => "save_config"

/-- What a call gives when it succeeds. -/
inductive Answer where
  | target (written : Option Target)
  | targets (written : List Target)
  | path (path : String)
  deriving DecidableEq, Repr

def answered {α : Type} (answer : α → Answer) (out : Outcome ε α) : Outcome ε Answer :=
  (out.1.map answer, out.2)

def Call.perform (s : Session ε) : Call → Outcome ε Answer
  | .request (.component entry) => answered .target (s.component entry)
  | .request (.components roots saveAs) => answered .target (s.components roots saveAs)
  | .request (.bundle roots names saveAs) => answered .target (s.bundle roots names saveAs)
  | .request (.package name) => answered .target (s.package name)
  | .request (.packages names saveAs) => answered .target (s.packages names saveAs)
  | .request .remainingComponents => answered .targets s.remainingComponents
  | .request .remainingPackages => answered .targets s.remainingPackages
  | .saveConfig => answered .path s.saveConfig

def Request.single? : Request → Option Single
  | .component entry => some (.component entry)
  | .package name => some (.packages [name] none)
  | .packages names saveAs => some (.packages names saveAs)
  | _ => none

def Request.group? : Request → Option (List String × List String × String)
  | .components roots saveAs => some (roots, [], saveAs)
  | .bundle roots names saveAs => some (roots, names, saveAs)
  | _ => none

/-! ## Effects -/

/-- What a unit did when it committed. -/
structure Effect where
  /-- What the unit traces; the name of the bundle for a group. -/
  unit : String
  outcome : Except Failure (Option Target)
  /-- The configuration before the commit. -/
  before : LoaderConfig
  /-- The configuration after the commit. -/
  after : LoaderConfig
  /-- What was reported meanwhile. -/
  reports : List Event

/-- The effect of a unit that starts in `s` and ends in `out`. -/
def effectOf (unit : String) (s : Session ε) (out : Outcome ε (Option Target)) : Effect where
  unit := unit
  outcome := out.1
  before := s.config
  after := out.2.config
  reports := out.2.events.drop s.events.length

/-- The id that a unit registered, with the modules that the ledger lists for it afterwards. -/
def Effect.registration? (effect : Effect) : Option (String × List String) :=
  match effect.outcome with
  | .ok (some target) => (Entries.get? effect.after.bundles target.id).map (target.id, ·)
  | _ => none

/-- A unit that writes registers what it reports and reports what it registers. Every other unit
leaves the configuration as it is, and reports that it skipped its bundle, or failed in silence. -/
def Effect.Faithful (effect : Effect) : Prop :=
  match effect.outcome with
  | .ok (some target) => ∃ modules,
      effect.after = effect.before.register target.id modules ∧
        effect.reports = [.bundleWritten target.id target.path modules.length]
  | .ok none => effect.after = effect.before ∧ ∃ root, effect.reports = [.bundleSkipped root]
  | .error _ => effect.after = effect.before ∧ effect.reports = []

def registrations (effects : List Effect) : List (String × List String) :=
  effects.filterMap Effect.registration?

def registerAll (c : LoaderConfig) (entries : List (String × List String)) : LoaderConfig :=
  entries.foldl (fun c entry => c.register entry.1 entry.2) c

/-- The id and the number of modules of a bundle that an event reports as written. -/
def written? : Event → Option (String × Nat)
  | .bundleWritten id _ modules => some (id, modules)
  | _ => none

/-- Whether an event reports that the package `name` is skipped. -/
def isSkipOf (name : String) : Event → Bool
  | .packageSkipped skipped _ => skipped == name
  | _ => false

def effects (s : Session ε) : List (Move ε) → List Effect
  | [] => []
  | .commit job :: moves =>
    effectOf job.pipeline.expression s (job.commit s) :: effects (job.commit s).2 moves
  | .outside memory disk :: moves => effects { s with memory, disk } moves

/-! ## One commit -/

theorem faithful_of_commits {s : Session ε} {out : Outcome ε (Option Target)} (unit : String)
    (h : Commits s out) : (effectOf unit s out).Faithful := by
  cases h with
  | written target modules memory disk =>
    exact ⟨modules, rfl, by simp [effectOf, Session.emit]⟩
  | skipped root memory disk => exact ⟨rfl, root, by simp [effectOf, Session.emit]⟩
  | failed e memory disk => exact ⟨rfl, by simp [effectOf]⟩

theorem events_of_commits {s : Session ε} {out : Outcome ε (Option Target)} (unit : String)
    (h : Commits s out) : out.2.events = s.events ++ (effectOf unit s out).reports := by
  obtain ⟨news, hnews, -⟩ := h.reports
  simp [effectOf, hnews]

namespace Effect.Faithful

variable {effect : Effect}

theorem registration?_eq (h : effect.Faithful) :
    effect.after = registerAll effect.before effect.registration?.toList ∧
      effect.reports.filterMap written? =
        effect.registration?.toList.map fun entry => (entry.1, entry.2.length) := by
  unfold Faithful at h
  unfold registration?
  rcases hout : effect.outcome with e | _ | target <;> rw [hout] at h
  · exact ⟨h.1, by simp [h.2]⟩
  · obtain ⟨hafter, root, hreports⟩ := h
    exact ⟨hafter, by simp [hreports, written?]⟩
  · obtain ⟨modules, hafter, hreports⟩ := h
    have hlisted : Entries.get? effect.after.bundles target.id = some modules := by
      rw [hafter, LoaderConfig.get?_bundles_register, if_pos rfl]
    simp only [hlisted, Option.map_some, Option.toList_some]
    exact ⟨hafter, by simp [hreports, written?]⟩

theorem isOutcome (h : effect.Faithful) : ∀ event ∈ effect.reports, event.isOutcome = true := by
  unfold Faithful at h
  rcases hout : effect.outcome with e | _ | target <;> rw [hout] at h
  · simp [h.2]
  · obtain ⟨-, root, hreports⟩ := h
    simp [hreports, Event.isOutcome]
  · obtain ⟨modules, -, hreports⟩ := h
    simp [hreports, Event.isOutcome]

theorem countP_isOutcome (h : effect.Faithful) (hok : effect.outcome.toBool = true) :
    effect.reports.countP Event.isOutcome = 1 := by
  unfold Faithful at h
  rcases hout : effect.outcome with e | _ | target <;> rw [hout] at h hok
  · cases hok
  · obtain ⟨-, root, hreports⟩ := h
    rw [hreports]
    rfl
  · obtain ⟨modules, -, hreports⟩ := h
    rw [hreports]
    rfl

end Effect.Faithful

/-! ## Runs of units -/

theorem registrations_cons (effect : Effect) (rest : List Effect) :
    registrations (effect :: rest) = effect.registration?.toList ++ registrations rest := by
  unfold registrations
  rw [List.filterMap_cons]
  cases effect.registration? <;> rfl

theorem registerAll_append (c : LoaderConfig) (first later : List (String × List String)) :
    registerAll c (first ++ later) = registerAll (registerAll c first) later :=
  List.foldl_append

/-- What the units of a run report and enter in the ledger, in the order of their commits. -/
structure UnitsLogged (s s' : Session ε) (effects : List Effect) : Prop where
  faithful : ∀ effect ∈ effects, effect.Faithful
  events : s'.events = s.events ++ effects.flatMap (·.reports)
  config : s'.config = registerAll s.config (registrations effects)

theorem unitsLogged_single {s s₁ : Session ε} {out : Outcome ε (Option Target)} (unit : String)
    (ha : Aside s s₁) (h : Commits s₁ out) : UnitsLogged s out.2 [effectOf unit s₁ out] := by
  obtain ⟨_, _, rfl⟩ := ha
  have hfaithful := faithful_of_commits unit h
  refine ⟨by simpa using hfaithful, by simpa using events_of_commits unit h, ?_⟩
  rw [registrations_cons]
  exact hfaithful.registration?_eq.1.trans (by simp [registrations, effectOf])

theorem takeMoves_log {s : Session ε} {moves : List (Move ε)}
    (h : ∀ job ∈ jobs moves, job.pipeline.IsCommit) :
    UnitsLogged s (takeMoves s moves).2 (effects s moves) := by
  induction moves generalizing s with
  | nil => exact ⟨by simp [effects], by simp [takeMoves, effects], rfl⟩
  | cons move moves ih =>
    cases move with
    | outside memory disk =>
      obtain ⟨hfaithful, hevents, hconfig⟩ := ih (s := { s with memory, disk }) h
      exact ⟨hfaithful, hevents, hconfig⟩
    | commit job =>
      obtain ⟨hp, hrest⟩ := List.forall_mem_cons.1 h
      obtain ⟨hfaithful, hevents, hconfig⟩ := ih (s := (job.commit s).2) hrest
      have hone := commits_job hp s
      have hfirst := faithful_of_commits job.pipeline.expression hone
      refine ⟨List.forall_mem_cons.2 ⟨hfirst, hfaithful⟩, ?_, ?_⟩
      · simp only [takeMoves, effects, List.flatMap_cons]
        rw [hevents, events_of_commits job.pipeline.expression hone, List.append_assoc]
      · simp only [takeMoves, effects, registrations_cons]
        rw [hconfig, registerAll_append]
        exact congrArg (registerAll · _) hfirst.registration?_eq.1

namespace UnitsLogged

variable {s s' : Session ε} {units : List Effect}

theorem isOutcome (h : UnitsLogged s s' units) :
    ∀ event ∈ units.flatMap (·.reports), event.isOutcome = true := by
  intro event hevent
  obtain ⟨effect, heffect, hevent⟩ := List.mem_flatMap.1 hevent
  exact (h.faithful effect heffect).isOutcome event hevent

end UnitsLogged

/-! ## Declared packages -/

/-- The session after the reports about declared packages that cannot be bundled. -/
def afterSkips (s : Session ε) (names : List String) : Session ε :=
  { s with events := s.events ++ s.skipReports names }

def readyNames (s : Session ε) (names : List String) : List String :=
  names.filter fun name => s.readiness name = .ready

/-- A declared package has its bundle on the ledger, or one report says that it is skipped, or it is
one of the units; no two of these. -/
def DealtWith (s : Session ε) (units : List Effect) (news : List Event) (name : String) : Prop :=
  let skips := news.countP (isSkipOf name)
  let commits := units.countP fun effect => effect.unit = name
  s.hasBundleFor name = true ∧ skips = 0 ∧ commits = 0 ∨
    s.hasBundleFor name = false ∧ skips = 1 ∧ commits = 0 ∨
    s.hasBundleFor name = false ∧ skips = 0 ∧ commits = 1

/-- Whether a package cannot be bundled. -/
def isSkipped : Readiness → Bool
  | .skipped _ => true
  | _ => false

theorem mem_skipReports {s : Session ε} {names : List String} {event : Event}
    (h : event ∈ s.skipReports names) : ∃ name reason, event = .packageSkipped name reason := by
  obtain ⟨name, -, h⟩ := List.mem_filterMap.1 h
  split at h
  · cases h
    exact ⟨_, _, rfl⟩
  · cases h

theorem countP_skipReports (s : Session ε) (names : List String) (name : String) :
    (s.skipReports names).countP (isSkipOf name) =
      if isSkipped (s.readiness name) then names.count name else 0 := by
  have hcount : (s.skipReports names).countP (isSkipOf name) =
      names.countP fun n => n == name && isSkipped (s.readiness n) := by
    rw [skipReports, List.countP_filterMap]
    refine List.countP_congr fun n _ => ?_
    cases s.readiness n <;> simp [isSkipOf, isSkipped]
  rw [hcount]
  split
  · rename_i h
    refine List.countP_congr fun n _ => ?_
    simp only [Bool.and_eq_true, beq_iff_eq, and_iff_left_iff_imp]
    exact fun heq => heq ▸ h
  · rename_i h
    refine List.countP_eq_zero.2 fun n _ => ?_
    simp only [Bool.and_eq_true, beq_iff_eq, not_and]
    exact fun heq => heq ▸ h

theorem map_unit_effects (s : Session ε) (moves : List (Move ε)) :
    (effects s moves).map (·.unit) = (jobs moves).map (·.pipeline.expression) := by
  induction moves generalizing s with
  | nil => rfl
  | cons move moves ih =>
    cases move with
    | outside memory disk => exact ih _
    | commit job => simp only [effects, jobs, List.map_cons, ih, effectOf]

theorem map_expression_jobsOf {pipelines : List (Pipeline ε)}
    {graphs : List (Except Failure Graph)} (h : graphs.length = pipelines.length) :
    (jobsOf pipelines graphs).map (·.pipeline.expression) = pipelines.map (·.expression) := by
  have hfst : (fun job : Job ε => job.pipeline.expression) ∘
      (fun p : (Pipeline ε × Except Failure Graph) × Nat => ⟨p.2, p.1.1, p.1.2⟩) =
        (fun p : Pipeline ε × Except Failure Graph => p.1.expression) ∘ Prod.fst := rfl
  rw [jobsOf, List.map_map, hfst, ← List.map_map, List.zipIdx_map_fst]
  rw [show (fun p : Pipeline ε × Except Failure Graph => p.1.expression) =
    (fun p : Pipeline ε => p.expression) ∘ Prod.fst from rfl, ← List.map_map,
    List.map_fst_zip (Nat.le_of_eq h.symm)]

/-- The units of a bulk call for packages are the ready ones, each as often as it is declared. -/
theorem countP_unit {s s₁ : Session ε} {names : List String} {graphs : List (Except Failure Graph)}
    {moves : List (Move ε)} (hl : graphs.length = (readyNames s names).length)
    (hm : (jobs moves).Perm
      (jobsOf ((readyNames s names).map fun name => packagesPipeline [name] none) graphs))
    (name : String) :
    (effects s₁ moves).countP (fun effect => effect.unit = name) =
      if s.readiness name = .ready then names.count name else 0 := by
  have hexpressions : ((readyNames s names).map fun name => packagesPipeline (ε := ε) [name] none).map
      (·.expression) = readyNames s names := by
    rw [List.map_map]
    exact (List.map_congr_left fun name _ => Engine.expression_singleton name).trans
      (List.map_id' _)
  have hunits : ((effects s₁ moves).map (·.unit)).Perm (readyNames s names) := by
    rw [map_unit_effects]
    refine (hm.map _).trans ?_
    rw [map_expression_jobsOf (by simpa using hl), hexpressions]
  have hcount : (effects s₁ moves).countP (fun effect => effect.unit = name) =
      (readyNames s names).count name := by
    rw [← hunits.count_eq, List.count, List.countP_map]
    exact List.countP_congr fun effect _ => by simp
  rw [hcount]
  split
  · rename_i h
    exact List.count_filter (by simpa using h)
  · rename_i h
    exact List.count_eq_zero.2 fun hmem => h (by simpa using (List.mem_filter.1 hmem).2)

/-! ## The work of a call -/

/-- The work of a call, up to the report of its failure. -/
inductive Runs (s : Session ε) : Call → Outcome ε Answer → List Effect → Prop where
  /-- One expression is traced and committed. -/
  | single (request : Request) (single : Single) (h : request.single? = some single) :
      Runs s (.request request) (answered .target (single.pipeline.run s))
        [effectOf single.expression s (single.pipeline.run s)]
  /-- The components of a group are traced; then its packages, and both are committed at once. -/
  | group (request : Request) (roots packages : List String) (saveAs : String)
      (h : request.group? = some (roots, packages, saveAs)) (s₁ : Session ε) (ha : Aside s s₁)
      (traces : List (Except Failure Graph)) (hl : traces.length = roots.length) :
      Runs s (.request request)
        (answered .target (s₁.groupTraced (roots.map ComponentRoot.ofName) traces packages saveAs))
        [effectOf saveAs s₁ (s₁.groupTraced (roots.map ComponentRoot.ofName) traces packages saveAs)]
  /-- The components that have no bundle cannot be found out. -/
  | undiscovered (e : Failure) (h : s.pendingComponents = .error e) :
      Runs s (.request .remainingComponents) (.error e, s) []
  /-- The components that have no bundle are traced and commit in any order. -/
  | components (entries : List String) (h : s.pendingComponents = .ok entries)
      (graphs : List (Except Failure Graph)) (hl : graphs.length = entries.length)
      (moves : List (Move ε)) (hm : (jobs moves).Perm (jobsOf (entries.map componentPipeline) graphs)) :
      Runs s (.request .remainingComponents)
        (answered .targets (report (takeMoves s moves).1, (takeMoves s moves).2)) (effects s moves)
  /-- The manifest cannot be read. -/
  | undeclared (e : ManifestFailure) (h : declaredPackages s.disk s.options.manifest = .error e) :
      Runs s (.request .remainingPackages) (.error (.manifest e), s) []
  /-- The declared packages that cannot be bundled are reported, and those that are ready are traced
  and commit in any order. -/
  | packages (names : List String) (h : declaredPackages s.disk s.options.manifest = .ok names)
      (graphs : List (Except Failure Graph)) (hl : graphs.length = (readyNames s names).length)
      (moves : List (Move ε))
      (hm : (jobs moves).Perm
        (jobsOf ((readyNames s names).map fun name => packagesPipeline [name] none) graphs)) :
      Runs s (.request .remainingPackages)
        (answered .targets (report (takeMoves (afterSkips s names) moves).1,
          (takeMoves (afterSkips s names) moves).2)) (effects (afterSkips s names) moves)
  /-- The configuration is written. -/
  | saved (disk : Disk) (h : s.disk.write s.options.systemJsConfig s.render = (.ok (), disk)) :
      Runs s .saveConfig (.ok (.path s.options.systemJsConfig),
        ({ s with disk } : Session ε).emit (.configSaved s.options.systemJsConfig)) []
  /-- The configuration cannot be written. -/
  | unsaved (e : OsError) (disk : Disk)
      (h : s.disk.write s.options.systemJsConfig s.render = (.error e, disk)) :
      Runs s .saveConfig
        (.error (.config (.io s.options.systemJsConfig e.message)), { s with disk }) []

/-- How a call ends: a failure of its work is reported last. -/
def Ends (s : Session ε) (call : Call) (out : Outcome ε Answer) (units : List Effect) : Prop :=
  ∃ inner, Runs s call inner units ∧ out = Session.finish call.operation inner

/-- What the work of a call reports and enters in the ledger: nothing else than its units do, but for
reports that are about no bundle and no failure. -/
structure Worked (s s' : Session ε) (units : List Effect) (news : List Event) : Prop where
  events : s'.events = s.events ++ news
  unfailed : ∀ event ∈ news, event.isFailed = false
  faithful : ∀ effect ∈ units, effect.Faithful
  outcomes : news.filter Event.isOutcome = units.flatMap (·.reports)
  config : s'.config = registerAll s.config (registrations units)

theorem worked_of_units {s s' : Session ε} {units : List Effect} {notes : List Event}
    (hnotes : ∀ event ∈ notes, event.isFailed = false ∧ event.isOutcome = false)
    (h : UnitsLogged { s with events := s.events ++ notes } s' units) :
    Worked s s' units (notes ++ units.flatMap (·.reports)) := by
  refine ⟨by simpa using h.events, ?_, h.faithful, ?_, h.config⟩
  · intro event hevent
    rcases List.mem_append.1 hevent with hevent | hevent
    · exact (hnotes event hevent).1
    · exact Event.isFailed_of_isOutcome (h.isOutcome event hevent)
  · rw [List.filter_append, List.filter_eq_self.2 h.isOutcome,
      List.filter_eq_nil_iff.2 fun event hevent => by simp [(hnotes event hevent).2], List.nil_append]

theorem UnitsLogged.worked {s s' : Session ε} {units : List Effect} (h : UnitsLogged s s' units) :
    Worked s s' units (units.flatMap (·.reports)) := by
  show Worked s s' units ([] ++ units.flatMap (·.reports))
  refine worked_of_units (by simp) ?_
  rw [List.append_nil]
  exact h

theorem worked_idle {s s' : Session ε} {notes : List Event}
    (hnotes : ∀ event ∈ notes, event.isFailed = false ∧ event.isOutcome = false)
    (hevents : s'.events = s.events ++ notes) (hconfig : s'.config = s.config) :
    Worked s s' [] notes := by
  refine ⟨hevents, fun event hevent => (hnotes event hevent).1, by simp, ?_, hconfig⟩
  exact List.filter_eq_nil_iff.2 fun event hevent => by simp [(hnotes event hevent).2]

theorem Single.isCommit (single : Single) : (single.pipeline (ε := ε)).IsCommit := by
  cases single with
  | component entry => exact isCommit_componentPipeline entry
  | packages names saveAs => exact isCommit_packagesPipeline names saveAs

theorem isCommit_of_mem_jobs {pipelines : List (Pipeline ε)} (hp : ∀ p ∈ pipelines, p.IsCommit)
    {graphs : List (Except Failure Graph)} {moves : List (Move ε)}
    (hm : (jobs moves).Perm (jobsOf pipelines graphs)) : ∀ job ∈ jobs moves, job.pipeline.IsCommit :=
  fun job hjob => hp job.pipeline (pipeline_mem_of_mem_jobsOf (hm.mem_iff.1 hjob))

/-- The declared packages of a call that reads them. -/
theorem dealtWith {s : Session ε} {names : List String}
    (h : declaredPackages s.disk s.options.manifest = .ok names) {units : List Effect}
    {news : List Event} {name : String} (hname : name ∈ names)
    (hskips : news.countP (isSkipOf name) = (s.skipReports names).countP (isSkipOf name))
    (hunits : units.countP (fun effect => effect.unit = name) =
      if s.readiness name = .ready then names.count name else 0) : DealtWith s units news name := by
  have hcount : names.count name = 1 :=
    List.count_eq_one_of_mem (declaredPackages_nodup h) hname
  rw [countP_skipReports, hcount] at hskips
  rw [hcount] at hunits
  have hbundled : s.readiness name = .bundled ↔ s.hasBundleFor name = true := by
    unfold readiness
    cases s.hasBundleFor name with
    | true => simp
    | false =>
      simp only [Bool.false_eq_true, if_false, iff_false]
      split
      · simp
      · split <;> simp
  unfold DealtWith
  cases hready : s.readiness name with
  | bundled =>
    rw [hready] at hskips hunits
    exact .inl ⟨hbundled.1 hready, hskips, hunits⟩
  | skipped reason =>
    have hnot : s.hasBundleFor name = false := by simp [← Bool.not_eq_true, ← hbundled, hready]
    rw [hready] at hskips hunits
    exact .inr (.inl ⟨hnot, hskips, hunits⟩)
  | ready =>
    have hnot : s.hasBundleFor name = false := by simp [← Bool.not_eq_true, ← hbundled, hready]
    rw [hready] at hskips hunits
    exact .inr (.inr ⟨hnot, hskips, hunits⟩)

/-- What a call reports that reads which packages are declared. -/
def Declares (s : Session ε) (call : Call) (units : List Effect) (news : List Event) : Prop :=
  call = .request .remainingPackages → ∀ names,
    declaredPackages s.disk s.options.manifest = .ok names → ∀ name ∈ names, DealtWith s units news name

theorem Runs.worked {s : Session ε} {call : Call} {inner : Outcome ε Answer} {units : List Effect}
    (h : Runs s call inner units) :
    ∃ news, Worked s inner.2 units news ∧ Declares s call units news := by
  cases h with
  | single request single h =>
    have hunits := unitsLogged_single single.expression (.refl s) (commits_run single.isCommit s)
    refine ⟨_, hunits.worked, ?_⟩
    rintro ⟨⟩
    cases h
  | group request roots packages saveAs h s₁ ha traces hl =>
    have hunits := unitsLogged_single saveAs ha
      (commits_groupTraced s₁ (roots.map ComponentRoot.ofName) traces packages saveAs)
    refine ⟨_, hunits.worked, ?_⟩
    rintro ⟨⟩
    cases h
  | undiscovered e h => exact ⟨[], worked_idle (by simp) (by simp) rfl, by rintro ⟨⟩⟩
  | components entries h graphs hl moves hm =>
    have hjobs := isCommit_of_mem_jobs
      (List.forall_mem_map.2 fun entry _ => isCommit_componentPipeline entry) hm
    have hunits := takeMoves_log (s := s) hjobs
    exact ⟨_, hunits.worked, by rintro ⟨⟩⟩
  | undeclared e h =>
    refine ⟨[], worked_idle (by simp) (by simp) rfl, ?_⟩
    rintro - names hnames
    rw [h] at hnames
    cases hnames
  | packages names h graphs hl moves hm =>
    have hjobs := isCommit_of_mem_jobs
      (List.forall_mem_map.2 fun name _ => isCommit_packagesPipeline [name] none) hm
    have hunits := takeMoves_log (s := afterSkips s names) hjobs
    have hnotes : ∀ event ∈ s.skipReports names, event.isFailed = false ∧ event.isOutcome = false := by
      intro event hevent
      obtain ⟨name, reason, rfl⟩ := mem_skipReports hevent
      exact ⟨rfl, rfl⟩
    refine ⟨_, worked_of_units hnotes hunits, ?_⟩
    rintro - names' hnames name hname
    cases h.symm.trans hnames
    refine dealtWith h hname ?_ (countP_unit hl hm name)
    rw [List.countP_append, Nat.add_eq_left, List.countP_eq_zero]
    intro event hevent
    have houtcome := hunits.isOutcome event hevent
    cases event <;> simp_all [Event.isOutcome, isSkipOf]
  | saved disk h =>
    exact ⟨[.configSaved _], worked_idle (by simp [Event.isFailed, Event.isOutcome]) rfl rfl,
      by rintro ⟨⟩⟩
  | unsaved e disk h => exact ⟨[], worked_idle (by simp) (by simp) rfl, by rintro ⟨⟩⟩

/-! ## The reports of a call -/

/-- The reports `news` of a call tell what came of it and what its units did. -/
structure Logged (s : Session ε) (call : Call) (out : Outcome ε Answer) (units : List Effect)
    (news : List Event) : Prop where
  events : out.2.events = s.events ++ news
  /-- One failure is reported when the call fails, and none when it succeeds. -/
  failures : news.countP Event.isFailed = if out.1.toBool then 0 else 1
  /-- The report of the failure comes last, with the operation and the text of the failure. -/
  last : ∀ e, out.1 = .error e → news.getLast? = some (.failed call.operation e.message)
  /-- The configuration is what the units made of it. -/
  config : out.2.config = registerAll s.config (registrations units)
  /-- The bundles that are reported are those that were entered in the ledger. -/
  written : news.filterMap written? = (registrations units).map fun entry => (entry.1, entry.2.length)
  /-- Each unit reports what it did. -/
  faithful : ∀ effect ∈ units, effect.Faithful
  /-- A unit that ends well reports one bundle, written or skipped. -/
  ended : ∀ effect ∈ units, effect.outcome.toBool = true →
    effect.reports.countP Event.isOutcome = 1
  /-- What is reported of bundles is what the units report. -/
  outcomes : news.filter Event.isOutcome = units.flatMap (·.reports)
  declared : Declares s call units news

theorem filterMap_written_filter (news : List Event) :
    (news.filter Event.isOutcome).filterMap written? = news.filterMap written? := by
  rw [List.filterMap_filter]
  refine List.filterMap_congr fun event _ => ?_
  cases event <;> rfl

theorem Worked.written {s s' : Session ε} {units : List Effect} {news : List Event}
    (h : Worked s s' units news) :
    news.filterMap written? = (registrations units).map fun entry => (entry.1, entry.2.length) := by
  rw [← filterMap_written_filter, h.outcomes]
  have hall := h.faithful
  clear h
  induction units with
  | nil => rfl
  | cons effect units ih =>
    obtain ⟨hfirst, hrest⟩ := List.forall_mem_cons.1 hall
    rw [List.flatMap_cons, List.filterMap_append, registrations_cons, List.map_append, ih hrest,
      hfirst.registration?_eq.2]

/-- The reports of a call, however it goes. -/
theorem ends_logged {s : Session ε} {call : Call} {out : Outcome ε Answer} {units : List Effect}
    (h : Ends s call out units) : ∃ news, Logged s call out units news := by
  obtain ⟨⟨result, s'⟩, hruns, rfl⟩ := h
  obtain ⟨news, hworked, hdeclares⟩ := hruns.worked
  have hnone : news.countP Event.isFailed = 0 :=
    List.countP_eq_zero.2 fun event hevent => by simp [hworked.unfailed event hevent]
  have hended : ∀ effect ∈ units, effect.outcome.toBool = true →
      effect.reports.countP Event.isOutcome = 1 :=
    fun effect heffect hok => (hworked.faithful effect heffect).countP_isOutcome hok
  cases result with
  | ok answer =>
    exact ⟨news, hworked.events, hnone, by rintro e ⟨⟩, hworked.config, hworked.written,
      hworked.faithful, hended, hworked.outcomes, hdeclares⟩
  | error e =>
    refine ⟨news ++ [.failed call.operation e.message], ?_, ?_, ?_, hworked.config, ?_,
      hworked.faithful, hended, ?_, ?_⟩
    · have hevents : s'.events = s.events ++ news := hworked.events
      simp [Session.finish, Session.emit, hevents]
    · rw [List.countP_append, hnone]
      rfl
    · rintro _ ⟨⟩
      exact List.getLast?_concat
    · rw [List.filterMap_append, hworked.written]
      exact List.append_nil _
    · rw [List.filter_append, hworked.outcomes]
      exact List.append_nil _
    · intro hcall names hnames name hname
      have hdealt := hdeclares hcall names hnames name hname
      unfold DealtWith at hdealt ⊢
      rw [List.countP_append]
      exact hdealt

/-! ## The operations of a session -/

theorem answered_finish {α : Type} (answer : α → Answer) (operation : String) (out : Outcome ε α) :
    answered answer (Session.finish operation out) = Session.finish operation (answered answer out) := by
  obtain ⟨result, s⟩ := out
  cases result <;> rfl

/-- Every operation of a session ends in one of these ways. -/
theorem ends_perform (s : Session ε) (call : Call) : ∃ units, Ends s call (call.perform s) units := by
  cases call with
  | saveConfig =>
    refine ⟨[], ?_⟩
    simp only [Call.perform, saveConfig, answered_finish]
    split
    · rename_i h
      exact ⟨_, .saved _ h, rfl⟩
    · rename_i h
      exact ⟨_, .unsaved _ _ h, rfl⟩
  | request request =>
    cases request with
    | component entry => exact ⟨_, _, .single _ (.component entry) rfl, answered_finish ..⟩
    | package name => exact ⟨_, _, .single _ (.packages [name] none) rfl, answered_finish ..⟩
    | packages names saveAs => exact ⟨_, _, .single _ (.packages names saveAs) rfl, answered_finish ..⟩
    | components roots saveAs =>
      exact ⟨_, _, .group _ roots [] saveAs rfl _ (aside_traceAll s _) _
        (by simp [length_traceAll]), answered_finish ..⟩
    | bundle roots names saveAs =>
      exact ⟨_, _, .group _ roots names saveAs rfl _ (aside_traceAll s _) _
        (by simp [length_traceAll]), answered_finish ..⟩
    | remainingComponents =>
      simp only [Call.perform, remainingComponents, answered_finish]
      cases h : s.pendingComponents with
      | error e => exact ⟨_, _, .undiscovered e h, rfl⟩
      | ok entries =>
        obtain ⟨graphs, moves, hl, hm, hrun⟩ := runAll_moves s (entries.map .component)
        simp only [List.map_map] at hm hrun
        refine ⟨_, _, .components entries h graphs (by simpa using hl) moves hm, ?_⟩
        exact congrArg (fun out => Session.finish _ (answered .targets out)) hrun
    | remainingPackages =>
      simp only [Call.perform, remainingPackages, answered_finish]
      cases h : declaredPackages s.disk s.options.manifest with
      | error e => exact ⟨_, _, .undeclared e h, rfl⟩
      | ok names =>
        obtain ⟨graphs, moves, hl, hm, hrun⟩ := runAll_moves (afterSkips s names)
          ((readyNames s names).map fun name => .packages [name] none)
        simp only [List.map_map] at hm hrun
        refine ⟨_, _, .packages names h graphs (by simpa using hl) moves hm, ?_⟩
        exact congrArg (fun out => Session.finish _ (answered .targets out)) hrun

/-- A call can end as the operation of the session does, and however it ends, its reports tell what came
of it and what its units did. -/
theorem call_logged (s : Session ε) (call : Call) :
    (∃ units, Ends s call (call.perform s) units) ∧
      ∀ out units, Ends s call out units → ∃ news, Logged s call out units news :=
  ⟨ends_perform s call, fun _ _ => ends_logged⟩

/-! ## Declared packages of every kind -/

/-- A manifest that declares four packages, and the main files of three of them. -/
def declaredDisk : Disk where
  nodes := [(["package.json".toList], .file (.text ("\x7b\"jspm\": \x7b\"dependencies\": " ++
      "\x7b\"a\": \"1\", \"b\": \"1\", \"c\": \"1\", \"d\": \"1\"\x7d\x7d\x7d")) false),
    (["jspm_packages".toList], .directory),
    (["jspm_packages".toList, "a@1.js".toList], .file (.text "") false),
    (["jspm_packages".toList, "c@1.js".toList], .file (.text "") false),
    (["jspm_packages".toList, "d@1.js".toList], .file (.text "") false)]

/-- Of four declared packages one has its bundle, one has no location, one can be bundled and one
cannot be traced. -/
def declaredSession : Session (List Engine.Call) where
  options := {}
  engine := Engine.Table.naming { broken := [("d", "unreadable")], packages := [("c", ["npm:c@1"])] }
  memory := []
  config := ⟨[("map", .object [("a", .string "npm:a@1"), ("c", .string "npm:c@1"),
      ("d", .string "npm:d@1")]),
    ("paths", .object [("npm:*", .string "jspm_packages/*")]),
    ("bundles", .object [("bundles/a", .strings ["npm:a@1"])])]⟩
  disk := declaredDisk

def declaredNames : List String := ["a", "b", "c", "d"]

/-- The packages that are ready commit in their order. -/
def declaredMoves : List (Move (List Engine.Call)) :=
  (jobsOf ((readyNames declaredSession declaredNames).map fun name => packagesPipeline [name] none)
    (declaredSession.traceAll (readyNames declaredSession declaredNames)).1).map .commit

theorem report_declared :
    report (takeMoves (afterSkips declaredSession declaredNames) declaredMoves).1 =
      .error (.engine (.trace "d" "unreadable")) := by
  have hresults : (takeMoves (afterSkips declaredSession declaredNames) declaredMoves).1 =
      [(0, .ok (some (Target.forRoot "c" declaredSession.options))),
        (1, .error (.engine (.trace "d" "unreadable")))] := by decide +kernel
  rw [hresults, report, inOrder, List.mergeSort_of_pairwise (by simp)]
  rfl

/-- One package has its bundle, one is skipped, one is written and one fails, and so does the call. -/
theorem call_logged_declared :
    ∃ out, Ends declaredSession (.request .remainingPackages) out
        (effects (afterSkips declaredSession declaredNames) declaredMoves) ∧
      out.2.events = [.packageSkipped "b" "no location in map/paths",
        .bundleWritten "bundles/c" "build/bundles/c.js" 1,
        .failed "bundle_remaining_packages" "Engine failed: Trace of 'd' failed: unreadable"] ∧
      ∃ news, Logged declaredSession (.request .remainingPackages) out
        (effects (afterSkips declaredSession declaredNames) declaredMoves) news := by
  have hruns := Runs.packages declaredNames (s := declaredSession) (by decide +kernel)
    (declaredSession.traceAll (readyNames declaredSession declaredNames)).1 (length_traceAll ..)
    declaredMoves (by rw [declaredMoves, (takeMoves_commits declaredSession _).2])
  have hends : Ends declaredSession (.request .remainingPackages) _ _ := ⟨_, hruns, rfl⟩
  refine ⟨_, hends, ?_, (call_logged declaredSession (.request .remainingPackages)).2 _ _ hends⟩
  rw [report_declared]
  decide +kernel

end BundleLedger.Concurrency
