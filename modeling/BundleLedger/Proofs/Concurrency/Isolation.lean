import BundleLedger.Proofs.Concurrency.LockOrder
import BundleLedger.Proofs.Session.Commits
import BundleLedger.Proofs.Text.Sorting

/-!
# A failing unit of a bulk operation

The units of a bulk operation are traced beside each other, and each commits when it gets the lock. A
run is the order in which they do, together with what happens around them: files and what the engine
remembers may change between two commits (`Move`). Every unit runs to its end, whatever becomes of
the others, and then the outcomes are looked at in the order of the units.

A unit that fails in its trace or in its compilation writes nothing. All that is left of it is what
its engine did, and that could as well have happened outside (`leftOut`).

Results:

* `getElem?_inOrder`: each unit has one outcome, and it stands at the unit's place.
* `report_eq_ok_iff` and `report_eq_error_iff`: what is reported, in the order of the units.
* `commit_stopped`: what a unit leaves that did not get as far as its save.
* `bulk_isolates`: the outcome and the ledger of a bulk operation, for every run.
* `runAll_moves`: running pipelines is one of these runs.
* `remainingComponents_isolated` and `remainingPackages_isolated`: what that says of the operations of
  a session.
-/
namespace BundleLedger

namespace Session

variable {ε : Type}

/-! ## Reports -/

theorem mapM_id_eq_ok_iff {α β : Type} {outcomes : List (Except α β)} {values : List β} :
    outcomes.mapM id = .ok values ↔ outcomes = values.map .ok := by
  induction outcomes generalizing values with
  | nil => cases values <;> simp [pure, Except.pure]
  | cons outcome outcomes ih =>
    rw [List.mapM_cons]
    cases outcome with
    | error e => cases values <;> simp [bind, Except.bind]
    | ok v =>
      cases hrest : outcomes.mapM id <;> cases values <;>
        simp [bind, Except.bind, pure, Except.pure, ← ih, hrest]

theorem mapM_id_eq_error_iff {α β : Type} {outcomes : List (Except α β)} {e : α} :
    outcomes.mapM id = .error e ↔
      ∃ before after, outcomes = before ++ .error e :: after ∧ ∀ o ∈ before, o.toBool = true := by
  induction outcomes with
  | nil => simp [pure, Except.pure]
  | cons outcome outcomes ih =>
    rw [List.mapM_cons]
    constructor
    · intro h
      cases outcome with
      | error e' =>
        cases h
        exact ⟨[], outcomes, rfl, by simp⟩
      | ok v =>
        have hrest : outcomes.mapM id = .error e := by
          cases hr : outcomes.mapM id <;> simp [hr, bind, Except.bind, pure, Except.pure] at h ⊢
          exact h
        obtain ⟨before, after, rfl, hbefore⟩ := ih.1 hrest
        exact ⟨.ok v :: before, after, rfl, List.forall_mem_cons.2 ⟨rfl, hbefore⟩⟩
    · rintro ⟨before, after, heq, hbefore⟩
      cases before with
      | nil =>
        cases heq
        rfl
      | cons o before =>
        obtain ⟨rfl, rfl⟩ := List.cons.inj heq
        rw [List.forall_mem_cons] at hbefore
        have hrest := ih.2 ⟨before, after, rfl, hbefore.2⟩
        cases outcome with
        | error e' => cases hbefore.1
        | ok v =>
          rw [hrest]
          rfl

theorem report_eq_ok_iff {results : List Settled} {targets : List Target} :
    report results = .ok targets ↔
      ∃ written : List (Option Target),
        inOrder results = written.map .ok ∧ targets = written.filterMap id := by
  simp only [report, ← mapM_id_eq_ok_iff]
  cases (inOrder results).mapM id <;> simp [bind, Except.bind, pure, Except.pure, eq_comm]

theorem report_eq_error_iff {results : List Settled} {e : Failure} :
    report results = .error e ↔ ∃ before after,
      inOrder results = before ++ .error e :: after ∧ ∀ o ∈ before, o.toBool = true := by
  simp only [report, ← mapM_id_eq_error_iff]
  cases (inOrder results).mapM id <;> simp [bind, Except.bind, pure, Except.pure]

theorem mem_inOrder {results : List Settled} {outcome : Except Failure (Option Target)} :
    outcome ∈ inOrder results ↔ ∃ r ∈ results, r.2 = outcome := by
  simp only [inOrder, List.mem_map, List.mem_mergeSort]

/-- When targets are reported, no unit has failed. -/
theorem toBool_of_report {results : List Settled} {targets : List Target}
    (h : report results = .ok targets) : ∀ r ∈ results, r.2.toBool = true := by
  obtain ⟨written, horder, -⟩ := report_eq_ok_iff.1 h
  intro r hr
  have hmem : r.2 ∈ inOrder results := mem_inOrder.2 ⟨r, hr, rfl⟩
  rw [horder] at hmem
  obtain ⟨target, -, heq⟩ := List.mem_map.1 hmem
  rw [← heq]
  rfl

/-- Where each position has an outcome, it stands at its position. -/
theorem getElem?_inOrder {results : List Settled} {n : Nat}
    (h : (results.map (·.1)).Perm (List.range n)) (i : Nat) (outcome : Except Failure (Option Target)) :
    (inOrder results)[i]? = some outcome ↔ (i, outcome) ∈ results := by
  have hle : (results.mergeSort fun a b => decide (a.1 ≤ b.1)).Pairwise
      fun a b => decide (a.1 ≤ b.1) = true :=
    List.pairwise_mergeSort (by intro a b c; simp; omega) (by intro a b; simp; omega) results
  have hpositions : (results.mergeSort fun a b => decide (a.1 ≤ b.1)).map (·.1) = List.range n := by
    refine List.Perm.eq_of_pairwise (fun _ _ _ _ => Nat.le_antisymm) ?_
      (List.pairwise_lt_range.imp Nat.le_of_lt) (((List.mergeSort_perm _ _).map _).trans h)
    rw [List.pairwise_map]
    simpa using hle
  have hplace : ∀ (j : Nat) (r : Settled),
      (results.mergeSort fun a b => decide (a.1 ≤ b.1))[j]? = some r → r.1 = j := by
    intro j r hj
    have hrange : (List.range n)[j]? = some r.1 := by
      rw [← hpositions, List.getElem?_map, hj]
      rfl
    rw [List.getElem?_range (by simpa using (List.getElem?_eq_some_iff.1 hrange).1)] at hrange
    exact (Option.some.inj hrange).symm
  rw [← (List.mergeSort_perm results fun a b => decide (a.1 ≤ b.1)).mem_iff, List.mem_iff_getElem?,
    inOrder, List.getElem?_map, Option.map_eq_some_iff]
  constructor
  · rintro ⟨r, hr, rfl⟩
    exact ⟨i, by rw [hr, ← hplace i r hr]⟩
  · rintro ⟨j, hj⟩
    obtain rfl : i = j := hplace j _ hj
    exact ⟨_, hj, rfl⟩

end Session

namespace Concurrency

open Session

variable {ε : Type}

/-! ## Units that stop -/

/-- Whether a unit failed in its trace or its compilation. -/
def stopped (job : Job ε) (result : Except Failure (Option Target)) : Bool :=
  match job.traced, result with
  | .error _, _ => true
  | .ok _, .error (.engine _) => true
  | _, _ => false

/-- The run without the units that failed in their trace or their compilation. What the engine did
for such a unit has happened outside. -/
def leftOut (s : Session ε) : List (Move ε) → List (Move ε)
  | [] => []
  | .commit job :: moves =>
    let (result, s') := job.commit s
    (if stopped job result then .outside s'.memory s'.disk else .commit job) :: leftOut s' moves
  | .outside memory disk :: moves =>
    .outside memory disk :: leftOut { s with memory, disk } moves

/-- Only units of a bulk operation commit. -/
def AreUnits (units : List Single) (moves : List (Move ε)) : Prop :=
  ∀ job ∈ jobs moves, ∃ single ∈ units, job.pipeline = single.pipeline

theorem areUnits_commit_iff {units : List Single} {job : Job ε} {moves : List (Move ε)} :
    AreUnits units (.commit job :: moves) ↔
      (∃ single ∈ units, job.pipeline = single.pipeline) ∧ AreUnits units moves :=
  List.forall_mem_cons

/-! ## One commit -/

/-- What compiling and saving does to the ledger: nothing, or it enters some modules. -/
theorem compileAndSave_config (s : Session ε) (root : String) (graph : Graph) :
    (s.compileAndSave root graph).2.options = s.options ∧
      ((s.compileAndSave root graph).2.config = s.config ∨
        ∃ modules, (s.compileAndSave root graph).2.config =
          s.config.register (Target.forRoot root s.options).id modules) := by
  rw [compileAndSave_eq]
  split
  · exact ⟨rfl, .inl rfl⟩
  · unfold compiled
    cases s.engine.compile graph (compileOptions s.options) s.memory s.disk with
    | mk result after =>
      cases result with
      | error e => exact ⟨rfl, .inl rfl⟩
      | ok bundle =>
        refine ⟨saved_options .., ?_⟩
        exact (saved_config_cases _ root bundle).imp_right fun h => ⟨_, h⟩

/-- A failure of the engine leaves a session with what the engine itself did. -/
theorem compileAndSave_engine_error {s s' : Session ε} {root : String} {graph : Graph}
    {failure : EngineFailure} (h : s.compileAndSave root graph = (.error (.engine failure), s')) :
    s' = { s with memory := s'.memory, disk := s'.disk } := by
  unfold compileAndSave at h
  split at h
  · cases h
  · split at h
    · cases h
      rfl
    · rename_i bundle memory disk _
      split at h
      · rename_i hsave
        rcases Bundle.save_cases disk root bundle s.options s.config with
          hs | ⟨e, d', hw, hs⟩ | ⟨d', hw, hs⟩ <;> rw [hs] at hsave <;> cases hsave
        cases h
        refine absurd ?_ (Bundle.write_ne_engine disk (Target.forRoot root s.options) bundle s.options
          failure)
        rw [hw]
      · cases h

variable {s : Session ε} {job : Job ε} {units : List Single}

/-- What a commit does to the ledger: nothing, or it enters some modules. -/
theorem commit_config {single : Single} (hj : job.pipeline = single.pipeline) :
    (job.commit s).2.options = s.options ∧ ((job.commit s).2.config = s.config ∨
      ∃ modules, (job.commit s).2.config = s.config.register (single.id s.options) modules) := by
  unfold Job.commit
  split
  · exact ⟨rfl, .inl rfl⟩
  · rename_i graph _
    rw [hj, Single.pipeline_commit, Single.root_commit]
    exact compileAndSave_config s single.root _

/-- A unit that did not get as far as its save leaves what its engine did, and nothing else. -/
theorem commit_stopped (hj : ∃ single ∈ units, job.pipeline = single.pipeline)
    (h : stopped job (job.commit s).1 = true) :
    (job.commit s).2 = { s with memory := (job.commit s).2.memory, disk := (job.commit s).2.disk } := by
  obtain ⟨single, -, hj⟩ := hj
  cases ht : job.traced with
  | error e =>
    rw [Job.commit, ht]
  | ok graph =>
    have hcommit : job.commit s =
        s.compileAndSave (single.commit graph).root ((single.commit graph).modules s) := by
      rw [Job.commit, ht, hj]
      exact Single.pipeline_commit single graph s
    rw [hcommit] at h ⊢
    unfold stopped at h
    rw [ht] at h
    split at h
    · rename_i heq
      exact absurd heq (by simp)
    · rename_i failure _ hfailure
      exact compileAndSave_engine_error (Prod.ext hfailure rfl)
    · cases h

/-! ## Many commits -/

/-- Entries with other ids than the units are kept. -/
theorem takeMoves_keeps {c : LoaderConfig} {o : Options} {moves : List (Move ε)}
    (hu : AreUnits units moves) (ho : s.options = o)
    (hnew : ∀ single ∈ units, ∀ b ∈ c.bundles, b.1 ≠ single.id o)
    (hkept : ∀ b ∈ c.bundles, b ∈ s.config.bundles) :
    ∀ b ∈ c.bundles, b ∈ (takeMoves s moves).2.config.bundles := by
  induction moves generalizing s with
  | nil => exact hkept
  | cons move moves ih =>
    cases move with
    | outside memory disk => exact ih (hu) ho hkept
    | commit job =>
      obtain ⟨⟨single, hmem, hj⟩, hrest⟩ := areUnits_commit_iff.1 hu
      obtain ⟨hopt, hconfig⟩ := commit_config (s := s) hj
      have hnext : ∀ b ∈ c.bundles, b ∈ (job.commit s).2.config.bundles := by
        intro b hb
        rcases hconfig with hconfig | ⟨modules, hconfig⟩ <;> rw [hconfig]
        · exact hkept b hb
        · rw [ho]
          exact LoaderConfig.mem_bundles_register_of_ne (hkept b hb) (hnew single hmem b hb)
      exact ih hrest (hopt.trans ho) hnext

/-- Units that did not get as far as their save can be left out: the others commit as before, with
the same outcomes, and the session ends up the same. -/
theorem takeMoves_leftOut {moves : List (Move ε)} (hu : AreUnits units moves) :
    (takeMoves s (leftOut s moves)).2 = (takeMoves s moves).2 ∧
      List.Sublist (takeMoves s (leftOut s moves)).1 (takeMoves s moves).1 := by
  induction moves generalizing s with
  | nil => exact ⟨rfl, .refl _⟩
  | cons move moves ih =>
    cases move with
    | outside memory disk => exact ih (hu)
    | commit job =>
      obtain ⟨hj, hrest⟩ := areUnits_commit_iff.1 hu
      obtain ⟨hsession, hresults⟩ := ih (s := (job.commit s).2) hrest
      simp only [leftOut]
      split
      · rename_i hstop
        simp only [takeMoves]
        rw [← commit_stopped hj hstop]
        exact ⟨hsession, hresults.cons _⟩
      · simp only [takeMoves]
        exact ⟨hsession, hresults.cons_cons _⟩

theorem takeMoves_positions (s : Session ε) (moves : List (Move ε)) :
    (takeMoves s moves).1.map (·.1) = (jobs moves).map (·.position) := by
  induction moves generalizing s with
  | nil => rfl
  | cons move moves ih =>
    cases move with
    | outside memory disk => exact ih _
    | commit job => simp only [takeMoves, jobs, List.map_cons, ih]

theorem positions_jobsOf {pipelines : List (Pipeline ε)} {graphs : List (Except Failure Graph)}
    (h : graphs.length = pipelines.length) :
    (jobsOf pipelines graphs).map (·.position) = List.range pipelines.length := by
  have hposition : (fun job : Job ε => job.position) ∘
      (fun p : (Pipeline ε × Except Failure Graph) × Nat => ⟨p.2, p.1.1, p.1.2⟩) = Prod.snd := rfl
  rw [jobsOf, List.map_map, hposition, List.zipIdx_map_snd, List.length_zip, h, Nat.min_self,
    List.range_eq_range']

theorem pipeline_mem_of_mem_jobsOf {pipelines : List (Pipeline ε)}
    {graphs : List (Except Failure Graph)} {job : Job ε} (h : job ∈ jobsOf pipelines graphs) :
    job.pipeline ∈ pipelines := by
  obtain ⟨⟨⟨pipeline, traced⟩, position⟩, hmem, rfl⟩ := List.mem_map.1 h
  exact (List.of_mem_zip (List.fst_mem_of_mem_zipIdx hmem)).1

/-! ## Bulk operations -/

/-- The units that a call finds that gets past discovery, or past the manifest. -/
inductive Finds (s : Session ε) : List Single → Prop where
  | components (entries : List String) (h : s.pendingComponents = .ok entries) :
      Finds s (entries.map .component)
  | packages (names : List String) (h : declaredPackages s.disk s.options.manifest = .ok names) :
      Finds s ((names.filter fun name => s.readiness name = .ready).map fun name =>
        .packages [name] none)

theorem Finds.isBulk {s : Session ε} (h : Finds s units) : IsBulk s units := by
  cases h with
  | components entries h =>
    left
    rw [pendingComponentUnits, h]
  | packages names h =>
    right
    rw [readyPackageUnits, h]

/-- The components come in the order of their entry files. -/
theorem pendingComponents_sorted {s : Session ε} {entries : List String}
    (h : s.pendingComponents = .ok entries) : entries.Pairwise (· ≤ ·) := by
  unfold pendingComponents at h
  split at h
  · cases h
  · rename_i found hfound
    cases h
    refine List.Pairwise.filter _ ?_
    unfold Discovery.entryFiles? at hfound
    simp only [Option.bind_eq_bind, Option.bind_eq_some_iff, Option.pure_def, Option.some.injEq]
      at hfound
    obtain ⟨steps, -, rfl⟩ := hfound
    exact Text.pairwise_mergeSort_le _

/-- Components come in the order of their entry files; packages keep that of the manifest. -/
theorem Finds.sorted {s : Session ε} (h : Finds s units) {entries : List String}
    (he : units = entries.map .component) : entries.Pairwise (· ≤ ·) := by
  cases h with
  | components found hfound =>
    have hsame : found = entries :=
      List.map_injective_iff.2 (fun _ _ h => Single.component.inj h) he
    rw [← hsame]
    exact pendingComponents_sorted hfound
  | packages names _ =>
    cases entries with
    | nil => exact .nil
    | cons entry entries =>
      obtain ⟨name, _, -, hname, -⟩ := List.map_eq_cons_iff.1 he
      cases hname

theorem IsBulk.id_ne {s : Session ε} (hu : IsBulk s units) :
    ∀ single ∈ units, ∀ b ∈ s.config.bundles, b.1 ≠ single.id s.options := by
  intro single hsingle b hb he
  have hnone := hu.not_hasBundleFor hsingle
  rw [hasBundleFor, ← Bool.not_eq_true, LoaderConfig.hasBundle_iff] at hnone
  exact hnone ⟨b, hb, he⟩

/-- The units of a bulk operation replace no entry. -/
theorem IsBulk.keeps {s s₁ : Session ε} (hu : IsBulk s units) (hc : s₁.config = s.config)
    (ho : s₁.options = s.options) {moves : List (Move ε)} (hunits : AreUnits units moves) :
    ∀ b ∈ s.config.bundles, b ∈ (takeMoves s₁ moves).2.config.bundles :=
  takeMoves_keeps hunits ho hu.id_ne (by rw [hc]; exact fun _ hb => hb)

theorem areUnits_of_perm {graphs : List (Except Failure Graph)} {moves : List (Move ε)}
    (hp : (jobs moves).Perm (jobsOf (units.map Single.pipeline) graphs)) : AreUnits units moves := by
  intro job hjob
  obtain ⟨single, hsingle, heq⟩ := List.mem_map.1 (pipeline_mem_of_mem_jobsOf (hp.mem_iff.1 hjob))
  exact ⟨single, hsingle, heq.symm⟩

/-- The call of a bulk operation with nothing else under way. The units are found in `s`, their traces
end with `graphs`, and `moves` is what happens from `s₁` on until the last unit is through. Components
are taken in the order of their entry files. Each unit has one outcome. The call succeeds when all
units do and then lists what they wrote, by position, and otherwise it reports the first failure by
position. Entries of the ledger stay, and the session ends up as if units that failed in trace or
compilation had not been there. -/
theorem bulk_isolates (s s₁ s' : Session ε) (units : List Single) (hu : Finds s units)
    (hc : s₁.config = s.config) (ho : s₁.options = s.options)
    (graphs : List (Except Failure Graph)) (hl : graphs.length = units.length)
    (moves : List (Move ε)) (hp : (jobs moves).Perm (jobsOf (units.map Single.pipeline) graphs))
    (results : List Settled) (hrun : takeMoves s₁ moves = (results, s')) :
    (∀ entries : List String, units = entries.map .component → entries.Pairwise (· ≤ ·)) ∧
      ((inOrder results).length = units.length ∧
        ∀ i outcome, (inOrder results)[i]? = some outcome ↔ (i, outcome) ∈ results) ∧
      (∀ targets, report results = .ok targets ↔ ∃ written : List (Option Target),
        inOrder results = written.map .ok ∧ targets = written.filterMap id) ∧
      (∀ e, report results = .error e ↔ ∃ before after,
        inOrder results = before ++ .error e :: after ∧ ∀ o ∈ before, o.toBool = true) ∧
      (∀ b ∈ s.config.bundles, b ∈ s'.config.bundles) ∧
      (takeMoves s₁ (leftOut s₁ moves)).2 = s' ∧
        List.Sublist (takeMoves s₁ (leftOut s₁ moves)).1 results := by
  have hunits := areUnits_of_perm hp
  have hpositions : (results.map (·.1)).Perm (List.range units.length) := by
    have h := takeMoves_positions s₁ moves
    rw [hrun] at h
    rw [h]
    refine (hp.map _).trans ?_
    rw [positions_jobsOf (by simpa using hl), List.length_map]
  have hkept := hu.isBulk.keeps hc ho hunits
  have hleft := takeMoves_leftOut (s := s₁) hunits
  rw [hrun] at hkept hleft
  refine ⟨fun _ => hu.sorted, ⟨?_, getElem?_inOrder hpositions⟩, fun _ => report_eq_ok_iff,
    fun _ => report_eq_error_iff, hkept, hleft⟩
  have hlength := hpositions.length_eq
  simpa [inOrder] using hlength

theorem traceAll_frame (s : Session ε) (expressions : List String) :
    (s.traceAll expressions).2.options = s.options ∧
      (s.traceAll expressions).2.engine = s.engine ∧
      (s.traceAll expressions).2.config = s.config := by
  obtain ⟨_, _, h⟩ := aside_traceAll s expressions
  rw [h]
  exact ⟨rfl, rfl, rfl⟩

/-- Running the pipelines of some units is one of these runs: everything else happens before the first
commit. -/
theorem runAll_moves (s : Session ε) (units : List Single) :
    ∃ graphs moves, graphs.length = units.length ∧
      (jobs moves).Perm (jobsOf (units.map Single.pipeline) graphs) ∧
      s.runAll (units.map Single.pipeline) =
        (report (takeMoves s moves).1, (takeMoves s moves).2) := by
  have hl := length_traceAll s (units.map Single.expression)
  have ha := aside_traceAll s (units.map Single.expression)
  rcases htraced : s.traceAll (units.map Single.expression) with ⟨graphs, s₁⟩
  rw [htraced] at hl ha
  obtain ⟨memory, disk, rfl⟩ := ha
  set order := commitOrder _ (jobsOf (units.map Single.pipeline) graphs)
  obtain ⟨hrun, hjobs⟩ := takeMoves_commits { s with memory, disk } order
  refine ⟨graphs, .outside memory disk :: order.map .commit, by simpa using hl, ?_, ?_⟩
  · rw [jobs, hjobs]
    exact List.mergeSort_perm _ _
  · rw [takeMoves, hrun, runAll_of_traceAll htraced]

/-! ## The bulk operations of a session -/

def ButReports (s s' : Session ε) : Prop := ∃ events, s' = { s with events }

theorem ButReports.refl (s : Session ε) : ButReports s s := ⟨s.events, rfl⟩

theorem ButReports.trans {s s' s'' : Session ε} (h : ButReports s s') (h' : ButReports s' s'') :
    ButReports s s'' := by
  obtain ⟨_, rfl⟩ := h
  obtain ⟨events, rfl⟩ := h'
  exact ⟨events, rfl⟩

/-- Nothing that is bundled depends on what was reported before. -/
theorem compileAndSave_butReports {s s' : Session ε} (h : ButReports s s') (root : String)
    (graph : Graph) : (s'.compileAndSave root graph).1 = (s.compileAndSave root graph).1 ∧
      ButReports (s.compileAndSave root graph).2 (s'.compileAndSave root graph).2 := by
  obtain ⟨events, rfl⟩ := h
  unfold compileAndSave
  dsimp only
  split
  · exact ⟨rfl, _, rfl⟩
  · split
    · exact ⟨rfl, _, rfl⟩
    · split
      · exact ⟨rfl, _, rfl⟩
      · rename_i target _ _ _
        cases target <;> exact ⟨rfl, _, rfl⟩

theorem commit_butReports {s s' : Session ε} (h : ButReports s s') {single : Single}
    (hj : job.pipeline = single.pipeline) :
    (job.commit s').1 = (job.commit s).1 ∧ ButReports (job.commit s).2 (job.commit s').2 := by
  unfold Job.commit
  split
  · exact ⟨rfl, h⟩
  · rename_i graph _
    rw [hj, Single.pipeline_commit, Single.pipeline_commit]
    obtain ⟨events, rfl⟩ := h
    have hmodules : (single.commit graph).modules { s with events } =
        (single.commit graph).modules s := by
      cases single <;> rfl
    rw [hmodules]
    exact compileAndSave_butReports ⟨events, rfl⟩ _ _

theorem takeMoves_butReports {s s' : Session ε} (h : ButReports s s') {moves : List (Move ε)}
    (hu : ∀ job ∈ jobs moves, ∃ single : Single, job.pipeline = single.pipeline) :
    (takeMoves s' moves).1 = (takeMoves s moves).1 ∧
      ButReports (takeMoves s moves).2 (takeMoves s' moves).2 := by
  induction moves generalizing s s' with
  | nil => exact ⟨rfl, h⟩
  | cons move moves ih =>
    cases move with
    | outside memory disk =>
      obtain ⟨events, rfl⟩ := h
      exact ih ⟨events, rfl⟩ hu
    | commit job =>
      obtain ⟨⟨single, hj⟩, hrest⟩ := List.forall_mem_cons.1 hu
      obtain ⟨hresult, hnext⟩ := commit_butReports h hj
      obtain ⟨hresults, hlast⟩ := ih hnext hrest
      simp only [takeMoves]
      exact ⟨by rw [hresult, hresults], hlast⟩

theorem finish_fst {α : Type} (operation : String) (out : Outcome ε α) :
    (Session.finish operation out).1 = out.1 := by
  obtain ⟨result, s⟩ := out
  cases result <;> rfl

theorem finish_butReports {α : Type} (operation : String) (out : Outcome ε α) :
    ButReports out.2 (Session.finish operation out).2 := by
  obtain ⟨result, s⟩ := out
  cases result <;> exact ⟨_, rfl⟩

/-- What becomes of the call of a bulk operation that finds `units` in `s`, as `bulk_isolates` has it:
the call answers what `moves` come to, the entries of the ledger stay, and but for the reports the
session ends up as if the units that did not get as far as their save had not been there. -/
structure Isolated (s : Session ε) (units : List Single) (moves : List (Move ε))
    (out : Outcome ε (List Target)) : Prop where
  units : ∃ graphs : List (Except Failure Graph), graphs.length = units.length ∧
    (jobs moves).Perm (jobsOf (units.map Single.pipeline) graphs)
  succeeds : ∀ targets, out.1 = .ok targets ↔ ∃ written : List (Option Target),
    inOrder (takeMoves s moves).1 = written.map .ok ∧ targets = written.filterMap id
  fails : ∀ e, out.1 = .error e ↔ ∃ before after,
    inOrder (takeMoves s moves).1 = before ++ .error e :: after ∧ ∀ o ∈ before, o.toBool = true
  kept : ∀ b ∈ s.config.bundles, b ∈ out.2.config.bundles
  leftOut : ButReports (takeMoves s (leftOut s moves)).2 out.2

theorem isolated_runAll {s s₁ : Session ε} (hu : IsBulk s units) (hs : ButReports s s₁)
    (operation : String) : ∃ moves, Isolated s units moves
      (Session.finish operation (s₁.runAll (units.map Single.pipeline))) := by
  obtain ⟨graphs, moves, hl, hp, hrun⟩ := runAll_moves s₁ units
  have hunits := areUnits_of_perm hp
  obtain ⟨hresults, hafter⟩ :=
    takeMoves_butReports hs fun job hjob => (hunits job hjob).imp fun _ h => h.2
  have hend : ButReports (takeMoves s moves).2
      (Session.finish operation (s₁.runAll (units.map Single.pipeline))).2 := by
    rw [hrun]
    exact hafter.trans (finish_butReports ..)
  refine ⟨moves, ⟨graphs, hl, hp⟩, ?_, ?_, ?_, ?_⟩
  · intro targets
    rw [finish_fst, hrun, hresults]
    exact report_eq_ok_iff
  · intro e
    rw [finish_fst, hrun, hresults]
    exact report_eq_error_iff
  · obtain ⟨events, hevents⟩ := hend
    rw [hevents]
    exact hu.keeps rfl rfl hunits
  · rw [(takeMoves_leftOut hunits).1]
    exact hend

/-- Bundling all missing components, once they are found out. -/
theorem remainingComponents_isolated {s : Session ε} {entries : List String}
    (h : s.pendingComponents = .ok entries) :
    ∃ moves, Isolated s (entries.map .component) moves s.remainingComponents := by
  obtain ⟨moves, hm⟩ := isolated_runAll (Finds.components entries h).isBulk (.refl s)
    "bundle_remaining_components"
  refine ⟨moves, ?_⟩
  rw [List.map_map] at hm
  rw [remainingComponents, h]
  exact hm

/-- Bundling all declared packages that are ready, once the manifest is read. The reports about those
that are not come first. -/
theorem remainingPackages_isolated {s : Session ε} {names : List String}
    (h : declaredPackages s.disk s.options.manifest = .ok names) :
    ∃ moves, Isolated s ((names.filter fun name => s.readiness name = .ready).map fun name =>
      .packages [name] none) moves s.remainingPackages := by
  obtain ⟨moves, hm⟩ := isolated_runAll (Finds.packages names h).isBulk
    ⟨s.events ++ s.skipReports names, rfl⟩ "bundle_remaining_packages"
  refine ⟨moves, ?_⟩
  rw [List.map_map] at hm
  rw [remainingPackages, h]
  exact hm

/-! ## A component that cannot be traced -/

def brokenTraces : List (Except Failure Graph) :=
  pairTraces.take 1 ++ [.error (.engine (.trace "b/index.js" "unreadable"))]

/-- The second component comes first; then the first one commits. -/
def brokenMoves : List (Move (List Engine.Call)) :=
  (jobsOf (pairUnits.map Single.pipeline) brokenTraces).reverse.map .commit

theorem finds_pair : Finds pairStart pairUnits := by
  have h : Discovery.entryFiles? pairStart.disk pairStart.options.basePath =
      some ["a/index.js", "b/index.js"] :=
    entryFiles_of_sorted rfl (by decide +kernel) (by decide +kernel)
  have hpending : pairStart.pendingComponents = .ok ["a/index.js", "b/index.js"] := by
    rw [pendingComponents, h]
    rfl
  exact .components _ hpending

/-- The call fails, and the component that could be traced has its bundle. -/
theorem bulk_isolates_broken :
    report (takeMoves pairStart brokenMoves).1 =
        .error (.engine (.trace "b/index.js" "unreadable")) ∧
      (takeMoves pairStart brokenMoves).2.config.bundles =
        [("bundles/old", ["old.js"]), ("bundles/a", ["a/index.js", "shared.js"])] ∧
      (∀ b ∈ pairStart.config.bundles, b ∈ (takeMoves pairStart brokenMoves).2.config.bundles) ∧
      (takeMoves pairStart (leftOut pairStart brokenMoves)).2 = (takeMoves pairStart brokenMoves).2 := by
  have hall := bulk_isolates pairStart pairStart (takeMoves pairStart brokenMoves).2 pairUnits
    finds_pair rfl rfl brokenTraces (by decide +kernel) brokenMoves
    (by rw [brokenMoves, (takeMoves_commits pairStart _).2]; exact List.reverse_perm _)
    (takeMoves pairStart brokenMoves).1 rfl
  obtain ⟨-, ⟨hlength, houtcomes⟩, -, herror, hkept, hleft, -⟩ := hall
  have horder : inOrder (takeMoves pairStart brokenMoves).1 =
      [.ok (some (Target.forRoot "a" pairStart.options))] ++
        .error (.engine (.trace "b/index.js" "unreadable")) :: [] := by
    refine List.ext_getElem? fun i => ?_
    match i with
    | 0 => exact (houtcomes 0 _).2 (by decide +kernel)
    | 1 => exact (houtcomes 1 _).2 (by decide +kernel)
    | i + 2 =>
      rw [List.getElem?_eq_none (by simp [hlength, pairUnits])]
      rfl
  exact ⟨(herror _).2 ⟨_, _, horder, by simp [Except.toBool]⟩, by decide +kernel, hkept, hleft⟩

end Concurrency

end BundleLedger
